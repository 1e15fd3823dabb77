import RoqHtx.Framework.Machine
import RoqHtx.Framework.Outcome
import RoqHtx.Impl.Response

/-!
# The throttle

`tools::Throttle`: the headers and the status of every response, on any of the
connections that share it, decide until when requests are suspended. Times are
in nanoseconds, as integers, and every result is exact. The code computes in
signed 64 bits, where a header's time may be too large: `Throttle64` has the
handlers with their operations as the code makes them, and what they do is what
is done here wherever all of their results fit (`handle64_eq_some_iff`).
-/

namespace RoqHtx

/-- What an event reads off the clocks: `get_system` and `get_realtime`. -/
structure Clock where
  system : Int
  realtime : Int

/-- `web::rest::MessageHeader`. -/
structure MessageHeader where
  name : String
  value : String

namespace Throttle

/-! ## Headers -/

inductive Header where
  | unknown | xHbRatelimitRequestsRemain | xHbRatelimitRequestsExpire
  deriving DecidableEq

def requestsRemainName : String := "x-hb-ratelimit-requests-remain"
def requestsExpireName : String := "x-hb-ratelimit-requests-expire"

/-- What reading a header relies on. -/
structure HeaderFormats where
  /-- `utils::hash::FNV::compute`. -/
  fnv : String → UInt64
  /-- `utils::charconv::from_chars`. -/
  int32 : String → Except Exn Int32
  int64 : String → Except Exn Int64
  /-- The labels of a `switch` differ. -/
  fnv_ne : fnv requestsRemainName ≠ fnv requestsExpireName

def lower (name : String) : String := name.map Char.toLower

def parseHeader (formats : HeaderFormats) (name : String) : Header :=
  let key := formats.fnv (lower name)
  if key = formats.fnv requestsRemainName then .xHbRatelimitRequestsRemain
  else if key = formats.fnv requestsExpireName then .xHbRatelimitRequestsExpire
  else .unknown

structure Params where
  requestsRemain : Int32
  /-- In milliseconds. -/
  requestsExpire : Int64
  deriving DecidableEq

end Throttle

open Throttle (HeaderFormats Params)

structure Throttle where
  enabled : Bool
  params : Params
  suspendUntil : Int

namespace Throttle

def init (enabled : Bool) : Throttle := ⟨enabled, ⟨0, 0⟩, 0⟩

/-- `DEFAULT_BACKOFF`, five seconds. -/
def defaultBackoff : Int := 5000000000

/-- `BLOCKED_BACKOFF`, ten minutes. -/
def blockedBackoff : Int := 600000000000

/-- Whether the budget is not used up, or nothing is known of it. -/
def Params.available (params : Params) : Bool :=
  decide (0 < params.requestsRemain) || params.requestsExpire == 0

/-- How long requests are suspended if the budget is used up: exactly, which need not
fit in 64 bits. -/
def Params.period (params : Params) (clock : Clock) : Int :=
  let timestamp := params.requestsExpire.toInt * 1000000
  if clock.realtime < timestamp then timestamp - clock.realtime else defaultBackoff

/-- `update_suspend_until`, with exact results; `updateSuspendUntil64` has those of the
code. -/
def updateSuspendUntil (clock : Clock) (t : Throttle) : Throttle :=
  if !t.enabled then t
  else if t.params.available then { t with suspendUntil := 0 }
  else { t with suspendUntil := max t.suspendUntil (clock.system + t.params.period clock) }

/-- The parameters that a header leaves behind. -/
def Params.update (formats : HeaderFormats) (header : MessageHeader) (params : Params) :
    Except Exn Params :=
  match parseHeader formats header.name with
  | .unknown => .ok params
  | .xHbRatelimitRequestsRemain =>
    (formats.int32 header.value).map fun value => { params with requestsRemain := value }
  | .xHbRatelimitRequestsExpire =>
    (formats.int64 header.value).map fun value => { params with requestsExpire := value }

/-- A header counts only if it changes a parameter. -/
def onMessageHeader (formats : HeaderFormats) (header : MessageHeader) (clock : Clock)
    (t : Throttle) : Outcome Exn Throttle :=
  match t.params.update formats header with
  | .error e => .throws e t
  | .ok params => .ok (if params = t.params then t else updateSuspendUntil clock { t with params })

def onMessageEnd (status : Http.Status) (clock : Clock) (t : Throttle) : Throttle :=
  if !t.enabled then t
  else if status.code = 403 then
    { t with suspendUntil := max t.suspendUntil (clock.system + blockedBackoff) }
  else if status.code = 429 then
    if t.suspendUntil = 0 then { t with suspendUntil := clock.system + defaultBackoff } else t
  else t

/-! ## The throttle as a machine -/

/-- A piece of a response, as a connection reads it. -/
inductive Message where
  | messageBegin
  | messageHeader (header : MessageHeader)
  | messageEnd (status : Http.Status)

structure Event where
  connection : Nat
  clock : Clock
  message : Message

def handle (formats : HeaderFormats) (e : Event) (t : Throttle) : Outcome Exn Throttle :=
  match e.message with
  | .messageBegin => .ok t
  | .messageHeader header => t.onMessageHeader formats header e.clock
  | .messageEnd status => .ok (t.onMessageEnd status e.clock)

/-- An event, and what it leaves as `suspend_until_`. -/
structure Entry where
  event : Event
  suspendUntil : Int

structure State where
  throttle : Throttle
  /-- The system time of the latest event. -/
  now : Int
  log : List Entry

/-- An event cannot occur before an earlier one. -/
def step (formats : HeaderFormats) (s : State) (e : Event) : Option State :=
  if e.clock.system < s.now then none
  else
    let t := (handle formats e s.throttle).state
    some ⟨t, e.clock.system, ⟨e, t.suspendUntil⟩ :: s.log⟩

/-- A throttle, and the connections that share it. -/
def machine (formats : HeaderFormats) (enabled : Bool) : Machine State Event where
  init := ⟨init enabled, 0, []⟩
  step := step formats

end Throttle

end RoqHtx

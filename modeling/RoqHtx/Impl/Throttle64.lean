import RoqHtx.Framework.Checked
import RoqHtx.Impl.Throttle

/-!
# The throttle in 64 bits

The handlers of `tools::Throttle` with every operation of `std::chrono` they
make, each of which is undefined if it leaves the signed 64 bits. Milliseconds
are converted to nanoseconds wherever the two meet. `machine64` is the throttle
with these handlers.
-/

namespace RoqHtx.Throttle

/-- The limits of `int64_t`. -/
def int64Min : Int := -9223372036854775808
def int64Max : Int := 9223372036854775807

def int64 (x : Int) : Option Int := checked int64Min int64Max x

/-- `std::chrono::milliseconds` as nanoseconds. -/
def nanoseconds (milliseconds : Int) : Option Int := int64 (milliseconds * 1000000)

/-- `update_suspend_until`. -/
def updateSuspendUntil64 (clock : Clock) (t : Throttle) : Option Throttle :=
  if !t.enabled then some t
  else if t.params.available then some { t with suspendUntil := 0 }
  else
    let now := clock.system
    let nowUtc := clock.realtime
    let timestamp := t.params.requestsExpire.toInt
    -- the comparison
    (nanoseconds timestamp).bind fun ns =>
    if nowUtc < ns then
      -- the difference
      (nanoseconds timestamp).bind fun ns =>
      (int64 (ns - nowUtc)).bind fun period =>
      (int64 (now + period)).bind fun until_ =>
      some { t with suspendUntil := max t.suspendUntil until_ }
    else
      (int64 (now + defaultBackoff)).bind fun until_ =>
      some { t with suspendUntil := max t.suspendUntil until_ }

def onMessageHeader64 (formats : HeaderFormats) (header : MessageHeader) (clock : Clock)
    (t : Throttle) : Option (Outcome Exn Throttle) :=
  match t.params.update formats header with
  | .error e => some (.throws e t)
  | .ok params =>
    if params = t.params then some (.ok t)
    else (updateSuspendUntil64 clock { t with params }).map .ok

def onMessageEnd64 (status : Http.Status) (clock : Clock) (t : Throttle) : Option Throttle :=
  if !t.enabled then some t
  else if status.code = 403 then
    (int64 (clock.system + blockedBackoff)).bind fun until_ =>
    some { t with suspendUntil := max t.suspendUntil until_ }
  else if status.code = 429 then
    if t.suspendUntil = 0 then
      (int64 (clock.system + defaultBackoff)).bind fun until_ => some { t with suspendUntil := until_ }
    else some t
  else some t

/-- An event, undefined if an operation is. -/
def handle64 (formats : HeaderFormats) (e : Event) (t : Throttle) : Option (Outcome Exn Throttle) :=
  match e.message with
  | .messageBegin => some (.ok t)
  | .messageHeader header => t.onMessageHeader64 formats header e.clock
  | .messageEnd status => (t.onMessageEnd64 status e.clock).map .ok

/-! ## Machine -/

/-- An event cannot occur before an earlier one, and nothing is said of one in which
an operation is undefined. -/
def step64 (formats : HeaderFormats) (s : State) (e : Event) : Option State :=
  if e.clock.system < s.now then none
  else (handle64 formats e s.throttle).map fun o =>
    ⟨o.state, e.clock.system, ⟨e, o.state.suspendUntil⟩ :: s.log⟩

/-- A throttle, and the connections that share it. -/
def machine64 (formats : HeaderFormats) (enabled : Bool) : Machine State Event where
  init := ⟨init enabled, 0, []⟩
  step := step64 formats

end RoqHtx.Throttle

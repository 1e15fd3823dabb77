import RoqHtx.Framework.Machine
import RoqHtx.Impl.DropCopy

/-!
# The gateway as a machine

The events of one account, in any order: connections that come and go, timers,
messages on the socket, responses to the requests in flight, and order actions.
Every timer runs `OrderEntry` before `DropCopy`. A request in flight is answered
once, and any of them may be answered next. Messages arrive only on a socket
that is up.
-/

namespace RoqHtx

open OrderEntry (Tick)

variable {ρ : Type} [LimitRequest ρ]

inductive Event where
  | restConnected
  | restDisconnected
  | socketReady (trace : TraceInfo)
  | socketDisconnected
  | timer (t : Tick)
  | text (message : Json.Members)
  /-- The response to the request at this place among those in flight. -/
  | response (i : Nat) (response : Response)
  | createOrder (refuses : Nat → Option Exn) (info : MessageInfo) (createOrder : CreateOrder)
    (refData : RefData) (requestId : String)
  | cancelOrder (refuses : Nat → Option Exn) (info : MessageInfo) (cancelOrder : CancelOrder)
    (order : Order) (requestId : String)
  | cancelAllOrders (refuses : Nat → Option Exn) (info : MessageInfo)
    (cancelAllOrders : CancelAllOrders) (requestId : String)

namespace Gateway

/-- The state a handler leaves behind: an exception undoes nothing, and a
terminated process stays so. -/
def finish : Outcome Exn (Gateway ρ) → Gateway ρ
  | .ok g | .throws _ g => g
  | .fatal g => { g with halted := true }

/-- The request at place `i` is no longer in flight: it has its response. -/
def answer (i : Nat) (f : InFlight) (response : Response) (g : Gateway ρ) : Gateway ρ :=
  { g with inFlight := g.inFlight.eraseIdx i, log := .answered f response :: g.log }

/-- What an event does. It cannot occur (`none`) if it is about a connection
that is not there, or answers a request that is not in flight. -/
def handle (env : Env) (g : Gateway ρ) : Event → Option (Outcome Exn (Gateway ρ))
  | .restConnected => some (.ok (OrderEntry.onConnected g))
  | .restDisconnected => some (.ok (OrderEntry.onDisconnected g))
  | .socketReady trace =>
    if g.socketUp then none
    else some (.ok (DropCopy.onReady env trace { g with socketUp := true }))
  | .socketDisconnected => some (.ok (DropCopy.onDisconnected { g with socketUp := false }))
  | .timer t => some ((OrderEntry.onTimer env t g).bind (DropCopy.onTimer env t))
  | .text message => if g.socketUp then some (DropCopy.parse env message g) else none
  | .response i response =>
    g.inFlight[i]?.map fun f => OrderEntry.onResponse env f response (g.answer i f response)
  | .createOrder refuses info createOrder refData requestId =>
    some (OrderEntry.placeOrder env refuses info createOrder refData requestId g)
  | .cancelOrder refuses info cancelOrder order requestId =>
    some (OrderEntry.cancelOrder env refuses info cancelOrder order requestId g)
  | .cancelAllOrders refuses info cancelAllOrders requestId =>
    some (OrderEntry.cancelAllOrders env refuses info cancelAllOrders requestId g)

def step (env : Env) (g : Gateway ρ) (e : Event) : Option (Gateway ρ) :=
  if g.halted then none else (handle env g e).map finish

end Gateway

/-- One account of the gateway. -/
def machine (ρ : Type) [LimitRequest ρ] (env : Env) : Machine (Gateway ρ) Event where
  init := Gateway.init
  step := Gateway.step env

end RoqHtx

import RoqHtx.Framework.Machine
import RoqHtx.Impl.Rest

/-!
# The market data as a machine

The events of the download and of the streams, in any order. The REST connection
comes and goes in turns; any request that was ever made may be answered at any
time, and again. A client subscribes to any symbols, also to known ones. A stream
gets ready or is disconnected once it has been created.
-/

namespace RoqHtx

inductive MarketEvent where
  | restConnected
  | restDisconnected
  /-- The response to a request of a stage, made under a sequence number. -/
  | response (stage : Rest.Stage) (sequence : Nat) (response : Response) (t : Rest.Handling)
  | subscribe (symbols : List String)
  | feedReady (feed : Feed) (index : Nat)
  | feedDisconnected (feed : Feed) (index : Nat)
  /-- A timer at which so many messages may be sent. -/
  | timer (feed : Feed) (index count : Nat)
  /-- The sequencer of a symbol asks for a snapshot. -/
  | requestSnapshot (index : Nat) (symbol : String)

namespace Market

/-- A handler leaves the state behind, whatever it threw. -/
def handle (env : MarketEnv) (m : Market) : MarketEvent → Option Market
  | .restConnected => if m.rest.up then none else some (Rest.onConnected env m)
  | .restDisconnected => if m.rest.up then some (Rest.onDisconnected m) else none
  | .response stage sequence response t =>
    if (stage, sequence) ∈ m.requests then
      some (Rest.onResponse env stage sequence response t m).state
    else none
  | .subscribe symbols => some (Controller.onSubscribe env.slicing symbols m)
  | .feedReady feed index =>
    if index < (m.feeds feed).length then some (Feed.onReady env.slicing feed index m) else none
  | .feedDisconnected feed index =>
    if index < (m.feeds feed).length then some (Feed.onDisconnected feed index m) else none
  | .timer feed index count => some (Feed.onTimer feed index count m)
  | .requestSnapshot index symbol => some (Feed.request index symbol m)

def step (env : MarketEnv) (m : Market) (e : MarketEvent) : Option Market :=
  if m.halted then none else handle env m e

end Market

/-- The market data of a gateway. -/
def market (env : MarketEnv) : Machine Market MarketEvent where
  init := Market.init env
  step := Market.step env

end RoqHtx

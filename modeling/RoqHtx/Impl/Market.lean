import RoqHtx.Framework.Download
import RoqHtx.Framework.Slicing
import RoqHtx.Impl.Json
import RoqHtx.Impl.Response

/-!
# The state of the market data

A gateway has one `Rest`, which downloads the symbols, and two lists of streams,
`MarketData` and `MBPFeed`: one of each for every slice of the symbols. `Market`
is their state together with what they share, the requests made so far, and
their history (`log`, newest first). `MarketEnv` is everything that is not the
gateway's: settings, the generated readers, and how symbols are sliced.
-/

namespace RoqHtx

/-! ## Environment -/

structure MarketEnv where
  exchange : String
  /-- How many accounts there are: each has two streams of its own. -/
  accounts : Nat
  /-- `std::pow(10.0, n)`. -/
  power : Int → Double
  marketStatus : String → Except Exn Json.MarketStatus
  currencies : String → Except Exn Json.Currencies
  symbols : String → Except Exn Json.Symbols
  /-- How `core::Symbols` slices the symbols. -/
  slicing : Slicing
  /-- Whether the build checks assertions. -/
  assertions : Bool

/-! ## Rest -/

namespace Rest

/-- `Rest::State`, without `UNDEFINED`. -/
inductive Stage where
  | marketStatus | currencies | symbols | done
  deriving DecidableEq, Repr

def Stage.all : List Stage := [.marketStatus, .currencies, .symbols, .done]

/-- The reason that is published with the status. -/
def Stage.reason : Stage → String
  | .marketStatus => "market-status"
  | .currencies => "currencies"
  | .symbols => "symbols"
  | .done => ""

structure State where
  /-- The REST connection is up. -/
  up : Bool
  ready : Bool
  connectionStatus : ConnectionStatus
  download : Download Stage.all
  /-- `download_.sequence()`. -/
  sequence : Nat

end Rest

/-! ## Streams -/

/-- The kinds of streams that subscribe to symbols. -/
inductive Feed where
  | marketData | mbpFeed
  deriving DecidableEq, Repr

namespace Feed

/-- A message in a stream's queue. -/
inductive Message where
  | sub (source symbol theme : String) (id : UInt64)
  | req (source symbol theme : String) (id : UInt64)
  deriving DecidableEq, Repr

def Message.text : Message → String
  | .sub source symbol theme id =>
    "\x7b\"sub\":\"" ++ source ++ "." ++ symbol ++ "." ++ theme ++ "\",\"id\":\"" ++ toString id ++
      "\"\x7d"
  | .req source symbol theme id =>
    "\x7b\"req\":\"" ++ source ++ "." ++ symbol ++ "." ++ theme ++ "\",\"id\":\"" ++ toString id ++
      "\"\x7d"

structure State where
  connectionStatus : ConnectionStatus
  requestId : UInt64
  requestQueue : List Message

end Feed

/-! ## History -/

inductive MarketEntry where
  -- arrived
  | restConnected
  | restDisconnected
  | subscribed (symbols : List String)
  | feedReady (feed : Feed) (index : Nat)
  | feedDisconnected (feed : Feed) (index : Nat)
  -- sent
  | restRequest (stage : Rest.Stage) (sequence : Nat)
  | enqueued (feed : Feed) (index : Nat) (message : Feed.Message)
  | socketText (feed : Feed) (index : Nat) (message : Feed.Message)
  -- published
  | restStatus (status : ConnectionStatus) (reason : String)
  | feedStatus (feed : Feed) (index : Nat) (status : ConnectionStatus)
  | referenceData (referenceData : ReferenceData)
  | marketStatus (marketStatus : MarketStatus)
  -- between
  | downloadBegin
  | download (stage : Rest.Stage)
  | downloadRetry (stage : Rest.Stage)
  /-- The response with which a stage is checked. -/
  | downloadCheck (stage : Rest.Stage) (response : Response)
  /-- The symbols have been processed; the dispatcher discards some. -/
  | processed (symbols : Json.Symbols) (discards : String → Bool)
  | symbolsUpdate (symbols : List String)
  | created (feed : Feed) (index : Nat) (streamId : UInt16)
  | asserted (holds : Bool)

/-! ## State -/

structure Market where
  rest : Rest.State
  /-- `Shared::symbols`, in the order in which they were added. -/
  symbols : List String
  /-- `Shared::all_symbols`, a set. -/
  allSymbols : List String
  /-- The latest stream id. -/
  streamId : UInt16
  marketData : List Feed.State
  mbpFeed : List Feed.State
  /-- The download requests that have been made: any of them may be answered, at
  any time and more than once. -/
  requests : List (Rest.Stage × Nat)
  /-- The process has terminated. -/
  halted : Bool
  log : List MarketEntry

namespace Market

/-- One stream for `Rest`, and two for each account. -/
def init (env : MarketEnv) : Market where
  rest := ⟨false, false, .undefined, .idle, 0⟩
  symbols := []
  allSymbols := []
  streamId := UInt16.ofNat (1 + 2 * env.accounts)
  marketData := []
  mbpFeed := []
  requests := []
  halted := false
  log := []

def push (x : MarketEntry) (m : Market) : Market := { m with log := x :: m.log }

def feeds (m : Market) : Feed → List Feed.State
  | .marketData => m.marketData
  | .mbpFeed => m.mbpFeed

def setFeeds (m : Market) (l : List Feed.State) : Feed → Market
  | .marketData => { m with marketData := l }
  | .mbpFeed => { m with mbpFeed := l }

end Market

end RoqHtx

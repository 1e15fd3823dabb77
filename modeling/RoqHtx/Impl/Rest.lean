import RoqHtx.Impl.Controller

/-!
# The download of the symbols

`Rest`: on a connection it downloads in stages, each of which makes a request
and waits for its answer (`download`). The callback of a request has captured
the sequence number of the download, and an answer that is out of date is
skipped (`skip`). What the symbols say is published (`onSymbols`), and new ones
are handed on to the `Controller`.
-/

namespace RoqHtx

namespace Rest

/-! ## Response -/

variable {σ : Type}

/-- The `try` block of `Rest::process_response`. -/
def processResult (response : Response) (errorHandler : ErrorHandler σ)
    (successHandler : SuccessHandler σ) (s : σ) : Outcome Exn σ :=
  match response.result with
  | .error e => .throws e s
  | .ok (status, category, body) =>
    match category with
    | .success => successHandler body s
    | .clientError | .serverError => .ok (errorHandler .exchange .rejected .unknown status.text s)
    | .unknown | .informationalResponse | .redirection =>
      match response.expect with
      | some e => .throws e s
      | none => .ok s

/-- `catch`: only network errors are told apart. -/
def catchException (errorHandler : ErrorHandler σ) : Outcome Exn σ → Outcome Exn σ
  | .throws (.network requestStatus error what) s =>
    .ok (errorHandler .gateway requestStatus error what s)
  | .throws (.oms _ _ _ what) s | .throws (.std what) s =>
    .ok (errorHandler .exchange .error .unknown what s)
  | o => o

def processResponse (response : Response) (errorHandler : ErrorHandler σ)
    (successHandler : SuccessHandler σ) (s : σ) : Outcome Exn σ :=
  catchException errorHandler (processResult response errorHandler successHandler s)

/-! ## Connection status -/

/-- Publishes a connection status. -/
def publish (status : ConnectionStatus) (reason : String) (m : Market) : Market :=
  { m with
    rest := { m.rest with connectionStatus := status }
    log := .restStatus status reason :: m.log }

/-! ## Download -/

/-- Makes the request of a stage: `get_market_status`, `get_currencies`,
`get_symbols`. -/
def get (stage : Stage) (m : Market) : Market :=
  { m with
    requests := (stage, m.rest.sequence) :: m.requests
    log := .restRequest stage m.rest.sequence :: m.log }

/-- `assert`: a build that checks assertions stops at one that fails. -/
def assert (env : MarketEnv) (holds : Bool) (m : Market) : Market :=
  { m with
    halted := m.halted || !holds && env.assertions
    log := .asserted holds :: m.log }

/-- The callback of the download, on entering a stage. -/
def download (env : MarketEnv) (stage : Stage) (m : Market) : Int × Market :=
  let m := m.push (.download stage)
  match stage with
  | .marketStatus | .currencies | .symbols =>
    (1, get stage (publish .downloading stage.reason m))
  | .done =>
    let m := assert env (!m.rest.ready) (publish .ready "" m)
    (0, { m with rest := { m.rest with ready := true } })

/-- What the download component returns, put in place. -/
def setDownload (r : Download Stage.all × Market) : Market :=
  { r.2 with rest := { r.2.rest with download := r.1 } }

/-- A fresh sequence number. -/
def nextSequence (m : Market) : Market :=
  { m with rest := { m.rest with sequence := m.rest.sequence + 1 } }

/-- `download_.begin`. -/
def begin (env : MarketEnv) (m : Market) : Market :=
  setDownload (Download.begin (download env) ((nextSequence m).push .downloadBegin))

/-- The current stage is entered once more. -/
def reissue (env : MarketEnv) (m : Market) : Market :=
  setDownload (Download.bump (download env) m.rest.download m)

/-- `download_.bump`. -/
def bump (env : MarketEnv) (m : Market) : Market := reissue env (nextSequence m)

/-- `download_.check`. -/
def check (env : MarketEnv) (stage : Stage) (response : Response) (m : Market) : Market :=
  setDownload (Download.check (download env) stage m.rest.download
    (m.push (.downloadCheck stage response)))

/-- `download_.skip`. -/
def skip (sequence : Nat) (stage : Stage) (m : Market) : Bool :=
  decide (sequence < m.rest.sequence) || m.rest.download.passed stage

/-- What `download_.retry` does in the current stage. -/
inductive Retry where
  /-- Nothing at once. -/
  | later
  | reissue
  | bump
  deriving DecidableEq, Repr

/-- `download_.retry`. -/
def retry (env : MarketEnv) (how : Retry) (stage : Stage) (m : Market) : Market :=
  let m := m.push (.downloadRetry stage)
  if m.rest.download.state = some stage then
    match how with
    | .later => m
    | .reissue => reissue env m
    | .bump => bump env m
  else m

/-! ## Connection -/

def onConnected (env : MarketEnv) (m : Market) : Market :=
  let m := { m with rest := { m.rest with up := true } }.push .restConnected
  if m.rest.download.downloading then bump env m else begin env m

def onDisconnected (m : Market) : Market :=
  let m := { m with rest := { m.rest with up := false, ready := false } }.push .restDisconnected
  let m := publish .disconnected "" m
  if !m.rest.download.downloading then { m with rest := { m.rest with download := .idle } } else m

/-! ## Symbols -/

/-- `map`, of whether a symbol is traded through the API. -/
def mapTrading : Json.Trading → TradingStatus
  | .undefinedInternal | .unknownInternal => .undefined
  | .enabled => .open_
  | .disabled => .close

/-- The calls that may throw while symbols are processed, by the place of the
item. -/
inductive Call where
  | referenceData (item : Nat)
  | marketStatus (item : Nat)
  | symbolsUpdate
  deriving DecidableEq, Repr

/-- What a response finds outside the gateway. -/
structure Handling where
  /-- `Dispatcher::discard_symbol`. -/
  discards : String → Bool
  raises : Call → Option Exn
  retry : Retry

/-- A symbol is included. -/
def included (item : Json.SymbolsItem) : Bool := item.state == .online && item.apiTrading == .enabled

def referenceData (env : MarketEnv) (item : Json.SymbolsItem) (discard : Bool) : ReferenceData where
  exchange := env.exchange
  symbol := item.symbol
  baseCurrency := item.baseCurrency
  quoteCurrency := item.quoteCurrency
  tickSize := env.power (-item.pricePrecision)
  multiplier := .nan
  minNotional := .nan
  minTradeVol := item.minOrderAmt
  maxTradeVol := item.maxOrderAmt
  tradeVolStepSize := env.power (-item.amountPrecision)
  strikePrice := .nan
  underlying := item.underlying
  discard

def marketStatus (env : MarketEnv) (item : Json.SymbolsItem) : RoqHtx.MarketStatus where
  exchange := env.exchange
  symbol := item.symbol
  tradingStatus := mapTrading item.apiTrading

/-- A call, unless it throws. -/
def dispatch (raised : Option Exn) (f : σ → σ) (s : σ) : Outcome Exn σ :=
  match raised with
  | some e => .throws e s
  | none => .ok (f s)

/-- Publishes what the item at place `i` says. The symbols are those that are new
so far (`symbols_2`). -/
def publishItem (env : MarketEnv) (t : Handling) (i : Nat) (item : Json.SymbolsItem)
    (s : List String × Market) : Outcome Exn (List String × Market) :=
  if !included item then .ok s
  else
    let discard := t.discards item.symbol
    (dispatch (t.raises (.referenceData i))
      (fun s => (s.1, s.2.push (.referenceData (referenceData env item discard)))) s).bind fun s =>
    if discard then .ok s
    else
      dispatch (t.raises (.marketStatus i))
        (fun s => (s.1, s.2.push (.marketStatus (marketStatus env item))))
        (Controller.emplace s item.symbol)

/-- Publishes what the items say, from place `i` on. -/
def publishItems (env : MarketEnv) (t : Handling) :
    Nat → List Json.SymbolsItem → List String × Market → Outcome Exn (List String × Market)
  | _, [], s => .ok s
  | i, item :: items, s => (publishItem env t i item s).bind (publishItems env t (i + 1) items)

/-- Hands new symbols on, if there are any. -/
def handOn (env : MarketEnv) (t : Handling) (s : List String × Market) :
    Outcome Exn (List String × Market) :=
  if s.1 = [] then .ok s
  else
    dispatch (t.raises .symbolsUpdate)
      (fun s => (s.1, Controller.onSymbolsUpdate env.slicing s.1 s.2)) s

/-- The handler of the symbols. -/
def onSymbols (env : MarketEnv) (t : Handling) (symbols : Json.Symbols) (m : Market) :
    Outcome Exn Market :=
  (((publishItems env t 0 symbols.data ([], m)).bind (handOn env t)).map Prod.snd).bind fun m =>
  .ok (m.push (.processed symbols t.discards))

/-! ## Answers -/

/-- Every failure is logged, and the stage tried again. -/
def handleError (env : MarketEnv) (how : Retry) (stage : Stage) : ErrorHandler Market :=
  fun _ _ _ _ m => retry env how stage m

/-- The answer to the request of a stage. -/
def ack {α : Type} (env : MarketEnv) (stage : Stage) (decode : String → Except Exn α)
    (accepted : α → Bool) (text : α → String) (onAck : α → Market → Outcome Exn Market)
    (sequence : Nat) (response : Response) (t : Handling) (m : Market) : Outcome Exn Market :=
  processResponse response (handleError env t.retry stage) (fun body m =>
    if skip sequence stage m then .ok m
    else
      match decode body with
      | .error e => .throws e m
      | .ok a =>
        if accepted a then (onAck a m).bind fun m => .ok (check env stage response m)
        else .ok (handleError env t.retry stage .exchange .rejected .undefined (text a) m)) m

def getMarketStatusAck (env : MarketEnv) :
    Nat → Response → Handling → Market → Outcome Exn Market :=
  ack env .marketStatus env.marketStatus (·.code == 200) (·.message) fun _ m => .ok m

def getCurrenciesAck (env : MarketEnv) :
    Nat → Response → Handling → Market → Outcome Exn Market :=
  ack env .currencies env.currencies (·.status == .ok) (·.errMsg) fun _ m => .ok m

def getSymbolsAck (env : MarketEnv) (sequence : Nat) (response : Response) (t : Handling)
    (m : Market) : Outcome Exn Market :=
  ack env .symbols env.symbols (·.status == .ok) (·.errMsg) (onSymbols env t) sequence response t m

/-- Calls the callback of a request. -/
def onResponse (env : MarketEnv) (stage : Stage) (sequence : Nat) (response : Response)
    (t : Handling) (m : Market) : Outcome Exn Market :=
  match stage with
  | .marketStatus => getMarketStatusAck env sequence response t m
  | .currencies => getCurrenciesAck env sequence response t m
  | .symbols => getSymbolsAck env sequence response t m
  | .done => .ok m

end Rest

end RoqHtx

import RoqHtx.Impl.Market

/-!
# Streams of market data

`MarketData` and `MBPFeed` subscribe to the symbols of their slice: to all of
them when they get ready (`Feed.onReady`), and to new ones while they are. The
`Controller` adds new symbols and creates the streams that they need
(`onSymbolsUpdate`).
-/

namespace RoqHtx

namespace Feed

/-! ## Themes -/

def MarketData.themes : List String := ["bbo", "ticker", "trade.detail", "detail"]

/-- `mbp_depth_theme`. -/
def MBPFeed.themes : List String := ["mbp.20"]

/-- What is subscribed to for each symbol. -/
def themes : Feed → List String
  | .marketData => MarketData.themes
  | .mbpFeed => MBPFeed.themes

/-! ## Subscribing -/

def ready (s : State) : Bool := s.connectionStatus == .ready

/-- `request_queue_.emplace_back`, with the next request id. -/
def emplaceBack (feed : Feed) (index : Nat) (message : UInt64 → Message) (m : Market) : Market :=
  match (m.feeds feed)[index]? with
  | none => m
  | some s =>
    let id := s.requestId + 1
    let queue := s.requestQueue ++ [message id]
    (m.setFeeds ((m.feeds feed).set index { s with requestId := id, requestQueue := queue }) feed).push
      (.enqueued feed index (message id))

def subscribeSymbol (feed : Feed) (index : Nat) (m : Market) (symbol : String) : Market :=
  (themes feed).foldl (fun m theme => emplaceBack feed index (.sub "market" symbol theme) m) m

def subscribeSymbols (feed : Feed) (index : Nat) (symbols : List String) (m : Market) : Market :=
  symbols.foldl (subscribeSymbol feed index) m

/-- `core::Symbols::get_slice`. -/
def getSlice (slicing : Slicing) (index startFrom : Nat) (symbols : List String) : List String :=
  slicing.members index startFrom symbols

/-- Whether a stream is there, and ready. -/
def isReady (feed : Feed) (index : Nat) (m : Market) : Bool := ((m.feeds feed)[index]?).any ready

/-- `subscribe`, of a stream. -/
def subscribe (slicing : Slicing) (feed : Feed) (startFrom : Nat) (m : Market) (index : Nat) : Market :=
  if isReady feed index m then
    subscribeSymbols feed index (getSlice slicing index startFrom m.symbols) m
  else m

/-! ## Connection -/

/-- Publishes a connection status. -/
def publish (status : ConnectionStatus) (feed : Feed) (index : Nat) (m : Market) : Market :=
  (m.setFeeds ((m.feeds feed).modify index fun s => { s with connectionStatus := status }) feed).push
    (.feedStatus feed index status)

def onDisconnected (feed : Feed) (index : Nat) (m : Market) : Market :=
  let m := publish .disconnected feed index (m.push (.feedDisconnected feed index))
  m.setFeeds ((m.feeds feed).modify index fun s => { s with requestQueue := [] }) feed

def onReady (slicing : Slicing) (feed : Feed) (index : Nat) (m : Market) : Market :=
  subscribe slicing feed 0 (publish .ready feed index (m.push (.feedReady feed index))) index

/-! ## Queue -/

/-- `check_request_queue`, if so many messages may be sent. -/
def checkRequestQueue (feed : Feed) (index count : Nat) (m : Market) : Market :=
  match (m.feeds feed)[index]? with
  | none => m
  | some s =>
    (s.requestQueue.take count).foldl (fun m message => m.push (.socketText feed index message))
      (m.setFeeds ((m.feeds feed).set index { s with requestQueue := s.requestQueue.drop count }) feed)

def onTimer (feed : Feed) (index count : Nat) (m : Market) : Market :=
  if isReady feed index m then checkRequestQueue feed index count m else m

/-- `MBPFeed::request`. -/
def request (index : Nat) (symbol : String) (m : Market) : Market :=
  emplaceBack .mbpFeed index (.req "market" symbol "mbp.20") m

end Feed

namespace Controller

open Feed (subscribe)

/-! ## Slices -/

/-- A stream that has just been created: it is started, but not yet connected. -/
def create (feed : Feed) (m : Market) : Market :=
  let streamId := m.streamId + 1
  let s : Feed.State := ⟨.undefined, streamId.toUInt64 * 1000000, []⟩
  { m.setFeeds (m.feeds feed ++ [s]) feed with
    streamId
    log := .created feed (m.feeds feed).length streamId :: m.log }

/-- Creates so many streams. -/
def createAll (feed : Feed) : Nat → Market → Market
  | 0, m => m
  | n + 1, m => createAll feed n (create feed m)

/-- Creates streams until there is one for every slice. -/
def ensureFeed (size : Nat) (feed : Feed) (m : Market) : Market :=
  createAll feed (size - (m.feeds feed).length) m

def ensureSymbolSlices (size : Nat) (m : Market) : Market :=
  ensureFeed size .mbpFeed (ensureFeed size .marketData m)

/-- Every stream of a kind subscribes to its new symbols. -/
def subscribeAll (slicing : Slicing) (startFrom : Nat) (feed : Feed) (m : Market) : Market :=
  (List.range (m.feeds feed).length).foldl (subscribe slicing feed startFrom) m

/-! ## Symbols -/

/-- `Shared::symbols`, called with new symbols. -/
def addSymbols (symbols : List String) (m : Market) : Market :=
  { m with symbols := m.symbols ++ symbols }

def onSymbolsUpdate (slicing : Slicing) (symbols : List String) (m : Market) : Market :=
  let startFrom := m.symbols.length
  let m := addSymbols symbols (m.push (.symbolsUpdate symbols))
  let m := ensureSymbolSlices (slicing.size m.symbols.length) m
  subscribeAll slicing startFrom .mbpFeed (subscribeAll slicing startFrom .marketData m)

/-- `all_symbols.emplace`: a symbol that is not known yet becomes known, and is
kept. -/
def emplace (s : List String × Market) (symbol : String) : List String × Market :=
  if symbol ∈ s.2.allSymbols then s
  else (s.1 ++ [symbol], { s.2 with allSymbols := symbol :: s.2.allSymbols })

def onSubscribe (slicing : Slicing) (symbols : List String) (m : Market) : Market :=
  let (new, m) := symbols.foldl emplace ([], m.push (.subscribed symbols))
  onSymbolsUpdate slicing new m

end Controller

end RoqHtx

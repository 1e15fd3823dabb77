import RoqHtx.Impl.MbpFeed

/-!
# The sockets of the market data

What `MarketData` and `MBPFeed` make of the messages on their sockets: a message
is inflated, dispatched by the parser, and handled by the stream that received it.
A stream publishes the top of a book, trades and statistics, updates a book, or
answers a ping at once. Lists are put together in buffers that all of the streams
share. `Sockets` is the state of the books together with these buffers, and
`SocketsEnv` adds the generated readers of the messages.
-/

namespace RoqHtx

/-! ## Messages -/

namespace Json

inductive Direction where
  | undefinedInternal | unknownInternal
  | buy | sell
  deriving DecidableEq, Repr

structure BBOTick where
  ask : Double
  askSize : Double
  bid : Double
  bidSize : Double

structure BBO where
  ch : String
  ts : Int
  tick : BBOTick

structure TradeTickItem where
  tradeId : Int64
  amount : Double
  price : Double
  direction : Direction

structure TradeTick where
  id : UInt64
  data : List TradeTickItem

structure Trade where
  ch : String
  ts : Int
  tick : TradeTick

structure DetailTick where
  low : Double
  high : Double
  open_ : Double
  close : Double
  vol : Double

structure Detail where
  ch : String
  ts : Int
  tick : DetailTick

end Json

/-- `map`, of a direction. -/
def mapDirection : Json.Direction → Side
  | .undefinedInternal | .unknownInternal => .undefined
  | .buy => .buy
  | .sell => .sell

/-! ## What is published -/

structure Layer where
  bidPrice : Double
  bidQuantity : Double
  askPrice : Double
  askQuantity : Double
  deriving DecidableEq

structure TopOfBook where
  exchange : String
  symbol : String
  layer : Layer
  updateType : UpdateType
  exchangeTimeUtc : Int
  deriving DecidableEq

structure Trade where
  side : Side
  price : Double
  quantity : Double
  tradeId : String
  deriving DecidableEq

structure TradeSummary where
  exchange : String
  symbol : String
  trades : List Trade
  exchangeTimeUtc : Int
  exchangeSequence : UInt64
  deriving DecidableEq

inductive StatisticsType where
  | openPrice | highestTradedPrice | lowestTradedPrice | closePrice | tradeVolume
  deriving DecidableEq, Repr

structure Statistics where
  type : StatisticsType
  value : Double
  deriving DecidableEq

structure StatisticsUpdate where
  exchange : String
  symbol : String
  statistics : List Statistics
  updateType : UpdateType
  exchangeTimeUtc : Int
  deriving DecidableEq

/-- What a stream sends or publishes when it handles a message, but for its books. -/
inductive SocketEntry where
  | pong (feed : Feed) (index : Nat) (timestamp : Int)
  | topOfBook (index : Nat) (topOfBook : TopOfBook)
  | tradeSummary (index : Nat) (tradeSummary : TradeSummary)
  | statisticsUpdate (index : Nat) (statisticsUpdate : StatisticsUpdate)
  deriving DecidableEq

/-- The text of a pong. -/
def pongText (timestamp : Int) : String := "\x7b\"pong\":" ++ toString timestamp ++ "\x7d"

/-! ## Environment -/

/-- The generated readers, which read the same messages as those of the parser. -/
structure SocketsEnv where
  books : BooksEnv
  parser : Parser
  allowUnknownEventTypes : Bool
  bbo : Json.Members → Except Exn Json.BBO
  trade : Json.Members → Except Exn Json.Trade
  detail : Json.Members → Except Exn Json.Detail
  mbp : Json.Members → Except Exn Json.MBP
  mbpSnapshot : Json.Members → Except Exn Json.MBPSnapshot
  decode_bbo (message : Json.Members) : parser.decode .bbo message = (bbo message).map fun _ => .bbo
  decode_trade (message : Json.Members) :
    parser.decode .trade message = (trade message).map fun _ => .trade
  decode_detail (message : Json.Members) :
    parser.decode .detail message = (detail message).map fun _ => .detail
  decode_mbp (message : Json.Members) : parser.decode .mbp message = (mbp message).map fun _ => .mbp
  decode_mbpSnapshot (message : Json.Members) :
    parser.decode .mbpSnapshot message = (mbpSnapshot message).map fun _ => .mbpSnapshot

/-! ## State -/

/-- `Shared::mbp`. -/
structure MBPBuffer where
  bids : List MBPUpdate
  asks : List MBPUpdate

structure Sockets (σ : Type) where
  books : Books σ
  /-- What is in the shared buffers: what was put there last. -/
  mbp : MBPBuffer
  trades : List Trade
  /-- Newest first. -/
  log : List SocketEntry
  /-- A handler has terminated the process. -/
  halted : Bool

inductive SocketsEvent where
  /-- A message in binary: what it is inflated to, if it can be. -/
  | binary (feed : Feed) (index : Nat) (payload : Option Json.Members)
  | text (feed : Feed) (index : Nat)
  /-- Anything but an update or a snapshot of a book. -/
  | books (e : BooksEvent)

def BooksEvent.isMessage : BooksEvent → Bool
  | .mbp _ _ | .mbpSnapshot _ _ => true
  | .market _ => false

namespace Sockets

variable {σ : Type} [Sequencer σ MBPUpdate]

def init (env : SocketsEnv) : Sockets σ where
  books := Books.init env.books
  mbp := ⟨[], []⟩
  trades := []
  log := []
  halted := false

def push (x : SocketEntry) (s : Sockets σ) : Sockets σ := { s with log := x :: s.log }

/-- `get_mbp`. -/
def getMbp (s : Sockets σ) : Sockets σ := { s with mbp := ⟨[], []⟩ }

/-- `get_trades`. -/
def getTrades (s : Sockets σ) : Sockets σ := { s with trades := [] }

/-! ## Handlers -/

/-- Sent at once: pongs do not wait in the queue. -/
def sendPong (feed : Feed) (index : Nat) (timestamp : Int) (s : Sockets σ) : Sockets σ :=
  s.push (.pong feed index timestamp)

def onBBO (env : SocketsEnv) (index : Nat) (bbo : Json.BBO) (s : Sockets σ) : Sockets σ :=
  s.push (.topOfBook index
    { exchange := env.books.market.exchange
      symbol := Parser.extractSymbol bbo.ch
      layer :=
        { bidPrice := bbo.tick.bid
          bidQuantity := bbo.tick.bidSize
          askPrice := bbo.tick.ask
          askQuantity := bbo.tick.askSize }
      updateType := .snapshot
      exchangeTimeUtc := bbo.ts })

/-- `emplace_back`, of a trade. -/
def emplaceTrade (s : Sockets σ) (value : Json.TradeTickItem) : Sockets σ :=
  let trade : Trade :=
    { side := mapDirection value.direction
      price := value.price
      quantity := value.amount
      tradeId := toString value.tradeId }
  { s with trades := s.trades ++ [trade] }

def onTrade (env : SocketsEnv) (index : Nat) (trade : Json.Trade) (s : Sockets σ) : Sockets σ :=
  let s := trade.tick.data.foldl emplaceTrade (getTrades s)
  s.push (.tradeSummary index
    { exchange := env.books.market.exchange
      symbol := Parser.extractSymbol trade.ch
      trades := s.trades
      exchangeTimeUtc := trade.ts
      exchangeSequence := trade.tick.id })

def onDetail (env : SocketsEnv) (index : Nat) (detail : Json.Detail) (s : Sockets σ) : Sockets σ :=
  s.push (.statisticsUpdate index
    { exchange := env.books.market.exchange
      symbol := Parser.extractSymbol detail.ch
      statistics :=
        [⟨.openPrice, detail.tick.open_⟩, ⟨.highestTradedPrice, detail.tick.high⟩,
          ⟨.lowestTradedPrice, detail.tick.low⟩, ⟨.closePrice, detail.tick.close⟩,
          ⟨.tradeVolume, detail.tick.vol⟩]
      updateType := .incremental
      exchangeTimeUtc := detail.ts })

/-- `emplace_back`, of a bid. -/
def emplaceBid (s : Sockets σ) (value : Json.Quotation) : Sockets σ :=
  { s with mbp := { s.mbp with bids := s.mbp.bids ++ [Books.emplaceBack value] } }

/-- `emplace_back`, of an ask. -/
def emplaceAsk (s : Sockets σ) (value : Json.Quotation) : Sockets σ :=
  { s with mbp := { s.mbp with asks := s.mbp.asks ++ [Books.emplaceBack value] } }

def fillMbp (bids asks : List Json.Quotation) (s : Sockets σ) : Sockets σ :=
  asks.foldl emplaceAsk (bids.foldl emplaceBid (getMbp s))

/-- The sequencer is given what is in the buffer. -/
def onMBP (env : SocketsEnv) (index : Nat) (mbp : Json.MBP) (s : Sockets σ) : Sockets σ :=
  let symbol := Parser.extractSymbol mbp.ch
  let s := fillMbp mbp.tick.bids mbp.tick.asks s
  let reply := Sequencer.update s.mbp.bids s.mbp.asks mbp.tick.seqNum mbp.tick.seqNum
    mbp.tick.prevSeqNum (s.books.sequencers symbol)
  { s with
    books := Books.onReply env.books index symbol (Books.updatePublished env.books mbp) reply s.books }

def onMBPSnapshot (env : SocketsEnv) (index : Nat) (mbpSnapshot : Json.MBPSnapshot) (s : Sockets σ) :
    Sockets σ :=
  let symbol := Parser.extractSymbol mbpSnapshot.rep
  let s := fillMbp mbpSnapshot.data.bids mbpSnapshot.data.asks s
  let reply := Sequencer.snapshot s.mbp.bids s.mbp.asks mbpSnapshot.data.seqNum
    (s.books.sequencers symbol)
  { s with
    books := Books.onReply env.books index symbol (Books.snapshotPublished env.books mbpSnapshot) reply
      s.books }

/-- A message that has been read, and what its handler does. -/
def withMessage {α : Type} (read : Except Exn α) (f : α → Sockets σ → Sockets σ) (s : Sockets σ) :
    Outcome Exn (Sockets σ) :=
  match read with
  | .error e => .throws e s
  | .ok value => .ok (f value s)

/-- The overloads of `MarketData`. -/
def MarketData.onMessage (env : SocketsEnv) (index : Nat) (members : Json.Members)
    (message : Json.Message) (s : Sockets σ) : Outcome Exn (Sockets σ) :=
  match message with
  | .req _ => .fatal s
  | .ping ts => .ok (sendPong .marketData index ts s)
  | .ping2 ping => .ok (sendPong .marketData index ping s)
  | .error | .error2 | .sub _ | .subbed => .ok s
  | .bbo => withMessage (env.bbo members) (onBBO env index) s
  | .trade => withMessage (env.trade members) (onTrade env index) s
  | .detail => withMessage (env.detail members) (onDetail env index) s
  | .ticker => .ok s
  | .mbp | .mbpSnapshot | .accounts _ | .orders | .clearing => .fatal s

/-- The overloads of `MBPFeed`. -/
def MBPFeed.onMessage (env : SocketsEnv) (index : Nat) (members : Json.Members)
    (message : Json.Message) (s : Sockets σ) : Outcome Exn (Sockets σ) :=
  match message with
  | .req _ => .fatal s
  | .ping ts => .ok (sendPong .mbpFeed index ts s)
  | .ping2 ping => .ok (sendPong .mbpFeed index ping s)
  | .error | .error2 | .sub _ | .subbed => .ok s
  | .bbo | .trade | .detail | .ticker => .fatal s
  | .mbp => withMessage (env.mbp members) (onMBP env index) s
  | .mbpSnapshot => withMessage (env.mbpSnapshot members) (onMBPSnapshot env index) s
  | .accounts _ | .orders | .clearing => .fatal s

def onMessage (env : SocketsEnv) (feed : Feed) (index : Nat) (members : Json.Members) :
    Json.Message → Sockets σ → Outcome Exn (Sockets σ) :=
  match feed with
  | .marketData => MarketData.onMessage env index members
  | .mbpFeed => MBPFeed.onMessage env index members

/-- `parse`: an exception terminates the process; a message without a handler is
logged. -/
def parse (env : SocketsEnv) (feed : Feed) (index : Nat) (members : Json.Members) (s : Sockets σ) :
    Sockets σ :=
  match (env.parser.dispatch env.allowUnknownEventTypes (onMessage env feed index members) members s :
      Outcome Exn (Bool × Sockets σ)) with
  | .ok (_, s) => s
  | .throws _ (_, s) | .fatal (_, s) => { s with halted := true }

/-! ## Machine -/

/-- What an event does. A message is received by a stream that has been created. -/
def handle (env : SocketsEnv) (s : Sockets σ) : SocketsEvent → Option (Sockets σ)
  | .binary feed index payload =>
    if index < (s.books.market.feeds feed).length then
      match payload with
      | some members => some (parse env feed index members s)
      | none => some { s with halted := true }
    else none
  | .text feed index =>
    if index < (s.books.market.feeds feed).length then some { s with halted := true } else none
  | .books e =>
    if e.isMessage then none
    else (Books.step env.books s.books e).map fun books => { s with books }

def step (env : SocketsEnv) (s : Sockets σ) (e : SocketsEvent) : Option (Sockets σ) :=
  if s.halted || s.books.halted || s.books.market.halted then none else handle env s e

end Sockets

/-- The market data of a gateway, with its sockets. -/
def sockets (σ : Type) [Sequencer σ MBPUpdate] (env : SocketsEnv) : Machine (Sockets σ) SocketsEvent where
  init := Sockets.init env
  step := Sockets.step env

end RoqHtx

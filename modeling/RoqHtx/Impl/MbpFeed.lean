import Mathlib.Logic.Function.Basic
import RoqHtx.Framework.Sequencer
import RoqHtx.Impl.Channel
import RoqHtx.Impl.MarketSystem

/-!
# The books of the market data

What `MBPFeed` makes of an update and of a snapshot of a book: it hands them to
the sequencer of the symbol, publishes what that gives back, and requests the
snapshots that it asks for. `Books` is the state of the market data together with
these sequencers, `books` the machine; what a stream is sent besides is an event
of the market data.
-/

namespace RoqHtx

/-! ## Messages -/

namespace Json

structure Quotation where
  price : Double
  vol : Double

structure MBPTick where
  seqNum : UInt64
  prevSeqNum : UInt64
  bids : List Quotation
  asks : List Quotation

structure MBP where
  ch : String
  ts : Int
  tick : MBPTick

structure MBPSnapshotData where
  seqNum : UInt64
  bids : List Quotation
  asks : List Quotation

structure MBPSnapshot where
  rep : String
  data : MBPSnapshotData

end Json

/-- A level of a book. -/
structure MBPUpdate where
  price : Double
  quantity : Double
  deriving DecidableEq

structure MarketByPriceUpdate where
  exchange : String
  symbol : String
  bids : List MBPUpdate
  asks : List MBPUpdate
  updateType : UpdateType
  exchangeTimeUtc : Int
  exchangeSequence : UInt64

/-! ## State -/

structure BooksEnv where
  market : MarketEnv
  mbpRequestMaxRetries : UInt32

structure Books (σ : Type) where
  market : Market
  /-- `Shared::mbp_sequencer`: of every symbol, as it is when it is first used. -/
  sequencers : String → σ
  /-- By which stream, newest first. -/
  published : List (Nat × MarketByPriceUpdate)
  /-- A handler has thrown, and the process has terminated. -/
  halted : Bool

inductive BooksEvent where
  | market (e : MarketEvent)
  | mbp (index : Nat) (mbp : Json.MBP)
  | mbpSnapshot (index : Nat) (mbpSnapshot : Json.MBPSnapshot)

namespace Books

open Sequencer (Call Reply)

variable {σ : Type} [Sequencer σ MBPUpdate]

def init (env : BooksEnv) : Books σ where
  market := Market.init env.market
  sequencers := fun _ => Sequencer.init
  published := []
  halted := false

/-! ## Handlers -/

def emplaceBack (value : Json.Quotation) : MBPUpdate := ⟨value.price, value.vol⟩

def publish (index : Nat) (update : MarketByPriceUpdate) (s : Books σ) : Books σ :=
  { s with published := (index, update) :: s.published }

/-- `request`. -/
def request (index : Nat) (symbol : String) (s : Books σ) : Books σ :=
  { s with market := Feed.request index symbol s.market }

/-- `request_snapshot`. Past the limit it logs only: the `retries = {}` in the
message sets the callback's own copy. -/
def requestSnapshot (env : BooksEnv) (index : Nat) (symbol : String) (retries : Nat)
    (s : Books σ) : Books σ :=
  if env.mbpRequestMaxRetries.toNat < retries then s else request index symbol s

/-- A callback of the sequencer; `published` is what a handler's callbacks publish. -/
def onCall (env : BooksEnv) (index : Nat) (symbol : String)
    (published : Call MBPUpdate → Option MarketByPriceUpdate) (s : Books σ) :
    Call MBPUpdate → Books σ
  | .requestSnapshot retries => requestSnapshot env index symbol retries s
  | call => (published call).elim s fun update => publish index update s

def setSequencer (symbol : String) (sequencer : σ) (s : Books σ) : Books σ :=
  { s with sequencers := Function.update s.sequencers symbol sequencer }

/-- How a handler ends: a `BadState` is caught, anything else is not. -/
def onEnding (index : Nat) (symbol : String) (reply : Reply σ MBPUpdate) (s : Books σ) : Books σ :=
  match reply.ending with
  | .returned => s
  | .badState => request index symbol (setSequencer symbol (Sequencer.clear reply.state) s)
  | .threw => { s with halted := true }

/-- What a handler does with its sequencer's reply. -/
def onReply (env : BooksEnv) (index : Nat) (symbol : String)
    (published : Call MBPUpdate → Option MarketByPriceUpdate) (reply : Reply σ MBPUpdate)
    (s : Books σ) : Books σ :=
  onEnding index symbol reply
    (reply.calls.foldl (onCall env index symbol published) (setSequencer symbol reply.state s))

/-- The `publish_update` and `publish_snapshot` of an update. -/
def updatePublished (env : BooksEnv) (mbp : Json.MBP) : Call MBPUpdate → Option MarketByPriceUpdate
  | .publishUpdate bids asks =>
    some ⟨env.market.exchange, Parser.extractSymbol mbp.ch, bids, asks, .incremental, mbp.ts,
      mbp.tick.seqNum⟩
  | .publishSnapshot bids asks _ lastSequence =>
    some ⟨env.market.exchange, Parser.extractSymbol mbp.ch, bids, asks, .snapshot, mbp.ts,
      lastSequence⟩
  | .requestSnapshot _ => none

def updateReply (mbp : Json.MBP) (s : Books σ) : Reply σ MBPUpdate :=
  Sequencer.update (mbp.tick.bids.map emplaceBack) (mbp.tick.asks.map emplaceBack) mbp.tick.seqNum
    mbp.tick.seqNum mbp.tick.prevSeqNum (s.sequencers (Parser.extractSymbol mbp.ch))

def onMBP (env : BooksEnv) (index : Nat) (mbp : Json.MBP) (s : Books σ) : Books σ :=
  onReply env index (Parser.extractSymbol mbp.ch) (updatePublished env mbp) (updateReply mbp s) s

/-- The `publish_snapshot` of a snapshot; it has no `publish_update`. -/
def snapshotPublished (env : BooksEnv) (mbpSnapshot : Json.MBPSnapshot) :
    Call MBPUpdate → Option MarketByPriceUpdate
  | .publishSnapshot bids asks _ lastSequence =>
    some ⟨env.market.exchange, Parser.extractSymbol mbpSnapshot.rep, bids, asks, .snapshot, 0,
      lastSequence⟩
  | .publishUpdate _ _ | .requestSnapshot _ => none

def snapshotReply (mbpSnapshot : Json.MBPSnapshot) (s : Books σ) : Reply σ MBPUpdate :=
  Sequencer.snapshot (mbpSnapshot.data.bids.map emplaceBack)
    (mbpSnapshot.data.asks.map emplaceBack) mbpSnapshot.data.seqNum
    (s.sequencers (Parser.extractSymbol mbpSnapshot.rep))

def onMBPSnapshot (env : BooksEnv) (index : Nat) (mbpSnapshot : Json.MBPSnapshot) (s : Books σ) :
    Books σ :=
  onReply env index (Parser.extractSymbol mbpSnapshot.rep) (snapshotPublished env mbpSnapshot)
    (snapshotReply mbpSnapshot s) s

/-! ## Machine -/

def handle (env : BooksEnv) (s : Books σ) : BooksEvent → Option (Books σ)
  | .market (.requestSnapshot _ _) => none -- that is for the sequencers
  | .market e => (Market.step env.market s.market e).map fun m => { s with market := m }
  | .mbp index mbp =>
    if index < s.market.mbpFeed.length then some (onMBP env index mbp s) else none
  | .mbpSnapshot index mbpSnapshot =>
    if index < s.market.mbpFeed.length then some (onMBPSnapshot env index mbpSnapshot s) else none

def step (env : BooksEnv) (s : Books σ) (e : BooksEvent) : Option (Books σ) :=
  if s.halted || s.market.halted then none else handle env s e

end Books

/-- The books of a gateway. -/
def books (σ : Type) [Sequencer σ MBPUpdate] (env : BooksEnv) : Machine (Books σ) BooksEvent where
  init := Books.init env
  step := Books.step env

end RoqHtx

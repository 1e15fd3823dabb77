import RoqHtx.Impl.MbpFeed

/-!
# The book of one symbol

What the books of the market data are meant to be: one for each symbol, by itself.
A `Book` is told of the updates and the snapshots of its symbol, and keeps what
has been published and at which streams a snapshot has been requested. Nothing
else makes a difference to it: no other symbol, and nothing that happens to the
streams.
-/

namespace RoqHtx

structure Book (σ : Type) where
  sequencer : σ
  /-- By which stream, newest first. -/
  published : List (Nat × MarketByPriceUpdate)
  /-- At which stream, newest first. -/
  requested : List Nat

inductive BookEvent where
  | update (index : Nat) (mbp : Json.MBP)
  | snapshot (index : Nat) (mbpSnapshot : Json.MBPSnapshot)

namespace Book

open Sequencer (Call Reply)

variable {σ : Type} [Sequencer σ MBPUpdate]

def init : Book σ := ⟨Sequencer.init, [], []⟩

def publish (index : Nat) (update : MarketByPriceUpdate) (b : Book σ) : Book σ :=
  { b with published := (index, update) :: b.published }

def request (index : Nat) (b : Book σ) : Book σ := { b with requested := index :: b.requested }

def onCall (env : BooksEnv) (index : Nat) (published : Call MBPUpdate → Option MarketByPriceUpdate)
    (b : Book σ) : Call MBPUpdate → Book σ
  | .requestSnapshot retries => if env.mbpRequestMaxRetries.toNat < retries then b else request index b
  | call => (published call).elim b fun update => publish index update b

def onEnding (index : Nat) (reply : Reply σ MBPUpdate) (b : Book σ) : Book σ :=
  match reply.ending with
  | .returned | .threw => b
  | .badState => request index { b with sequencer := Sequencer.clear reply.state }

def onReply (env : BooksEnv) (index : Nat) (published : Call MBPUpdate → Option MarketByPriceUpdate)
    (reply : Reply σ MBPUpdate) (b : Book σ) : Book σ :=
  onEnding index reply
    (reply.calls.foldl (onCall env index published) { b with sequencer := reply.state })

def onUpdate (env : BooksEnv) (index : Nat) (mbp : Json.MBP) (b : Book σ) : Book σ :=
  onReply env index (Books.updatePublished env mbp)
    (Sequencer.update (mbp.tick.bids.map Books.emplaceBack) (mbp.tick.asks.map Books.emplaceBack)
      mbp.tick.seqNum mbp.tick.seqNum mbp.tick.prevSeqNum b.sequencer) b

def onSnapshot (env : BooksEnv) (index : Nat) (mbpSnapshot : Json.MBPSnapshot) (b : Book σ) : Book σ :=
  onReply env index (Books.snapshotPublished env mbpSnapshot)
    (Sequencer.snapshot (mbpSnapshot.data.bids.map Books.emplaceBack)
      (mbpSnapshot.data.asks.map Books.emplaceBack) mbpSnapshot.data.seqNum b.sequencer) b

def step (env : BooksEnv) (b : Book σ) : BookEvent → Option (Book σ)
  | .update index mbp => some (onUpdate env index mbp b)
  | .snapshot index mbpSnapshot => some (onSnapshot env index mbpSnapshot b)

end Book

/-- The book of a symbol, which can always be told of anything. -/
def book (σ : Type) [Sequencer σ MBPUpdate] (env : BooksEnv) : Machine (Book σ) BookEvent where
  init := Book.init
  step := Book.step env

end RoqHtx

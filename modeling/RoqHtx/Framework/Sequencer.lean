import Mathlib.Logic.Basic

/-!
# Sequencers

A sequencer puts the updates of one book in order. It is told of an update or of
a snapshot, and calls back: to publish, or to ask for a snapshot (`Call`). A
sequence that does not fit together makes it throw (`Ending.badState`), after
which it can be cleared. `Sequencer` is what may be relied on: with each request
it passes on how many requests it has made in a row, that is, since it accepted
a snapshot or was cleared.
-/

namespace RoqHtx

namespace Sequencer

/-- What a sequencer of levels `α` calls back. -/
inductive Call (α : Type) where
  | publishUpdate (bids asks : List α)
  /-- A snapshot has been accepted. -/
  | publishSnapshot (bids asks : List α) (sequence lastSequence : UInt64)
  | requestSnapshot (retries : Nat)
  deriving DecidableEq

/-- What a request passes on. -/
def Call.retries {α : Type} : Call α → Option Nat
  | .requestSnapshot retries => some retries
  | .publishUpdate _ _ | .publishSnapshot _ _ _ _ => none

inductive Ending where
  | returned
  /-- `BadState`. -/
  | badState
  /-- Any other exception. -/
  | threw
  deriving DecidableEq

/-- What a sequencer makes of an update or a snapshot. -/
structure Reply (σ α : Type) where
  calls : List (Call α)
  ending : Ending
  state : σ

/-- Some requests in a row, `n` of them before the calls and `n'` after them: each
one passes on how many there were before it. -/
inductive Counted {α : Type} : Nat → List (Call α) → Nat → Prop where
  | nil (n : Nat) : Counted n [] n
  | publishUpdate {n n' : Nat} {calls : List (Call α)} (bids asks : List α) :
      Counted n calls n' → Counted n (.publishUpdate bids asks :: calls) n'
  | publishSnapshot {n n' : Nat} {calls : List (Call α)} (bids asks : List α)
      (sequence lastSequence : UInt64) :
      Counted 0 calls n' → Counted n (.publishSnapshot bids asks sequence lastSequence :: calls) n'
  | requestSnapshot {n n' : Nat} {calls : List (Call α)} :
      Counted (n + 1) calls n' → Counted n (.requestSnapshot n :: calls) n'

end Sequencer

/-- A sequencer with states `σ`, of levels `α`. -/
class Sequencer (σ : Type) (α : outParam Type) where
  init : σ
  update (bids asks : List α) (first last previous : UInt64) (s : σ) : Sequencer.Reply σ α
  snapshot (bids asks : List α) (sequence : UInt64) (s : σ) : Sequencer.Reply σ α
  clear (s : σ) : σ
  /-- How many requests have been made in a row. -/
  requests : σ → Nat
  requests_init : requests init = 0
  requests_clear (s : σ) : requests (clear s) = 0
  counted_update (bids asks : List α) (first last previous : UInt64) (s : σ) :
    Sequencer.Counted (requests s) (update bids asks first last previous s).calls
      (requests (update bids asks first last previous s).state)
  counted_snapshot (bids asks : List α) (sequence : UInt64) (s : σ) :
    Sequencer.Counted (requests s) (snapshot bids asks sequence s).calls
      (requests (snapshot bids asks sequence s).state)

namespace Sequencer

variable {σ α : Type} {n n' : Nat} {calls : List (Call α)}

/-- Every request is made while there are fewer than `max` in a row. -/
def Call.Within (max : Nat) (calls : List (Call α)) : Prop :=
  ∀ retries ∈ calls.filterMap Call.retries, retries < max

instance (max : Nat) (calls : List (Call α)) : Decidable (Call.Within max calls) :=
  inferInstanceAs (Decidable (∀ retries ∈ _, _))

/-- There are then no more than `max` of them afterwards. -/
theorem Counted.le {max : Nat} (h : Counted n calls n') (hn : n ≤ max)
    (hcalls : Call.Within max calls) : n' ≤ max := by
  induction h with
  | nil n => exact hn
  | publishUpdate bids asks _ ih => exact ih hn hcalls
  | publishSnapshot bids asks sequence last _ ih => exact ih (Nat.zero_le max) hcalls
  | requestSnapshot _ ih =>
    have := hcalls _ List.mem_cons_self
    exact ih this fun retries hmem => hcalls retries (List.mem_cons_of_mem _ hmem)

/-- The first request passes on no more than there were before. -/
theorem Counted.first_le (h : Counted n calls n') {retries : Nat}
    (hfirst : (calls.filterMap Call.retries).head? = some retries) : retries ≤ n := by
  induction h with
  | nil n => cases hfirst
  | publishUpdate bids asks _ ih => exact ih hfirst
  | publishSnapshot bids asks sequence last _ ih => exact Nat.le_trans (ih hfirst) (Nat.zero_le _)
  | requestSnapshot _ _ => exact Nat.le_of_eq (Option.some.inj hfirst).symm

end Sequencer

end RoqHtx

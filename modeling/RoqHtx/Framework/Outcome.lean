import Mathlib.Logic.Basic

/-!
# How a piece of a program ends

A piece of a program that works on a state `σ` either returns, throws an
exception `ε`, or terminates the process; each leaves the state as it was at
that moment (`Outcome.state`), so that what a handler had changed before it
threw is not undone. `Outcome.bind` is sequencing, and `state_bind` the rule by
which a property kept by both pieces is kept by the sequence. `Outcome.Ends` tells
a return from the other two ends.
-/

namespace RoqHtx

inductive Outcome (ε σ : Type) where
  | ok (s : σ)
  | throws (e : ε) (s : σ)
  | fatal (s : σ)
  deriving DecidableEq

namespace Outcome

variable {ε σ τ : Type}

def state : Outcome ε σ → σ
  | ok s | throws _ s | fatal s => s

@[simp] theorem state_ok (s : σ) : (ok s : Outcome ε σ).state = s := rfl
@[simp] theorem state_throws (e : ε) (s : σ) : (throws e s).state = s := rfl
@[simp] theorem state_fatal (s : σ) : (fatal s : Outcome ε σ).state = s := rfl

/-- Sequencing: the second piece runs only if the first one returned. -/
def bind (o : Outcome ε σ) (f : σ → Outcome ε σ) : Outcome ε σ :=
  match o with
  | ok s => f s
  | throws e s => throws e s
  | fatal s => fatal s

@[simp] theorem ok_bind (s : σ) (f : σ → Outcome ε σ) : (ok s).bind f = f s := rfl

@[simp] theorem bind_ok (o : Outcome ε σ) : o.bind ok = o := by cases o <;> rfl

/-- A sequence runs its second piece, or ends where the first one does. -/
theorem bind_cases (o : Outcome ε σ) (f : σ → Outcome ε σ) :
    (∃ s, o = ok s ∧ o.bind f = f s) ∨ (o.bind f).state = o.state := by
  cases o with
  | ok s => exact .inl ⟨s, rfl, rfl⟩
  | throws e s => exact .inr rfl
  | fatal s => exact .inr rfl

/-- A property of states that the first piece establishes and the second keeps
holds where the sequence ends. -/
theorem state_bind {P : σ → Prop} {o : Outcome ε σ} {f : σ → Outcome ε σ} (ho : P o.state)
    (hf : ∀ s, P s → P (f s).state) : P (o.bind f).state := by
  cases o with
  | ok s => exact hf s ho
  | throws e s => exact ho
  | fatal s => exact ho

def map (f : σ → τ) : Outcome ε σ → Outcome ε τ
  | ok s => ok (f s)
  | throws e s => throws e (f s)
  | fatal s => fatal (f s)

def returns : Outcome ε σ → Bool
  | ok _ => true
  | throws _ _ | fatal _ => false

/-- The piece returns in a state in `P`, or else ends in one in `Q`. -/
def Ends (P Q : σ → Prop) : Outcome ε σ → Prop
  | ok s => P s
  | throws _ s | fatal s => Q s

section Ends

variable {P P' Q : σ → Prop} {o : Outcome ε σ}

theorem Ends.bind {f : σ → Outcome ε σ} (ho : o.Ends P Q) (hf : ∀ s, P s → (f s).Ends P' Q) :
    (o.bind f).Ends P' Q := by
  cases o with
  | ok s => exact hf s ho
  | throws e s => exact ho
  | fatal s => exact ho

theorem Ends.mono {Q' : σ → Prop} (ho : o.Ends P Q) (hP : ∀ s, P s → P' s) (hQ : ∀ s, Q s → Q' s) :
    o.Ends P' Q' := by
  cases o with
  | ok s => exact hP s ho
  | throws e s => exact hQ s ho
  | fatal s => exact hQ s ho

theorem Ends.state (ho : o.Ends P Q) (hPQ : ∀ s, P s → Q s) : Q o.state := by
  cases o with
  | ok s => exact hPQ s ho
  | throws e s => exact ho
  | fatal s => exact ho

end Ends

@[simp] theorem state_map (f : σ → τ) (o : Outcome ε σ) : (o.map f).state = f o.state := by
  cases o <;> rfl

@[simp] theorem returns_map (f : σ → τ) (o : Outcome ε σ) : (o.map f).returns = o.returns := by
  cases o <;> rfl

/-- What can be seen of a sequence, if that much of both pieces can be seen. -/
theorem map_bind {f : σ → τ} {o : Outcome ε σ} {o' : Outcome ε τ} {next : σ → Outcome ε σ}
    {next' : τ → Outcome ε τ} (ho : o.map f = o') (hnext : ∀ s, (next s).map f = next' (f s)) :
    (o.bind next).map f = o'.bind next' := by
  subst ho
  cases o with
  | ok s => exact hnext s
  | throws e s => rfl
  | fatal s => rfl

end Outcome

end RoqHtx

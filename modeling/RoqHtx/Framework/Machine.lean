import Mathlib.Data.List.Basic

/-!
# Machines, runs and histories

A machine takes one event at a time (`Machine.step`); its runs are all the
orders in which events can occur. `Machine.Reach C` are the states at the end
of a run whose every step meets `C`, and `Machine.Reachable` those at the end
of any run. `Reach.invariant` is the one induction over runs: what holds
initially and is kept by every step that meets `C` holds at the end.

A state may carry its own history, newest entry first. `Always P` says of a
history that every entry satisfies `P` together with the entries before it,
and `since p` is the part of a history after its latest entry that satisfies
`p`. Nothing here depends on what the machine is.
-/

namespace RoqHtx

/-- A machine with states `σ`, driven by events `ε`. `step` is undefined where
the event cannot occur. -/
structure Machine (σ ε : Type) where
  init : σ
  step : σ → ε → Option σ

namespace Machine

variable {σ ε : Type} {M : Machine σ ε} {C D : σ → ε → Prop}

/-- The states at the end of the runs whose every step meets `C`. -/
inductive Reach (M : Machine σ ε) (C : σ → ε → Prop) : σ → Prop where
  | init : Reach M C M.init
  | step {s s' : σ} {e : ε} : Reach M C s → C s e → M.step s e = some s' → Reach M C s'

/-- The states at the end of any run. -/
abbrev Reachable (M : Machine σ ε) : σ → Prop := M.Reach fun _ _ => True

theorem Reach.mono {s : σ} (h : M.Reach C s) (hCD : ∀ s e, C s e → D s e) : M.Reach D s := by
  induction h with
  | init => exact .init
  | step _ hc hs ih => exact .step ih (hCD _ _ hc) hs

theorem Reach.reachable {s : σ} (h : M.Reach C s) : M.Reachable s := h.mono fun _ _ _ => trivial

/-- What holds initially and is kept by every step that meets `C` holds at the
end of every run of such steps. -/
theorem Reach.invariant {I : σ → Prop} (hinit : I M.init)
    (hstep : ∀ s e s', I s → C s e → M.step s e = some s' → I s') {s : σ} (h : M.Reach C s) :
    I s := by
  induction h with
  | init => exact hinit
  | step _ hc hs ih => exact hstep _ _ _ ih hc hs

/-- `invariant`, where the step may also use an invariant known already. -/
theorem Reach.invariant_of {I J : σ → Prop} (hJ : ∀ s, M.Reach C s → J s) (hinit : I M.init)
    (hstep : ∀ s e s', J s → I s → C s e → M.step s e = some s' → I s') {s : σ}
    (h : M.Reach C s) : I s := by
  induction h with
  | init => exact hinit
  | step hr hc hs ih => exact hstep _ _ _ (hJ _ hr) ih hc hs

/-- The state after a list of events, if every one of them can occur and meets
`C`. -/
def run (M : Machine σ ε) (C : σ → ε → Prop) [∀ s e, Decidable (C s e)] : σ → List ε → Option σ
  | s, [] => some s
  | s, e :: es => if C s e then (M.step s e).bind fun s' => M.run C s' es else none

variable [∀ s e, Decidable (C s e)]

theorem Reach.run {es : List ε} {s s' : σ} (h : M.Reach C s) (hs : M.run C s es = some s') :
    M.Reach C s' := by
  induction es generalizing s with
  | nil =>
    simp only [Machine.run, Option.some.injEq] at hs
    exact hs ▸ h
  | cons e es ih =>
    rw [Machine.run] at hs
    split at hs
    · rename_i hc
      obtain ⟨t, ht, hs⟩ := Option.bind_eq_some_iff.mp hs
      exact ih (.step h hc ht) hs
    · cases hs

/-- A run that can be computed shows that a state is reached. -/
theorem exists_reach {P : σ → Prop} [DecidablePred P] (es : List ε)
    (h : (M.run C M.init es).any (fun s => P s) = true) : ∃ s, M.Reach C s ∧ P s := by
  cases hr : M.run C M.init es with
  | none => simp [hr] at h
  | some s => exact ⟨s, Reach.init.run hr, by simpa [hr] using h⟩

end Machine

/-! ## Histories -/

section History

variable {α : Type} {P : List α → α → Prop} {p : α → Bool}

/-- Every entry of a history (newest first) satisfies `P`, given the entries
before it. -/
def Always (P : List α → α → Prop) : List α → Prop
  | [] => True
  | x :: l => P l x ∧ Always P l

@[simp] theorem always_nil : Always P [] := trivial

instance decidableAlways [∀ l x, Decidable (P l x)] : ∀ l : List α, Decidable (Always P l)
  | [] => .isTrue trivial
  | x :: l =>
    have : Decidable (Always P l) := decidableAlways l
    inferInstanceAs (Decidable (P l x ∧ Always P l))

@[simp] theorem always_cons {x : α} {l : List α} : Always P (x :: l) ↔ P l x ∧ Always P l := Iff.rfl

/-- The part of a history up to some time is as the whole. -/
theorem Always.of_append {l : List α} : ∀ {new : List α}, Always P (new ++ l) → Always P l
  | [], h => h
  | _ :: _, h => Always.of_append h.2

/-- `Always P` is kept by new entries in `Q` if an entry in `Q` satisfies `P`
after any others. -/
theorem Always.append {Q : α → Prop} {l : List α} (hl : Always P l)
    (hQ : ∀ x pre, Q x → (∀ y ∈ pre, Q y) → P (pre ++ l) x) :
    ∀ {new : List α}, (∀ x ∈ new, Q x) → Always P (new ++ l)
  | [], _ => hl
  | x :: new, h =>
    have hnew : ∀ y ∈ new, Q y := fun y hy => h y (List.mem_cons_of_mem x hy)
    ⟨hQ x new (h x List.mem_cons_self) hnew, hl.append hQ hnew⟩

/-- The entries after the latest one that satisfies `p`. -/
def since (p : α → Bool) (l : List α) : List α := l.takeWhile fun x => !p x

theorem since_cons_neg {x : α} {l : List α} (h : p x = false) :
    since p (x :: l) = x :: since p l := by
  simp [since, h]

/-- New entries, none of which satisfies `p`, extend what came since. -/
theorem since_append {l : List α} :
    ∀ {new : List α}, (∀ x ∈ new, p x = false) → since p (new ++ l) = new ++ since p l
  | [], _ => rfl
  | x :: new, h => by
    rw [List.cons_append, since_cons_neg (h x List.mem_cons_self),
      since_append fun y hy => h y (List.mem_cons_of_mem x hy), List.cons_append]

/-- What the entries say that came since, in order. -/
theorem reverse_filterMap_since_cons {β : Type} (f : α → Option β) {x : α} {l : List α}
    (h : p x = false) :
    ((since p (x :: l)).filterMap f).reverse =
      ((since p l).filterMap f).reverse ++ (f x).toList := by
  rw [since_cons_neg h]
  cases hx : f x with
  | none => rw [List.filterMap_cons_none hx, Option.toList_none, List.append_nil]
  | some b => rw [List.filterMap_cons_some hx, List.reverse_cons, Option.toList_some]

/-- What came since `p` came since `q`, if no `q` came since `p`. -/
theorem mem_since_of_mem_since {q : α → Bool} :
    ∀ {l : List α}, (∀ x ∈ since p l, q x = false) → ∀ x ∈ since p l, x ∈ since q l
  | [], _, _, hx => hx
  | y :: l, h, x, hx => by
    cases hy : p y with
    | true =>
      rw [since, List.takeWhile_cons, hy] at hx
      cases hx
    | false =>
      rw [since_cons_neg hy] at h hx
      rw [since_cons_neg (h y List.mem_cons_self)]
      rcases List.mem_cons.mp hx with rfl | hx
      · exact List.mem_cons_self
      · exact List.mem_cons_of_mem y
          (mem_since_of_mem_since (fun z hz => h z (List.mem_cons_of_mem y hz)) x hx)

end History

end RoqHtx

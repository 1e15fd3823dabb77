import RoqHtx.Framework.Machine

/-!
# Simulations and components

A machine may be a part of another one, or an abstraction of it: `f` is what the
state of the whole says of the part. If every step of the whole is a run of the
part (`Machine.Steps`), then whatever the whole reaches, the part reaches
(`Reach.part`). If moreover every event of the whole says which events of the
part it consists of, then the part of a run is the run of those events
(`runAll_part`), whatever else the whole has done. `Machine.Leads` says where a run
of some events can lead.
-/

namespace RoqHtx

namespace Machine

variable {σ τ ε δ : Type} {M : Machine σ ε} {N : Machine τ δ} {C : σ → ε → Prop} {D : τ → δ → Prop}

/-! ## Runs of some steps -/

/-- The states at the end of the runs from `s` whose every step meets `C`. -/
inductive Steps (M : Machine σ ε) (C : σ → ε → Prop) (s : σ) : σ → Prop where
  | refl : Steps M C s s
  | tail {t t' : σ} {e : ε} : Steps M C s t → C t e → M.step t e = some t' → Steps M C s t'

theorem Steps.single {s s' : σ} {e : ε} (hc : C s e) (h : M.step s e = some s') : M.Steps C s s' :=
  .tail .refl hc h

theorem Steps.trans {s t u : σ} (h : M.Steps C s t) (h' : M.Steps C t u) : M.Steps C s u := by
  induction h' with
  | refl => exact h
  | tail _ hc hs ih => exact ih.tail hc hs

theorem Reach.steps {s t : σ} (h : M.Reach C s) (h' : M.Steps C s t) : M.Reach C t := by
  induction h' with
  | refl => exact h
  | tail _ hc hs ih => exact .step ih hc hs

/-- What the whole reaches, the part reaches. -/
theorem Reach.part {f : τ → σ} (hinit : f N.init = M.init)
    (hstep : ∀ t d t', N.Reach D t → D t d → N.step t d = some t' → M.Steps C (f t) (f t'))
    {t : τ} (h : N.Reach D t) : M.Reach C (f t) := by
  induction h with
  | init => exact hinit ▸ .init
  | step hr hd hs ih => exact ih.steps (hstep _ _ _ hr hd hs)

/-! ## Runs of given events -/

/-- The state after a list of events, if every one of them can occur. -/
def runAll (M : Machine σ ε) : σ → List ε → Option σ
  | s, [] => some s
  | s, e :: es => (M.step s e).bind fun s' => M.runAll s' es

@[simp] theorem runAll_nil (s : σ) : M.runAll s [] = some s := rfl

theorem runAll_cons (s : σ) (e : ε) (es : List ε) :
    M.runAll s (e :: es) = (M.step s e).bind fun s' => M.runAll s' es := rfl

theorem runAll_singleton (s : σ) (e : ε) : M.runAll s [e] = M.step s e := by
  rw [runAll_cons]
  exact Option.bind_fun_some (M.step s e)

theorem runAll_append (s : σ) (es es' : List ε) :
    M.runAll s (es ++ es') = (M.runAll s es).bind fun t => M.runAll t es' := by
  induction es generalizing s with
  | nil => rfl
  | cons e es ih =>
    rw [List.cons_append, runAll_cons, runAll_cons, Option.bind_assoc]
    exact congrArg _ (funext ih)

/-- A run whose every step meets `C` is a run. -/
theorem runAll_of_run {C : σ → ε → Prop} [∀ s e, Decidable (C s e)] {s s' : σ} {es : List ε}
    (h : M.run C s es = some s') : M.runAll s es = some s' := by
  induction es generalizing s with
  | nil => exact h
  | cons e es ih =>
    rw [run] at h
    split at h
    · obtain ⟨t, ht, h⟩ := Option.bind_eq_some_iff.mp h
      exact Option.bind_eq_some_iff.mpr ⟨t, ht, ih h⟩
    · cases h

/-- What is so at the end, and was not at the start, has come about at some step. -/
theorem exists_step {P : σ → Prop} {s s' : σ} {es : List ε} (h : M.runAll s es = some s')
    (hs : ¬P s) (hs' : P s') : ∃ es₁ e es₂ t t', es = es₁ ++ e :: es₂ ∧ M.runAll s es₁ = some t ∧
      M.step t e = some t' ∧ ¬P t ∧ P t' := by
  induction es generalizing s with
  | nil =>
    cases h
    exact absurd hs' hs
  | cons e es ih =>
    obtain ⟨u, hu, h⟩ := Option.bind_eq_some_iff.mp h
    by_cases hP : P u
    · exact ⟨[], e, es, s, u, rfl, rfl, hu, hs, hP⟩
    · obtain ⟨es₁, e', es₂, t, t', rfl, ht, hstep, hbefore, hafter⟩ := ih h hP
      refine ⟨e :: es₁, e', es₂, t, t', rfl, ?_, hstep, hbefore, hafter⟩
      rw [runAll_cons, hu, Option.bind_some, ht]

theorem Reach.runAll {s s' : σ} {es : List ε} (h : M.Reachable s) (hs : M.runAll s es = some s') :
    M.Reachable s' := by
  induction es generalizing s with
  | nil =>
    cases hs
    exact h
  | cons e es ih =>
    obtain ⟨t, ht, hs⟩ := Option.bind_eq_some_iff.mp hs
    exact ih (.step h trivial ht) hs

/-- What is lost for good is not lost yet, where it is not lost in the end. -/
theorem live_of_runAll {L : σ → Prop} (hlive : ∀ s e s', M.step s e = some s' → L s)
    {s s' : σ} {es : List ε} (h : M.runAll s es = some s') (hs' : L s') : L s := by
  cases es with
  | nil =>
    cases h
    exact hs'
  | cons e es =>
    obtain ⟨t, ht, -⟩ := Option.bind_eq_some_iff.mp h
    exact hlive s e t ht

/-- The part of a run is the run of the part's events. Only steps to live states
count: no step leaves a state that is not live. -/
theorem runAll_part {f : τ → σ} {events : δ → List ε} {L : τ → Prop} {E : δ → Prop}
    (hlive : ∀ t d t', N.step t d = some t' → L t)
    (hstep : ∀ t d t', E d → N.step t d = some t' → L t' →
      M.runAll (f t) (events d) = some (f t'))
    {t t' : τ} {ds : List δ} (hds : ∀ d ∈ ds, E d) (h : N.runAll t ds = some t') (ht' : L t') :
    M.runAll (f t) (ds.flatMap events) = some (f t') := by
  induction ds generalizing t with
  | nil =>
    cases h
    rfl
  | cons d ds ih =>
    obtain ⟨u, hu, h⟩ := Option.bind_eq_some_iff.mp h
    have first := hstep t d u (hds d List.mem_cons_self) hu (live_of_runAll hlive h ht')
    have rest := ih (fun d hd => hds d (List.mem_cons_of_mem _ hd)) h
    rw [List.flatMap_cons, runAll_append, first, Option.bind_some, rest]

/-! ## Where a run can lead -/

/-- Some run of no more than `n` events, each of which meets `E`, leads there. -/
def Leads (M : Machine σ ε) (E : ε → Prop) (n : Nat) (s t : σ) : Prop :=
  ∃ es : List ε, es.length ≤ n ∧ (∀ e ∈ es, E e) ∧ M.runAll s es = some t

namespace Leads

variable {E : ε → Prop} {n m : Nat} {s t u : σ}

theorem refl (s : σ) : M.Leads E 0 s s := ⟨[], Nat.le_refl 0, by simp, rfl⟩

theorem step {e : ε} (he : E e) (h : M.step s e = some t) : M.Leads E 1 s t :=
  ⟨[e], Nat.le_refl 1, by simpa using he, by rwa [runAll_singleton]⟩

theorem trans (h : M.Leads E n s t) (h' : M.Leads E m t u) : M.Leads E (n + m) s u := by
  obtain ⟨es, hlength, hes, hrun⟩ := h
  obtain ⟨es', hlength', hes', hrun'⟩ := h'
  refine ⟨es ++ es', ?_, fun e he => ?_, ?_⟩
  · rw [List.length_append]
    omega
  · exact (List.mem_append.mp he).elim (hes e) (hes' e)
  · rw [runAll_append, hrun, Option.bind_some, hrun']

theorem mono (h : M.Leads E n s t) (hnm : n ≤ m) : M.Leads E m s t := by
  obtain ⟨es, hlength, hes, hrun⟩ := h
  exact ⟨es, Nat.le_trans hlength hnm, hes, hrun⟩

/-- A step, and what follows. -/
theorem cons {e : ε} (he : E e) (h : M.step s e = some t) (h' : M.Leads E n t u) :
    M.Leads E (n + 1) s u := Nat.add_comm 1 n ▸ (step he h).trans h'

theorem reachable (h : M.Leads E n s t) (hs : M.Reachable s) : M.Reachable t := by
  obtain ⟨es, -, -, hrun⟩ := h
  exact hs.runAll hrun

theorem imp {E' : ε → Prop} (hE : ∀ e, E e → E' e) (h : M.Leads E n s t) : M.Leads E' n s t := by
  obtain ⟨es, hlength, hes, hrun⟩ := h
  exact ⟨es, hlength, fun e he => hE e (hes e he), hrun⟩

end Leads

end Machine

end RoqHtx

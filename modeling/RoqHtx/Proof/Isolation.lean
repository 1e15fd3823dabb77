import RoqHtx.Proof.Composition

/-!
# No account has a say in another one

Of the events of the gateway, an account sees those that are for it, and the
timers (`ProcessEvent.eventsOf`). As long as the REST clients refuse nothing at a
timer, the state of an account is the one that its own events lead to
(`Process.isolated`). A refusal is what couples the accounts: the exception ends
the timer for all streams behind it.
-/

namespace RoqHtx

variable {ρ σ : Type}

namespace ProcessEvent

/-- What an event is for an account. -/
def eventsOf (name : String) : ProcessEvent → List Event
  | .connection account e => if account = name then [e] else []
  | .createOrder account refuses info create refData requestId =>
    if account = name then [.createOrder refuses info create refData requestId] else []
  | .cancelOrder account refuses info cancel order requestId =>
    if account = name then [.cancelOrder refuses info cancel order requestId] else []
  | .cancelAllOrders account refuses info cancel requestId =>
    if account = name then [.cancelAllOrders refuses info cancel requestId] else []
  | .timer t => [.timer (t.tick name)]
  | .modifyOrder _ | .massQuote | .cancelQuotes | .books _ => []

/-- At a timer, the REST client of no account refuses a request. -/
def Accepted : ProcessEvent → Prop
  | .timer t => ∀ name n, (t.tick name).refuses n = none
  | _ => True

end ProcessEvent

namespace Process

/-! ## Timer -/

/-- A loop over the accounts that returns has gone over each of them by itself. -/
theorem forEach_put {f : String → Gateway ρ → Outcome Exn (Gateway ρ)} :
    ∀ {names : List String} (_ : names.Nodup) {p p' : Process ρ σ},
      forEach (fun name p => p.put name (f name (p.gateways name))) names p = .ok p' → ∀ name,
        if name ∈ names then f name (p.gateways name) = .ok (p'.gateways name)
        else p'.gateways name = p.gateways name
  | [], _, p, p', h, name => by
    cases h
    simp
  | first :: names, hnodup, p, p', h, name => by
    rw [List.nodup_cons] at hnodup
    unfold forEach at h
    cases ho : f first (p.gateways first) with
    | throws e g | fatal g =>
      rw [ho] at h
      cases h
    | ok g =>
      rw [ho] at h
      have rest := forEach_put hnodup.2 h name
      by_cases hname : name = first
      · subst hname
        rw [if_neg hnodup.1, gateways_setGateway_self] at rest
        rw [if_pos List.mem_cons_self, rest, ho]
      · rw [gateways_setGateway_of_ne hname] at rest
        simpa [hname] using rest

variable [LimitRequest ρ] (env : ProcessEnv)

/-- Nothing is refused: every order entry has its timer. -/
theorem forEach_orderEntry {t : Ticks} (ht : ∀ name n, (t.tick name).refuses n = none) :
    ∀ (names : List String) (p : Process ρ σ), ∃ p', forEach (orderEntryTimer env t) names p = .ok p'
  | [], p => ⟨p, rfl⟩
  | name :: names, p => by
    obtain ⟨g, hg⟩ := (OrderEntry.onTimer_runs (env.account name) (t.tick name)
      (p.gateways name)).returns (ht name)
    obtain ⟨p', hp'⟩ := forEach_orderEntry ht names (p.setGateway name g)
    refine ⟨p', ?_⟩
    rw [forEach, orderEntryTimer, hg]
    exact hp'

/-- Every order stream has its timer, or one of them has terminated the process. -/
theorem forEach_dropCopy (t : Ticks) :
    ∀ {names : List String} (_ : ∀ name ∈ names, name ∈ env.accounts) (p : Process ρ σ),
      (∃ p', forEach (dropCopyTimer env t) names p = .ok p') ∨
        ∃ p', forEach (dropCopyTimer env t) names p = .fatal p' ∧ p'.halted env = true
  | [], _, p => .inl ⟨p, rfl⟩
  | name :: names, hnames, p => by
    rw [forEach, dropCopyTimer]
    rcases DropCopy.onTimer_runs (env.account name) (t.tick name) (p.gateways name) with
      ⟨g, ho, -⟩ | ⟨g, ho⟩
    · rw [ho]
      exact forEach_dropCopy t (fun other h => hnames other (List.mem_cons_of_mem _ h)) _
    · rw [ho]
      refine .inr ⟨_, rfl, ?_⟩
      have halts : ((p.setGateway name { g with halted := true }).gateways name).halted = true := by
        rw [gateways_setGateway_self]
      simp only [halted, Bool.or_eq_true, List.any_eq_true]
      exact .inl (.inl ⟨name, hnames name List.mem_cons_self, halts⟩)

variable {env}

/-- The whole of a timer, for an account. -/
theorem onTimer_account {t : Ticks} (ht : ∀ name n, (t.tick name).refuses n = none)
    {p : Process ρ σ} (hlive : (onTimer env t p).state.halted env = false) {name : String}
    (hname : name ∈ env.accounts) :
    (OrderEntry.onTimer (env.account name) (t.tick name) (p.gateways name)).bind
        (DropCopy.onTimer (env.account name) (t.tick name)) =
      .ok ((onTimer env t p).state.gateways name) := by
  obtain ⟨s, hs⟩ := forEach_orderEntry env ht env.orderEntry p
  have first := forEach_put
    (f := fun name => OrderEntry.onTimer (env.account name) (t.tick name))
    (env.orderEntry_perm.nodup_iff.mpr env.nodup) hs name
  rw [if_pos (env.orderEntry_perm.mem_iff.mpr hname)] at first
  unfold onTimer at hlive ⊢
  rw [hs, Outcome.ok_bind] at hlive ⊢
  obtain ⟨s', hs'⟩ | ⟨s', hs', hhalted⟩ := forEach_dropCopy env t
    (fun _ h => env.dropCopy_perm.mem_iff.mp h) s
  · have second := forEach_put
      (f := fun name => DropCopy.onTimer (env.account name) (t.tick name))
      (env.dropCopy_perm.nodup_iff.mpr env.nodup) hs' name
    rw [if_pos (env.dropCopy_perm.mem_iff.mpr hname)] at second
    rw [first, hs', Outcome.ok_bind, Outcome.ok_bind, second]
    rfl
  · rw [hs'] at hlive
    change s'.halted env = false at hlive
    rw [hhalted] at hlive
    cases hlive

/-! ## Steps -/

variable [Sequencer σ MBPUpdate]

/-- A step makes the account's own events happen to the account. -/
theorem step_eventsOf {e : ProcessEvent} (he : e.Accepted) {p p' : Process ρ σ}
    (h : step env p e = some p') (hlive : p'.halted env = false) {name : String}
    (hname : name ∈ env.accounts) :
    (machine ρ (env.account name)).runAll (p.gateways name) (e.eventsOf name) =
      some (p'.gateways name) := by
  obtain ⟨hp, -⟩ := step_follows h
  have hg := (halted_eq_false.mp hp).1 name hname
  unfold step at h
  rw [hp] at h
  obtain ⟨o, ho, rfl⟩ := Option.map_eq_some_iff.mp h
  -- the event of an account happens to this account, and to no other one
  have own : ∀ {account : String} {e : Event} {o : Outcome Exn (Gateway ρ)},
      Gateway.handle (env.account account) (p.gateways account) e = some o →
      (machine ρ (env.account name)).runAll (p.gateways name)
          (if account = name then [e] else []) = some ((p.put account o).state.gateways name) := by
    intro account e o ho
    rw [gateways_put]
    by_cases haccount : account = name
    · subst haccount
      rw [if_pos rfl, if_pos rfl, Machine.runAll_singleton]
      simp [machine, Gateway.step, hg, ho]
    · rw [if_neg haccount, if_neg (Ne.symm haccount)]
      rfl
  have ordered : ∀ {account : String} {e : Event} {o : Outcome Exn (Gateway ρ)}
      {f : Process ρ σ → Outcome Exn (Process ρ σ)}, f p = p.put account o →
      Gateway.handle (env.account account) (p.gateways account) e = some o →
      (machine ρ (env.account name)).runAll (p.gateways name)
          (if account = name then [e] else []) =
        some ((withOrderEntry env account p f).state.gateways name) := by
    intro account e o f hf ho
    unfold withOrderEntry
    by_cases haccount : account ∈ env.accounts
    · rw [if_pos haccount, hf]
      exact own ho
    · have hne : account ≠ name := fun h => haccount (h ▸ hname)
      rw [if_neg haccount, if_neg hne]
      rfl
  cases e with
  | connection account e =>
    simp only [handle, Option.ite_none_right_eq_some] at ho
    obtain ⟨r, hr, rfl⟩ := Option.map_eq_some_iff.mp ho.2
    exact own hr
  | createOrder account refuses info create refData requestId =>
    cases ho
    exact ordered (e := .createOrder refuses info create refData requestId) rfl rfl
  | cancelOrder account refuses info cancel order requestId =>
    cases ho
    exact ordered (e := .cancelOrder refuses info cancel order requestId) rfl rfl
  | cancelAllOrders account refuses info cancel requestId =>
    cases ho
    exact ordered (e := .cancelAllOrders refuses info cancel requestId) rfl rfl
  | modifyOrder account =>
    cases ho
    unfold withOrderEntry
    split <;> rfl
  | massQuote | cancelQuotes =>
    cases ho
    rfl
  | books e =>
    simp only [handle, Option.ite_none_left_eq_some] at ho
    obtain ⟨b, -, rfl⟩ := Option.map_eq_some_iff.mp ho.2
    rfl
  | timer t =>
    cases ho
    have timer := onTimer_account he hlive hname
    show (machine ρ (env.account name)).runAll _ [.timer (t.tick name)] = _
    rw [Machine.runAll_singleton]
    simp [machine, Gateway.step, Gateway.handle, hg, timer, Gateway.finish]

/-- The state of an account is the one that its own events lead to. -/
theorem isolated {es : List ProcessEvent} (hes : ∀ e ∈ es, e.Accepted) {p : Process ρ σ}
    (h : (process ρ σ env).runAll (init env) es = some p) (hlive : p.halted env = false)
    {name : String} (hname : name ∈ env.accounts) :
    (machine ρ (env.account name)).runAll Gateway.init (es.flatMap (ProcessEvent.eventsOf name)) =
      some (p.gateways name) :=
  Machine.runAll_part (f := fun p : Process ρ σ => p.gateways name)
    (L := fun p => p.halted env = false) (fun _ _ _ hs => (step_follows hs).1)
    (fun _ _ _ he hs hlive => step_eventsOf he hs hlive hname) hes h hlive

/-- The first account, beside one that logs in. -/
theorem isolated_two : ∃ p : Process Reader.Flags Reader.Sequence,
    Reader.flags.runAll Gateway.init
        [.restConnected, Reader.create, .timer Reader.tick] = some (p.gateways "A1") ∧
      (p.gateways "A2").inFlight.map InFlight.callback = [.accountsAck] := by
  obtain ⟨p, hp, hlive, hother⟩ : ∃ p, Reader.twoAccounts.runAll (init Reader.processEnv) Reader.together =
      some p ∧ p.halted Reader.processEnv = false ∧
      (p.gateways "A2").inFlight.map InFlight.callback = [.accountsAck] := by
    have computed : (Reader.twoAccounts.runAll (init Reader.processEnv) Reader.together).any (fun p =>
        decide (p.halted Reader.processEnv = false ∧
          (p.gateways "A2").inFlight.map InFlight.callback = [.accountsAck])) = true := by
      decide
    obtain ⟨p, hp, h⟩ := (Option.any_eq_true ..).mp computed
    exact ⟨p, hp, of_decide_eq_true h⟩
  have accepted : ∀ e ∈ Reader.together, e.Accepted := by
    simp [Reader.together, ProcessEvent.Accepted, Reader.ticks, Reader.tick]
  have hname : "A1" ∈ Reader.processEnv.accounts := by decide
  exact ⟨p, isolated accepted hp hlive hname, hother⟩

end Process

end RoqHtx

import RoqHtx.Framework.Simulation
import RoqHtx.Impl.ProcessReader
import RoqHtx.Proof.Books
import RoqHtx.Proof.Steps

/-!
# The accounts by themselves

The gateway as a whole is composed of its accounts and its market data: whatever
it does, each account has made a run of its own, and so have the books and the
market data (`Process.composed`). So what holds on every run of an account, or of
the market data, holds in the gateway.
-/

namespace RoqHtx

open OrderEntry (Tick)

variable {ρ σ : Type}

/-! ## Half a timer -/

namespace OrderEntry

/-- A piece of a timer leaves `halted` as it is, and returns unless the REST client
refuses something. -/
def Runs (t : Tick) (g : Gateway ρ) : Outcome Exn (Gateway ρ) → Prop :=
  Outcome.Ends (fun s => s.halted = g.halted)
    (fun s => s.halted = g.halted ∧ ∃ n, t.refuses n ≠ none)

namespace Runs

variable {t : Tick} {g g' : Gateway ρ} {o : Outcome Exn (Gateway ρ)}

theorem congr (h : Runs t g' o) (hg : g'.halted = g.halted) : Runs t g o := by
  unfold Runs at h ⊢
  rwa [hg] at h

theorem bind {f : Gateway ρ → Outcome Exn (Gateway ρ)} (h : Runs t g o) (hf : ∀ s, Runs t s (f s)) :
    Runs t g (o.bind f) :=
  Outcome.Ends.bind h fun s hs => (hf s).congr hs

/-- Nothing is refused. -/
theorem returns (h : Runs t g o) (ht : ∀ n, t.refuses n = none) : ∃ s, o = .ok s := by
  cases o with
  | ok s => exact ⟨s, rfl⟩
  | throws e s =>
    obtain ⟨-, n, hn⟩ := h
    exact absurd (ht n) hn
  | fatal s =>
    obtain ⟨-, n, hn⟩ := h
    exact absurd (ht n) hn

end Runs

theorem send_runs (t : Tick) (request : RestRequest) (callback : Callback) (requestId : String)
    (cause : Cause) (g : Gateway ρ) : Runs t g (g.send t.refuses request callback requestId cause) := by
  rcases send_cases t.refuses request callback requestId cause g with ⟨e, he, hs⟩ | ⟨-, hs⟩
  · rw [hs]
    exact ⟨rfl, g.nextId, by simp [he]⟩
  · rw [hs]
    exact rfl

theorem getStaleOrders_runs (env : Env) (t : Tick) : ∀ (keys : List Key) (g : Gateway ρ),
    Runs t g (getStaleOrders env t keys g)
  | [], _ => rfl
  | key :: keys, g => by
    unfold getStaleOrders
    split
    · exact (send_runs t _ _ _ _ g).bind fun s => (getStaleOrders_runs env t keys (countUp s)).congr rfl
    · exact getStaleOrders_runs env t keys g

theorem staleOrders_runs (env : Env) (t : Tick) (g : Gateway ρ) : Runs t g (staleOrders env t g) :=
  ((getStaleOrders_runs env t _ _).congr rfl).bind fun _ => rfl

variable [LimitRequest ρ]

theorem checkPending_runs {t : Tick} {w : Which} {callback : Gateway ρ → Outcome Exn (Gateway ρ)}
    (h : ∀ g, Runs t g (callback g)) (g : Gateway ρ) :
    Runs t g (g.checkPending t.canRequest w callback) := by
  unfold Gateway.checkPending
  split
  · exact (h (g.takeUp w)).congr rfl
  · exact rfl

theorem onTimer_runs (env : Env) (t : Tick) (g : Gateway ρ) : Runs t g (onTimer env t g) := by
  unfold onTimer
  split
  · refine (checkPending_runs (fun s => send_runs t _ _ _ _ s) g).bind fun s => ?_
    refine (checkPending_runs (fun s => send_runs t _ _ _ _ s) s).bind fun s => ?_
    refine (checkPending_runs (fun s => send_runs t _ _ _ _ s) s).bind fun s => ?_
    exact checkPending_runs (staleOrders_runs env t) s
  · exact rfl

end OrderEntry

namespace DropCopy

variable [LimitRequest ρ]

/-- A piece of the order stream leaves `halted` as it is. -/
theorem halted_checkDownload (stage : Stage) (g : Gateway ρ) :
    (checkDownload stage g).halted = g.halted := by
  have entered : ∀ (s : Gateway ρ) stage, s.halted = g.halted → (download stage s).2.halted = g.halted := by
    intro s stage hs
    cases stage with
    | getStaleOrders =>
      unfold download
      dsimp only
      split <;> exact hs
    | _ => exact hs
  unfold checkDownload setDownload Download.check
  split
  · exact Download.visit_state (P := fun s : Gateway ρ => s.halted = g.halted)
      (fun stage s => entered s stage) rfl
  · rfl

/-- The order stream does not throw at a timer, and leaves `halted` as it is. -/
theorem onTimer_runs (env : Env) (t : Tick) (g : Gateway ρ) :
    (∃ s, onTimer env t g = .ok s ∧ s.halted = g.halted) ∨ ∃ s, onTimer env t g = .fatal s := by
  have queue : (∃ s, checkRequestQueue t g = .ok s ∧ s.halted = g.halted) ∨
      ∃ s, checkRequestQueue t g = .fatal s := by
    unfold checkRequestQueue
    repeat' split
    all_goals first
      | exact .inl ⟨_, rfl, rfl⟩
      | exact .inl ⟨_, rfl, halted_checkDownload _ _⟩
      | exact .inr ⟨_, rfl⟩
  unfold onTimer
  split
  · rcases queue with ⟨s, hs, hhalted⟩ | ⟨s, hs⟩
    · rw [hs, Outcome.ok_bind]
      refine .inl ?_
      split
      · refine ⟨_, rfl, ?_⟩
        unfold checkStaleOrders
        dsimp only
        repeat' split
        all_goals exact hhalted
      · exact ⟨s, rfl, hhalted⟩
    · exact .inr ⟨s, by rw [hs]; rfl⟩
  · exact .inl ⟨g, rfl, rfl⟩

end DropCopy

namespace Gateway

variable [LimitRequest ρ] (env : Env) {g : Gateway ρ}

/-- The half of a timer that is for the order entry. -/
theorem step_orderEntry (hg : g.halted = false) (t : Tick) :
    step env g (.timer { t with socketRefresh := false }) =
      some (finish (OrderEntry.onTimer env t g)) := by
  have hkeys : ∀ (keys : List Key) (s : Gateway ρ),
      OrderEntry.getStaleOrders env { t with socketRefresh := false } keys s =
        OrderEntry.getStaleOrders env t keys s := by
    intro keys
    induction keys with
    | nil => exact fun _ => rfl
    | cons key keys ih =>
      intro s
      unfold OrderEntry.getStaleOrders
      simp only [ih]
      rfl
  have hstale : (OrderEntry.staleOrders env { t with socketRefresh := false } :
      Gateway ρ → Outcome Exn (Gateway ρ)) = OrderEntry.staleOrders env t := by
    funext s
    unfold OrderEntry.staleOrders
    rw [hkeys]
  have htimer : OrderEntry.onTimer env { t with socketRefresh := false } g =
      OrderEntry.onTimer env t g := by
    unfold OrderEntry.onTimer OrderEntry.checkRequestQueue
    rw [hstale]
    rfl
  have hhandle : handle env g (.timer { t with socketRefresh := false }) =
      some (OrderEntry.onTimer env t g) := by
    show some ((OrderEntry.onTimer env { t with socketRefresh := false } g).bind
      (DropCopy.onTimer env { t with socketRefresh := false })) = _
    rw [htimer]
    exact congrArg some (Outcome.bind_ok _)
  unfold step
  rw [hg, hhandle]
  rfl

/-- The half of a timer that is for the order stream. -/
theorem step_dropCopy (hg : g.halted = false) (t : Tick) :
    step env g (.timer { t with restRefresh := false }) =
      some (finish (DropCopy.onTimer env t g)) := by
  unfold step
  rw [hg]
  rfl

end Gateway

/-! ## The accounts -/

namespace Process

@[simp] theorem gateways_setGateway_self (name : String) (g : Gateway ρ) (p : Process ρ σ) :
    (p.setGateway name g).gateways name = g := Function.update_self ..

theorem gateways_setGateway_of_ne {name other : String} (h : other ≠ name) (g : Gateway ρ)
    (p : Process ρ σ) : (p.setGateway name g).gateways other = p.gateways other :=
  Function.update_of_ne h ..

theorem state_put (name : String) (p : Process ρ σ) (o : Outcome Exn (Gateway ρ)) :
    (p.put name o).state = p.setGateway name (Gateway.finish o) := by
  cases o <;> rfl

/-- An event of an account, with what this does to the account. -/
theorem gateways_put (name other : String) (p : Process ρ σ) (o : Outcome Exn (Gateway ρ)) :
    (p.put name o).state.gateways other =
      if other = name then Gateway.finish o else p.gateways other := by
  rw [state_put]
  split
  · rename_i h
    subst h
    exact gateways_setGateway_self ..
  · exact gateways_setGateway_of_ne ‹_› ..

variable {env : ProcessEnv} {p p' : Process ρ σ}

theorem halted_eq_false : p.halted env = false ↔
    (∀ name ∈ env.accounts, (p.gateways name).halted = false) ∧ p.books.halted = false ∧
      p.books.market.halted = false := by
  simp [halted, and_assoc]

/-- A handler that returns, and leaves `halted` as it is. -/
theorem halted_setGateway (hp : p.halted env = false) {name : String} {g : Gateway ρ}
    (hg : g.halted = false) : (p.setGateway name g).halted env = false := by
  obtain ⟨haccounts, hbooks⟩ := halted_eq_false.mp hp
  refine halted_eq_false.mpr ⟨fun other hother => ?_, hbooks⟩
  by_cases h : other = name
  · subst h
    rw [gateways_setGateway_self]
    exact hg
  · rw [gateways_setGateway_of_ne h]
    exact haccounts other hother

theorem forEach_ends {f : String → Process ρ σ → Outcome Exn (Process ρ σ)}
    {P Q : Process ρ σ → Prop} :
    ∀ {names : List String} (_ : ∀ name ∈ names, ∀ p, P p → (f name p).Ends P Q) {p : Process ρ σ},
      P p → (forEach f names p).Ends P Q
  | [], _, _, hp => hp
  | _ :: _, hf, _, hp =>
    (hf _ List.mem_cons_self _ hp).bind fun _ =>
      forEach_ends fun name hname => hf name (List.mem_cons_of_mem _ hname)

variable [LimitRequest ρ]

/-! ### Steps of their own -/

/-- Every account makes steps of its own, and so do the books. -/
structure Follows [Sequencer σ MBPUpdate] (env : ProcessEnv) (p p' : Process ρ σ) : Prop where
  accounts : ∀ name ∈ env.accounts,
    (machine ρ (env.account name)).Steps (fun _ _ => True) (p.gateways name) (p'.gateways name)
  books : (RoqHtx.books σ env.books).Steps (fun _ _ => True) p.books p'.books

namespace Follows

variable [Sequencer σ MBPUpdate] {p'' : Process ρ σ}

theorem refl (p : Process ρ σ) : Follows env p p := ⟨fun _ _ => .refl, .refl⟩

theorem trans (h : Follows env p p') (h' : Follows env p' p'') : Follows env p p'' :=
  ⟨fun name hname => (h.accounts name hname).trans (h'.accounts name hname), h.books.trans h'.books⟩

/-- A step of one account. -/
theorem put {name : String} {e : Event} {o : Outcome Exn (Gateway ρ)}
    (h : Gateway.step (env.account name) (p.gateways name) e = some (Gateway.finish o)) :
    Follows env p (p.put name o).state := by
  refine ⟨fun other _ => ?_, ?_⟩
  · rw [gateways_put]
    split
    · rename_i hother
      subst hother
      exact .single (e := e) trivial h
    · exact .refl
  · rw [state_put]
    exact .refl

end Follows

variable [Sequencer σ MBPUpdate]

/-! ### Timer -/

/-- A timer of one stream after the other. -/
theorem forEach_follows {f : String → Process ρ σ → Outcome Exn (Process ρ σ)} {names : List String}
    (hf : ∀ name ∈ names, ∀ p, p.halted env = false →
      (f name p).Ends (fun p' => Follows env p p' ∧ p'.halted env = false) (Follows env p))
    (hp : p.halted env = false) :
    (forEach f names p).Ends (fun p' => Follows env p p' ∧ p'.halted env = false) (Follows env p) := by
  refine forEach_ends (fun name hname s hs => ?_) ⟨.refl p, hp⟩
  exact (hf name hname s hs.2).mono (fun s' hs' => ⟨hs.1.trans hs'.1, hs'.2⟩) fun s' => hs.1.trans

theorem orderEntryTimer_follows (t : Ticks) {name : String} (hname : name ∈ env.accounts)
    (hp : p.halted env = false) :
    (orderEntryTimer env t name p).Ends (fun p' => Follows env p p' ∧ p'.halted env = false)
      (Follows env p) := by
  have hg := (halted_eq_false.mp hp).1 name hname
  have follows := Follows.put (p := p) (Gateway.step_orderEntry (env.account name) hg (t.tick name))
  have runs := OrderEntry.onTimer_runs (env.account name) (t.tick name) (p.gateways name)
  unfold orderEntryTimer
  revert follows runs
  generalize OrderEntry.onTimer (env.account name) (t.tick name) (p.gateways name) = o
  cases o with
  | ok g => exact fun follows runs => ⟨follows, halted_setGateway hp (Eq.trans runs hg)⟩
  | throws e g => exact fun follows _ => follows
  | fatal g => exact fun follows _ => follows

theorem dropCopyTimer_follows (t : Ticks) {name : String} (hname : name ∈ env.accounts)
    (hp : p.halted env = false) :
    (dropCopyTimer env t name p).Ends (fun p' => Follows env p p' ∧ p'.halted env = false)
      (Follows env p) := by
  have hg := (halted_eq_false.mp hp).1 name hname
  have follows := Follows.put (p := p) (Gateway.step_dropCopy (env.account name) hg (t.tick name))
  unfold dropCopyTimer
  rcases DropCopy.onTimer_runs (env.account name) (t.tick name) (p.gateways name) with
    ⟨g, ho, hhalted⟩ | ⟨g, ho⟩
  · rw [ho] at follows ⊢
    exact ⟨follows, halted_setGateway hp (hhalted.trans hg)⟩
  · rw [ho] at follows ⊢
    exact follows

theorem feedTimers_steps (env : ProcessEnv) (t : Ticks) (feed : Feed) (b : Books σ) (hb : b.halted = false)
    (hm : b.market.halted = false) :
    (RoqHtx.books σ env.books).Steps (fun _ _ => True) b
        { b with market := feedTimers t feed b.market } ∧
      (feedTimers t feed b.market).halted = false := by
  refine List.foldlRecOn (motive := fun m : Market =>
    (RoqHtx.books σ env.books).Steps (fun _ _ => True) b { b with market := m } ∧ m.halted = false)
    _ _ ⟨.refl, hm⟩ fun m ⟨hsteps, hm⟩ index _ => ?_
  have running : Feed.Subscribes fun m => m.halted = false :=
    ⟨fun _ _ _ h => h, fun _ _ feed h => by cases feed <;> exact h, fun _ _ h => h⟩
  refine ⟨hsteps.tail (e := .market (.timer feed index (t.count feed index))) trivial ?_,
    running.onTimer feed index _ hm⟩
  simp [RoqHtx.books, Books.step, Books.handle, Market.step, Market.handle, hb, hm]

theorem feedsTimer_follows (t : Ticks) (hp : p.halted env = false) : Follows env p (feedsTimer t p) := by
  obtain ⟨-, hb, hm⟩ := halted_eq_false.mp hp
  have first := feedTimers_steps env t .marketData p.books hb hm
  have second := feedTimers_steps env t .mbpFeed
    { p.books with market := feedTimers t .marketData p.books.market } hb first.2
  exact ⟨fun _ _ => .refl, first.1.trans second.1⟩

theorem onTimer_follows (t : Ticks) (hp : p.halted env = false) :
    Follows env p (onTimer env t p).state := by
  have first : (forEach (orderEntryTimer env t) env.orderEntry p).Ends
      (fun s => Follows env p s ∧ s.halted env = false) (Follows env p) := forEach_follows
    (fun name hname _ hs => orderEntryTimer_follows t (env.orderEntry_perm.mem_iff.mp hname) hs) hp
  refine Outcome.Ends.state (P := Follows env p) (first.bind fun s hs => ?_) fun _ hs => hs
  have second : (forEach (dropCopyTimer env t) env.dropCopy s).Ends
      (fun s' => Follows env s s' ∧ s'.halted env = false) (Follows env s) := forEach_follows
    (fun name hname _ hs => dropCopyTimer_follows t (env.dropCopy_perm.mem_iff.mp hname) hs) hs.2
  refine Outcome.Ends.bind (P := fun s' => Follows env p s' ∧ s'.halted env = false) ?_
    fun s' hs' => hs'.1.trans (feedsTimer_follows t hs'.2)
  exact second.mono (fun s' hs' => ⟨hs.1.trans hs'.1, hs'.2⟩) fun s' => hs.1.trans

/-! ### Events -/

theorem withOrderEntry_follows {name : String} {f : Process ρ σ → Outcome Exn (Process ρ σ)}
    (h : name ∈ env.accounts → Follows env p (f p).state) :
    Follows env p (withOrderEntry env name p f).state := by
  unfold withOrderEntry
  split
  · exact h ‹_›
  · exact .refl p

theorem handle_follows (hp : p.halted env = false) {e : ProcessEvent}
    {o : Outcome Exn (Process ρ σ)} (h : handle env p e = some o) : Follows env p o.state := by
  obtain ⟨haccounts, hbooks, hmarket⟩ := halted_eq_false.mp hp
  have step : ∀ {name : String} (_ : name ∈ env.accounts) {e : Event} {o : Outcome Exn (Gateway ρ)},
      Gateway.handle (env.account name) (p.gateways name) e = some o →
      Follows env p (p.put name o).state := by
    intro name hname e o ho
    exact .put (e := e) (by simp [Gateway.step, haccounts name hname, ho])
  cases e with
  | connection name e =>
    simp only [handle, Option.ite_none_right_eq_some] at h
    obtain ⟨⟨hname, -⟩, h⟩ := h
    obtain ⟨o, ho, rfl⟩ := Option.map_eq_some_iff.mp h
    exact step hname ho
  | createOrder name refuses info createOrder refData requestId =>
    cases h
    exact withOrderEntry_follows fun hname =>
      step hname (e := .createOrder refuses info createOrder refData requestId) rfl
  | cancelOrder name refuses info cancelOrder order requestId =>
    cases h
    exact withOrderEntry_follows fun hname =>
      step hname (e := .cancelOrder refuses info cancelOrder order requestId) rfl
  | cancelAllOrders name refuses info cancelAllOrders requestId =>
    cases h
    exact withOrderEntry_follows fun hname =>
      step hname (e := .cancelAllOrders refuses info cancelAllOrders requestId) rfl
  | modifyOrder name =>
    cases h
    exact withOrderEntry_follows fun _ => .refl p
  | massQuote | cancelQuotes =>
    cases h
    exact .refl p
  | books e =>
    simp only [handle, Option.ite_none_left_eq_some] at h
    obtain ⟨b, hb, rfl⟩ := Option.map_eq_some_iff.mp h.2
    exact ⟨fun _ _ => .refl, .single (e := e) trivial hb⟩
  | timer t =>
    cases h
    exact onTimer_follows t hp

theorem step_follows {e : ProcessEvent} (h : step env p e = some p') :
    p.halted env = false ∧ Follows env p p' := by
  unfold step at h
  split at h
  · cases h
  · rename_i hp
    obtain ⟨o, ho, rfl⟩ := Option.map_eq_some_iff.mp h
    exact ⟨by simpa using hp, handle_follows (by simpa using hp) ho⟩

theorem books_reachable (h : (process ρ σ env).Reachable p) :
    (RoqHtx.books σ env.books).Reachable p.books :=
  h.part (f := Process.books) rfl fun _ _ _ _ _ hs => (step_follows hs).2.books

/-- Whatever the gateway does, every account, the books and the market data have
each made a run of their own. -/
theorem composed (h : (process ρ σ env).Reachable p) :
    (∀ name ∈ env.accounts, (machine ρ (env.account name)).Reachable (p.gateways name)) ∧
      (RoqHtx.books σ env.books).Reachable p.books ∧
      (market env.books.market).Reachable p.books.market := by
  have hbooks := books_reachable h
  refine ⟨fun name hname => ?_, hbooks, Books.market_reachable hbooks⟩
  exact h.part (f := fun p => p.gateways name) rfl
    fun _ _ _ _ _ hs => (step_follows hs).2.accounts name hname

/-- An account with an order in flight beside one that asks for its accounts, and a
stream of market data beside both. -/
theorem composed_two : ∃ p : Process Reader.Flags Reader.Sequence,
    ((∀ name ∈ Reader.processEnv.accounts, Reader.flags.Reachable (p.gateways name)) ∧
      (RoqHtx.books Reader.Sequence Reader.processEnv.books).Reachable p.books ∧
      (market Reader.processEnv.books.market).Reachable p.books.market) ∧
    (p.gateways "A1").inFlight.map InFlight.callback = [.placeOrderAck 1 1001] ∧
    (p.gateways "A2").inFlight.map InFlight.callback = [.accountsAck] ∧
    p.books.market.marketData.length = 1 := by
  obtain ⟨p, hp, hP⟩ := Machine.exists_reach (M := Reader.twoAccounts) (C := fun _ _ => True)
    (P := fun p => (p.gateways "A1").inFlight.map InFlight.callback = [.placeOrderAck 1 1001] ∧
      (p.gateways "A2").inFlight.map InFlight.callback = [.accountsAck] ∧
      p.books.market.marketData.length = 1)
    Reader.together (by decide)
  exact ⟨p, composed hp, hP⟩

end Process

end RoqHtx

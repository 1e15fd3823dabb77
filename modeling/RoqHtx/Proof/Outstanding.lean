import RoqHtx.Proof.Steps

/-!
# The counter of stale orders

`download_stale_orders_counter_` is the number of `get_order` requests in
flight (`Counted`), kept by everything that sends (`onTimer_counted`) and by
every response (`getOrderAck_cases`). Hence no response finds the counter at
zero, and the batch is committed by the last response (`stale_orders_counter`).
-/

namespace RoqHtx

open OrderEntry (Tick Sends)

variable {ρ : Type}

theorem countP_eraseIdx {α : Type} (p : α → Bool) {l : List α} {i : Nat} {x : α}
    (h : l[i]? = some x) : l.countP p = (l.eraseIdx i).countP p + if p x then 1 else 0 := by
  induction l generalizing i with
  | nil => simp at h
  | cons y l ih =>
    cases i with
    | zero =>
      simp only [List.getElem?_cons_zero, Option.some.injEq] at h
      subst h
      simp [List.countP_cons]
    | succ i =>
      simp only [List.getElem?_cons_succ] at h
      simp only [List.eraseIdx_cons_succ, List.countP_cons, ih h]
      omega

/-- An entry that is not about the batch of stale orders. -/
def Quiet : Entry → Prop
  | .commit .staleOrders | .fatal .getOrderAck => False
  | _ => True

/-- The `get_order` requests sent and not yet answered. -/
def outstanding (g : Gateway ρ) : Nat := g.inFlight.countP (·.callback.isGetOrder)

def Counted (g : Gateway ρ) : Prop := g.orderEntry.downloadStaleOrdersCounter = outstanding g

theorem Counted.of_eq {g g' : Gateway ρ} (h : Counted g) (ho : g'.orderEntry = g.orderEntry)
    (hf : g'.inFlight = g.inFlight) : Counted g' := by
  rwa [Counted, outstanding, ho, hf]

namespace OrderEntry

/-! ## Sending -/

theorem send_counted {refuses : Nat → Option Exn} {request : RestRequest} {callback : Callback}
    {requestId : String} {cause : Cause} (hc : callback.isGetOrder = false) {g : Gateway ρ}
    (h : Counted g) : Counted (g.send refuses request callback requestId cause).state := by
  rcases send_cases refuses request callback requestId cause g with ⟨e, -, hs⟩ | ⟨-, hs⟩
  · rwa [hs]
  · rw [hs]
    simpa [Gateway.sent, Counted, outstanding, List.countP_append, hc] using h

/-- Every request of a batch is counted. -/
theorem getStaleOrders_counted (env : Env) (t : Tick) :
    ∀ (keys : List Key) {g : Gateway ρ}, Counted g → Counted (getStaleOrders env t keys g).state
  | [], _, h => h
  | key :: keys, g, h => by
    unfold getStaleOrders
    split
    · rename_i order _
      rcases send_cases t.refuses (getRequest env t.trace Path.order)
        (.getOrderAck order.clientOrderId) "order" .timer g with ⟨e, -, hs⟩ | ⟨-, hs⟩
      · rwa [getOrder, hs]
      · rw [getOrder, hs, Outcome.ok_bind]
        refine getStaleOrders_counted env t keys ?_
        simpa [Gateway.sent, Counted, outstanding, countUp, List.countP_append, Callback.isGetOrder]
          using h
    · exact getStaleOrders_counted env t keys h

theorem placeOrder_counted (env : Env) (refuses : Nat → Option Exn) (info : MessageInfo)
    (createOrder : CreateOrder) (refData : RefData) (requestId : String) {g : Gateway ρ}
    (h : Counted g) :
    Counted (placeOrder env refuses info createOrder refData requestId g).state := by
  unfold placeOrder
  repeat' split
  · exact h
  · exact h
  · exact send_counted rfl h

theorem cancelOrder_counted (env : Env) (refuses : Nat → Option Exn) (info : MessageInfo)
    (cancel : CancelOrder) (order : Order) (requestId : String) {g : Gateway ρ} (h : Counted g) :
    Counted (cancelOrder env refuses info cancel order requestId g).state := by
  unfold cancelOrder
  split
  · exact h
  · dsimp only
    split <;> exact send_counted rfl h

theorem cancelAllOrders_counted (env : Env) (refuses : Nat → Option Exn) (info : MessageInfo)
    (cancel : CancelAllOrders) (requestId : String) {g : Gateway ρ} (h : Counted g) :
    Counted (cancelAllOrders env refuses info cancel requestId g).state := by
  unfold cancelAllOrders
  split
  · exact h
  · exact Outcome.state_bind (send_counted rfl h) fun s hs => hs.of_eq rfl rfl

variable [LimitRequest ρ]

theorem checkPending_counted {canRequest : Which → Bool} {w : Which}
    {callback : Gateway ρ → Outcome Exn (Gateway ρ)}
    (hcb : ∀ g, Counted g → Counted (callback g).state) {g : Gateway ρ} (h : Counted g) :
    Counted (g.checkPending canRequest w callback).state := by
  unfold Gateway.checkPending
  split
  · exact hcb _ (h.of_eq rfl rfl)
  · exact h

theorem onTimer_counted (env : Env) (t : Tick) {g : Gateway ρ} (h : Counted g) :
    Counted (onTimer env t g).state := by
  unfold onTimer
  split
  · refine Outcome.state_bind (checkPending_counted (fun _ => send_counted rfl) h) fun s hs => ?_
    refine Outcome.state_bind (checkPending_counted (fun _ => send_counted rfl) hs) fun s hs => ?_
    refine Outcome.state_bind (checkPending_counted (fun _ => send_counted rfl) hs) fun s hs => ?_
    refine checkPending_counted (fun g hg => ?_) hs
    exact Outcome.state_bind (getStaleOrders_counted env t _ (hg.of_eq rfl rfl))
      fun s hs => hs.of_eq rfl rfl
  · exact h

end OrderEntry

/-! ## Runs -/

namespace Gateway

variable [LimitRequest ρ]

/-- Everything but the response to a `get_order` request keeps the counter. -/
theorem Leaves.counted {env : Env} {g s : Gateway ρ} {e : Event} (h : Leaves env g s e)
    (he : ∀ i response f, e = .response i response → g.inFlight[i]? = some f →
      f.callback.isGetOrder = false) (hg : Counted g) : Counted s := by
  cases e with
  | restConnected | restDisconnected | socketDisconnected =>
    subst h
    exact hg
  | socketReady trace =>
    obtain ⟨-, rfl⟩ := h
    exact hg
  | timer t =>
    have hm := OrderEntry.onTimer_counted env t hg
    rcases h with ⟨-, rfl⟩ | ⟨m, ho, rfl⟩
    · exact hm
    · rw [ho] at hm
      have k := DropCopy.onTimer_keeps' env t m
      exact hm.of_eq k.orderEntry k.inFlight
  | text message =>
    obtain ⟨-, ⟨-, rfl⟩ | ⟨m, -, rfl⟩⟩ := h
    · exact hg
    · have k := DropCopy.onMessage_keeps' env m g
      exact hg.of_eq k.orderEntry k.inFlight
  | response i response =>
    obtain ⟨f, hf, rfl⟩ := h
    have hget := he i response f rfl hf
    have ha := OrderEntry.onResponse_answers env f response (g.answer i f response)
    have hcount := countP_eraseIdx (fun f : InFlight => f.callback.isGetOrder) hf
    rw [Counted, outstanding, ha.counter hget, ha.inFlight]
    simpa [hget, answer, Counted, outstanding, hcount] using hg
  | createOrder => exact h ▸ OrderEntry.placeOrder_counted _ _ _ _ _ _ hg
  | cancelOrder => exact h ▸ OrderEntry.cancelOrder_counted _ _ _ _ _ _ hg
  | cancelAllOrders => exact h ▸ OrderEntry.cancelAllOrders_counted _ _ _ _ _ hg

/-- Everything but the response to a `get_order` request is silent about the
batch. -/
theorem Leaves.quiet {env : Env} {g s : Gateway ρ} {e : Event} (h : Leaves env g s e)
    (he : ∀ i response f, e = .response i response → g.inFlight[i]? = some f →
      f.callback.isGetOrder = false) : Grows Quiet g s := by
  refine (h.makes (F := (· ≠ .getOrderAck)) (B := fun _ => True) (fun _ h _ => h)
    (fun _ _ _ => nofun) fun _ _ _ _ _ => trivial).mono fun x hx => ?_
  unfold Quiet
  split
  · cases e with
    | timer t => exact hx.elim id id
    | response i response =>
      obtain ⟨f, hf, hx | hx⟩ := hx
      · cases hx
      · exact Callback.which_ne_staleOrders (he i response f rfl hf) hx
    | _ => simp [Makes, OrderEntry.Asks, DropCopy.Writes] at hx
  · cases e with
    | timer t => exact hx.elim id fun hx => hx rfl
    | text message => exact hx rfl
    | response i response =>
      obtain ⟨f, hf, hx | hx⟩ := hx
      · cases hx
      · exact Bool.false_ne_true ((he i response f rfl hf).symm.trans hx.2)
    | _ => simp [Makes, OrderEntry.Asks] at hx
  · trivial

/-- How the response to a `get_order` request leaves the gateway, `g₁` being
the state in which it is handled. -/
def Answered (env : Env) (g g' : Gateway ρ) (response : Response) (g₁ : Gateway ρ) : Prop :=
  response.stops env.assertions = true ∧ g' = { g₁ with halted := true } ∨
  response.stops env.assertions = false ∧ outstanding g = 1 ∧
    g' = (OrderEntry.countDown g₁).commit .staleOrders ∨
  response.stops env.assertions = false ∧ 1 < outstanding g ∧ g' = OrderEntry.countDown g₁

/-- A step is a response to a `get_order` request, or silent about the batch. -/
theorem stale_step {env : Env} {g g' : Gateway ρ} {e : Event} (hg : Counted g)
    (h : step env g e = some g') :
    (∃ i response f, e = .response i response ∧ g.inFlight[i]? = some f ∧
      f.callback.isGetOrder = true ∧ Answered env g g' response (g.answer i f response)) ∨
    (∀ i response f, e = .response i response → g.inFlight[i]? = some f →
      f.callback.isGetOrder = false) ∧ Counted g' ∧ Grows Quiet g g' := by
  by_cases he : ∀ i response f, e = .response i response → g.inFlight[i]? = some f →
      f.callback.isGetOrder = false
  · refine .inr ⟨he, ?_, ?_⟩
    · exact invariant_step (fun _ h => h) (fun _ hs => hs.counted he hg) h
    · exact invariant_step (P := Grows Quiet g) (fun _ h => h) (fun _ hs => hs.quiet he) h
  · push Not at he
    obtain ⟨i, response, f, rfl, hf, hget⟩ := he
    rw [Bool.ne_false_iff] at hget
    obtain ⟨f', hf', rfl⟩ := response_step h
    obtain rfl : f' = f := Option.some.inj (hf'.symm.trans hf)
    have hpos : (g.answer i f' response).orderEntry.downloadStaleOrdersCounter = outstanding g := hg
    have : 0 < outstanding g := by
      rw [outstanding, countP_eraseIdx (fun f : InFlight => f.callback.isGetOrder) hf]
      simp [hget]
    refine .inl ⟨i, response, f', rfl, hf, hget, ?_⟩
    obtain ⟨id, hid⟩ := Callback.getOrderAck_of_isGetOrder hget
    simp only [OrderEntry.onResponse, hid]
    obtain ⟨hs, h⟩ | ⟨-, h0, -⟩ | ⟨hs, h1, h⟩ | ⟨hs, h1, h⟩ :=
      OrderEntry.getOrderAck_cases env response (g.answer i f' response)
    · exact .inl ⟨hs, h ▸ rfl⟩
    · omega
    · exact .inr (.inl ⟨hs, by omega, h ▸ rfl⟩)
    · exact .inr (.inr ⟨hs, by omega, h ▸ rfl⟩)

theorem counted_step {env : Env} {g g' : Gateway ρ} {e : Event} (hg : Counted g)
    (h : step env g e = some g') : g'.halted = true ∨ Counted g' := by
  obtain ⟨i, response, f, -, hf, hget, h⟩ | ⟨-, hc, -⟩ := stale_step hg h
  · have hcount := countP_eraseIdx (fun f : InFlight => f.callback.isGetOrder) hf
    rw [Counted, outstanding, hcount] at hg
    rcases h with ⟨-, rfl⟩ | ⟨-, -, rfl⟩ | ⟨-, -, rfl⟩
    · exact .inl rfl
    all_goals
      right
      simp_all [Counted, outstanding, OrderEntry.countDown, commit, answer]
  · exact .inr hc

theorem getOrderAck_step {env : Env} {g g' : Gateway ρ} {e : Event} (hg : Counted g)
    (h : step env g e = some g') : Grows (fun x => x ≠ .fatal .getOrderAck) g g' := by
  obtain ⟨i, response, f, -, -, -, h⟩ | ⟨-, -, hq⟩ := stale_step hg h
  · rcases h with ⟨-, rfl⟩ | ⟨-, -, rfl⟩ | ⟨-, -, rfl⟩
    · exact .of_cons (x := .answered f response) rfl nofun
    · exact ⟨[.commit .staleOrders, .answered f response], rfl, by simp⟩
    · exact .of_cons (x := .answered f response) rfl nofun
  · refine hq.mono fun x hx => ?_
    rintro rfl
    exact hx

/-- The last response to a batch, if the process survives it. -/
def lastAnswer (env : Env) (g : Gateway ρ) : Event → Bool
  | .response i response =>
    g.inFlight[i]?.any (·.callback.isGetOrder) && outstanding g == 1 &&
      !response.stops env.assertions
  | _ => false

/-- The batch is committed by the last response to it. -/
theorem commit_step {env : Env} {g g' : Gateway ρ} {e : Event} (hg : Counted g)
    (h : step env g e = some g') : Logs (.commit .staleOrders) g g' ↔ lastAnswer env g e = true := by
  obtain ⟨i, response, f, rfl, hf, hget, h⟩ | ⟨hother, -, hq⟩ := stale_step hg h
  · have silent : Grows Quiet g g' → ¬Logs (.commit .staleOrders) g g' := fun hq hl => hq.of_logs hl
    simp only [lastAnswer, hf, hget, Option.any_some, Bool.true_and, Bool.and_eq_true, beq_iff_eq,
      Bool.not_eq_true']
    rcases h with ⟨hs, rfl⟩ | ⟨hs, h1, rfl⟩ | ⟨hs, h1, rfl⟩
    · refine iff_of_false (silent (.of_cons (x := .answered f response) rfl trivial)) ?_
      simp [hs]
    · exact iff_of_true ⟨[.commit .staleOrders, .answered f response], rfl, by simp⟩ ⟨h1, hs⟩
    · refine iff_of_false (silent (.of_cons (x := .answered f response) rfl trivial)) ?_
      omega
  · refine iff_of_false (fun hl => hq.of_logs hl) ?_
    cases e with
    | response i response =>
      cases hf : g.inFlight[i]? with
      | none => simp [lastAnswer, hf]
      | some f => simp [lastAnswer, hf, hother i response f rfl hf]
    | _ => simp [lastAnswer]

/-- While the process runs, the counter is the number of `get_order` requests
in flight; no response finds it at zero; and a step commits the batch if and
only if it is the last response. -/
theorem stale_orders_counter (env : Env) (g : Gateway ρ) (h : (machine ρ env).Reachable g) :
    (g.halted = false → g.orderEntry.downloadStaleOrdersCounter = outstanding g) ∧
    .fatal .getOrderAck ∉ g.log ∧
    ∀ e g', step env g e = some g' →
      (Logs (.commit .staleOrders) g g' ↔ lastAnswer env g e = true) := by
  have inv : (g.halted = true ∨ Counted g) ∧ .fatal .getOrderAck ∉ g.log := by
    refine h.invariant (I := fun g => (g.halted = true ∨ Counted g) ∧ .fatal .getOrderAck ∉ g.log)
      ?_ ?_
    · exact ⟨.inr (rfl : Counted (Gateway.init : Gateway ρ)), List.not_mem_nil⟩
    rintro s e s' ⟨hs, hlog⟩ - hstep
    have hc := hs.resolve_left (by simp [not_halted_of_step hstep])
    exact ⟨counted_step hc hstep,
      fun hm => hlog (((getOrderAck_step hc hstep).mem_iff (by simp)).mp hm)⟩
  refine ⟨fun hlive => inv.1.resolve_left (by simp [hlive]), inv.2, fun e g' hstep => ?_⟩
  exact commit_step (inv.1.resolve_left (by simp [not_halted_of_step hstep])) hstep

/-- With one stale order, the counter is one. -/
theorem stale_orders_counter_one : ∃ g : Gateway Reader.Flags,
    outstanding g = 1 ∧ g.orderEntry.downloadStaleOrdersCounter = 1 := by
  obtain ⟨g, hg, h1, hlive⟩ := Machine.exists_reach (M := Reader.flags) (C := fun _ _ => True)
    (P := fun g => outstanding g = 1 ∧ g.halted = false)
    (Reader.login ++ Reader.download ++ [.timer Reader.staleTick, .timer Reader.staleTick])
    (by decide +kernel)
  exact ⟨g, h1, h1 ▸ (stale_orders_counter Reader.env g hg).1 hlive⟩

end Gateway

end RoqHtx

import RoqHtx.Proof.Outstanding
import RoqHtx.Proof.Stages

/-!
# Batches of stale orders

Once the stale orders have been taken up (`TakenUp`), the request must be
answered or some `get_order` request of the batch outstanding. A batch in which
no order is found sends nothing, and is never answered (`batch_lost`); in runs
in which every batch sends something, and none is finished before an earlier
one, the property holds and the download is never stuck
(`batch_outstanding_of_sent`).
-/

namespace RoqHtx

open OrderEntry (Tick Sends)

variable {ρ : Type}

/-- The `get_order` requests of the latest batch that are not yet answered. -/
def outstandingOfBatch (g : Gateway ρ) : Nat :=
  g.inFlight.countP fun f => f.callback.isGetOrder && f.batch == g.batch

theorem outstandingOfBatch_le (g : Gateway ρ) : outstandingOfBatch g ≤ outstanding g :=
  List.countP_mono_left fun f _ h => by simp_all

variable [LimitRequest ρ]

/-- The stale orders have been taken up, and not been asked for again. -/
def TakenUp (g : Gateway ρ) : Prop := 0 < g.batch ∧ g.wanted .staleOrders = false

/-- The stale orders that have been taken up are answered, or being asked for. -/
def Pending (g : Gateway ρ) : Prop :=
  TakenUp g → g.hasResponse .staleOrders = true ∨ 0 < outstandingOfBatch g

/-- The download waits only for stale orders that are wanted or taken up. -/
def Awaited (g : Gateway ρ) : Prop :=
  g.dropCopy.download.state = some .getStaleOrders → g.wanted .staleOrders = true ∨ TakenUp g

/-! ## What does not take up the stale orders -/

structure Aside (g g' : Gateway ρ) : Prop where
  dropCopy : g'.dropCopy = g.dropCopy
  wanted : g'.wanted .staleOrders = g.wanted .staleOrders
  hasResponse : g'.hasResponse .staleOrders = g.hasResponse .staleOrders
  details : g'.request.detailsStaleOrders = g.request.detailsStaleOrders
  batch : g'.batch = g.batch
  inFlight : ∃ new, g'.inFlight = g.inFlight ++ new

namespace Aside

theorem refl (g : Gateway ρ) : Aside g g := ⟨rfl, rfl, rfl, rfl, rfl, [], by simp⟩

theorem trans {a b c : Gateway ρ} (h : Aside a b) (h' : Aside b c) : Aside a c where
  dropCopy := h'.dropCopy.trans h.dropCopy
  wanted := h'.wanted.trans h.wanted
  hasResponse := h'.hasResponse.trans h.hasResponse
  details := h'.details.trans h.details
  batch := h'.batch.trans h.batch
  inFlight := by
    obtain ⟨l, hl⟩ := h.inFlight
    obtain ⟨l', hl'⟩ := h'.inFlight
    exact ⟨l ++ l', by rw [hl', hl, List.append_assoc]⟩

theorem takenUp {g g' : Gateway ρ} (h : Aside g g') : TakenUp g' ↔ TakenUp g := by
  rw [TakenUp, TakenUp, h.batch, h.wanted]

theorem outstandingOfBatch_le {g g' : Gateway ρ} (h : Aside g g') :
    outstandingOfBatch g ≤ outstandingOfBatch g' := by
  obtain ⟨l, hl⟩ := h.inFlight
  rw [outstandingOfBatch, outstandingOfBatch, hl, h.batch, List.countP_append]
  exact Nat.le_add_right _ _

theorem pending {g g' : Gateway ρ} (h : Aside g g') (hg : Pending g) : Pending g' := by
  intro ht
  rw [h.hasResponse]
  exact (hg (h.takenUp.mp ht)).imp_right fun hn => hn.trans_le h.outstandingOfBatch_le

theorem awaited {g g' : Gateway ρ} (h : Aside g g') (hg : Awaited g) : Awaited g' := by
  intro hs
  rw [h.dropCopy] at hs
  rw [h.wanted, h.takenUp]
  exact hg hs

end Aside

namespace OrderEntry

theorem send_aside (refuses : Nat → Option Exn) (request : RestRequest) (callback : Callback)
    (requestId : String) (cause : Cause) (g : Gateway ρ) :
    Aside g (g.send refuses request callback requestId cause).state := by
  rcases send_cases refuses request callback requestId cause g with ⟨e, -, hs⟩ | ⟨-, hs⟩
  · rw [hs]
    exact .refl g
  · rw [hs]
    exact ⟨rfl, rfl, rfl, rfl, rfl, [_], rfl⟩

theorem takeUp_aside {w : Which} (hw : w ≠ .staleOrders) (g : Gateway ρ) : Aside g (g.takeUp w) :=
  ⟨rfl, by simp [Gateway.wanted, Gateway.takeUp, Request.get_modify_of_ne _ _ hw.symm],
    by simp [Gateway.hasResponse, Gateway.takeUp, Request.get_modify_of_ne _ _ hw.symm],
    by simp [Gateway.takeUp], rfl, [], by simp [Gateway.takeUp]⟩

/-- Whether a timer takes up a request. -/
def taken (t : Tick) (g : Gateway ρ) (w : Which) : Bool := g.wanted w && t.canRequest w

/-- A timer that began in `g` has been through the requests `ws`, and sent all
that it took up. -/
structure Passed (t : Tick) (g : Gateway ρ) (ws : List Which) (m : Gateway ρ) : Prop where
  aside : Aside g m
  wanted : ∀ w, w ∉ ws → m.wanted w = g.wanted w
  nextId : m.nextId = g.nextId + ws.countP (taken t g)
  accepted : ∀ k < ws.countP (taken t g), t.refuses (g.nextId + k) = none

theorem Passed.init (t : Tick) (g : Gateway ρ) : Passed t g [] g :=
  ⟨.refl g, fun _ _ => rfl, rfl, nofun⟩

/-- The next request, unless it is the stale orders. -/
theorem Passed.next {t : Tick} {g m : Gateway ρ} {ws : List Which} (h : Passed t g ws m)
    {w : Which} (hw : w ∉ ws) (hstale : w ≠ .staleOrders) {request : Gateway ρ → RestRequest}
    {cb : Callback} (callback : Gateway ρ → Outcome Exn (Gateway ρ))
    (hcb : ∀ g, callback g = g.send t.refuses (request g) cb "orders" .timer) :
    Aside g (m.checkPending t.canRequest w callback).state ∧
      ∀ m', m.checkPending t.canRequest w callback = .ok m' → Passed t g (w :: ws) m' := by
  have hwanted := h.wanted w hw
  unfold Gateway.checkPending
  split
  · rename_i hp
    have htaken : taken t g w = true := by rwa [taken, ← hwanted]
    have aside := h.aside.trans (takeUp_aside hstale m)
    refine ⟨hcb _ ▸ aside.trans (send_aside ..), fun m' hm' => ?_⟩
    rw [hcb] at hm'
    rcases send_cases t.refuses (request (m.takeUp w)) cb "orders" .timer (m.takeUp w) with
      ⟨e, -, hs⟩ | ⟨hr, hs⟩
    · cases hm'.symm.trans hs
    · cases hm'.symm.trans hs
      have hid : (m.takeUp w).nextId = g.nextId + ws.countP (taken t g) := h.nextId
      refine ⟨aside.trans ⟨rfl, rfl, rfl, rfl, rfl, [_], rfl⟩, fun v hv => ?_, ?_, fun k hk => ?_⟩
      · rw [List.mem_cons, not_or] at hv
        rw [← h.wanted v hv.2]
        simp [Gateway.wanted, Gateway.takeUp, Gateway.sent, Request.get_modify_of_ne _ _ hv.1]
      · rw [List.countP_cons_of_pos htaken]
        simp only [Gateway.sent, hid]
        omega
      · rw [List.countP_cons_of_pos htaken] at hk
        rcases Nat.lt_succ_iff_lt_or_eq.mp hk with hk | rfl
        · exact h.accepted k hk
        · rwa [hid] at hr
  · rename_i hp
    have htaken : ¬taken t g w = true := by rwa [taken, ← hwanted]
    refine ⟨h.aside, fun m' hm' => ?_⟩
    cases hm'
    refine ⟨h.aside, fun v hv => h.wanted v fun hm => hv (List.mem_cons_of_mem w hm), ?_, ?_⟩
    · rw [List.countP_cons_of_neg htaken, h.nextId]
    · rw [List.countP_cons_of_neg htaken]
      exact h.accepted

/-! ## What does -/

/-- How many requests a timer sends before it comes to the stale orders. -/
def ahead (t : Tick) (g : Gateway ρ) : Nat :=
  [Which.openOrders, .balances, .account].countP (taken t g)

/-- Whether a timer comes to take up the stale orders. -/
def takesUp (t : Tick) (g : Gateway ρ) : Bool :=
  t.restRefresh && ready g && taken t g .staleOrders &&
    (List.range (ahead t g)).all fun k => (t.refuses (g.nextId + k)).isNone

theorem onTimer_stale (env : Env) (t : Tick) (g : Gateway ρ) :
    Aside g (onTimer env t g).state ∨
    takesUp t g = true ∧ ∃ m, Aside g m ∧ m.nextId = g.nextId + ahead t g ∧
      (onTimer env t g).state = (staleOrders env t (m.takeUp .staleOrders)).state := by
  unfold onTimer
  split
  swap
  · exact .inl (.refl g)
  rename_i hg
  unfold checkRequestQueue
  obtain ⟨a1, p1⟩ := (Passed.init t g).next (w := .account) nofun nofun
    (accounts env t) fun _ => rfl
  rcases Outcome.bind_cases (g.checkPending t.canRequest .account (accounts env t)) _ with
    ⟨m1, o1, hb⟩ | hb <;> rw [hb]
  swap
  · exact .inl a1
  obtain ⟨a2, p2⟩ := (p1 m1 o1).next (w := .balances) nofun nofun
    (balance env t) fun _ => rfl
  rcases Outcome.bind_cases (m1.checkPending t.canRequest .balances (balance env t)) _ with
    ⟨m2, o2, hb⟩ | hb <;> rw [hb]
  swap
  · exact .inl a2
  obtain ⟨a3, p3⟩ := (p2 m2 o2).next (w := .openOrders) nofun nofun
    (openOrders env t) fun _ => rfl
  rcases Outcome.bind_cases (m2.checkPending t.canRequest .openOrders (openOrders env t)) _ with
    ⟨m3, o3, hb⟩ | hb <;> rw [hb]
  swap
  · exact .inl a3
  have p := p3 m3 o3
  unfold Gateway.checkPending
  split
  · rename_i hs
    refine .inr ⟨?_, m3, p.aside, p.nextId, rfl⟩
    rw [p.wanted .staleOrders (by simp)] at hs
    simp only [takesUp, hg, taken, hs, Bool.and_self, Bool.true_and, List.all_eq_true,
      List.mem_range, Option.isNone_iff_eq_none]
    exact p.accepted
  · exact .inl p.aside

theorem getStaleOrders_aside (env : Env) (t : Tick) :
    ∀ (keys : List Key) (g : Gateway ρ), Aside g (getStaleOrders env t keys g).state
  | [], g => .refl g
  | key :: keys, g => by
    unfold getStaleOrders
    split
    · refine Outcome.state_bind (P := Aside g) (send_aside ..) fun s hs => ?_
      have counted : Aside s (countUp s) := ⟨rfl, rfl, rfl, rfl, rfl, [], by simp [countUp]⟩
      exact (hs.trans counted).trans (getStaleOrders_aside env t keys _)
    · exact getStaleOrders_aside env t keys g

/-- A batch in which some order is found has a request in flight. -/
theorem getStaleOrders_sent (env : Env) (t : Tick) :
    ∀ (keys : List Key) (g : Gateway ρ), keys.any (fun key => (t.findOrder key).isSome) = true →
      t.refuses g.nextId = none → 0 < outstandingOfBatch (getStaleOrders env t keys g).state
  | key :: keys, g, hfound, hr => by
    unfold getStaleOrders
    split
    · rename_i order _
      rcases send_cases t.refuses (getRequest env t.trace Path.order)
        (.getOrderAck order.clientOrderId) "order" .timer g with ⟨e, hr', -⟩ | ⟨-, hs⟩
      · cases hr.symm.trans hr'
      · rw [getOrder, hs, Outcome.ok_bind]
        refine Nat.lt_of_lt_of_le ?_ (getStaleOrders_aside env t keys _).outstandingOfBatch_le
        simp [Gateway.sent, outstandingOfBatch, countUp, List.countP_append, Callback.isGetOrder]
    · rename_i hnone
      refine getStaleOrders_sent env t keys g ?_ hr
      simpa [hnone] using hfound

/-- The batch is taken up: it has a number of its own, and sends something if
some order is found. -/
theorem staleOrders_taken (env : Env) (t : Tick) (m : Gateway ρ) :
    let s := (staleOrders env t (m.takeUp .staleOrders)).state
    TakenUp s ∧ s.hasResponse .staleOrders = m.hasResponse .staleOrders ∧
      (m.request.detailsStaleOrders.any (fun key => (t.findOrder key).isSome) = true →
        t.refuses m.nextId = none → 0 < outstandingOfBatch s) := by
  have details : (m.takeUp .staleOrders).request.detailsStaleOrders = m.request.detailsStaleOrders :=
    Request.modify_detailsStaleOrders ..
  refine Outcome.state_bind (P := fun s => TakenUp s ∧
    s.hasResponse .staleOrders = m.hasResponse .staleOrders ∧ (_ → _ → 0 < outstandingOfBatch s))
    ?_ fun s hs => ⟨⟨hs.1.1, ?_⟩, ?_, hs.2.2⟩
  · have a := getStaleOrders_aside env t (m.takeUp .staleOrders).request.detailsStaleOrders
      { m.takeUp .staleOrders with batch := (m.takeUp .staleOrders).batch + 1 }
    refine ⟨⟨by rw [a.batch]; exact Nat.succ_pos _, a.wanted.trans ?_⟩, a.hasResponse.trans ?_, ?_⟩
    · simp [Gateway.wanted, Gateway.takeUp]
    · simp [Gateway.hasResponse, Gateway.takeUp]
    · intro hfound hr
      exact getStaleOrders_sent env t _ _ (details ▸ hfound) hr
  · simpa [Gateway.wanted] using hs.1.2
  · simpa [Gateway.hasResponse] using hs.2.1

theorem placeOrder_aside (env : Env) (refuses : Nat → Option Exn) (info : MessageInfo)
    (createOrder : CreateOrder) (refData : RefData) (requestId : String) (g : Gateway ρ) :
    Aside g (placeOrder env refuses info createOrder refData requestId g).state := by
  unfold placeOrder
  repeat' split
  · exact .refl g
  · exact .refl g
  · exact send_aside ..

theorem cancelOrder_aside (env : Env) (refuses : Nat → Option Exn) (info : MessageInfo)
    (cancel : CancelOrder) (order : Order) (requestId : String) (g : Gateway ρ) :
    Aside g (cancelOrder env refuses info cancel order requestId g).state := by
  unfold cancelOrder
  split
  · exact .refl g
  · dsimp only
    split <;> exact send_aside ..

theorem cancelAllOrders_aside (env : Env) (refuses : Nat → Option Exn) (info : MessageInfo)
    (cancel : CancelAllOrders) (requestId : String) (g : Gateway ρ) :
    Aside g (cancelAllOrders env refuses info cancel requestId g).state := by
  unfold cancelAllOrders
  split
  · exact .refl g
  · exact Outcome.state_bind (P := Aside g) (send_aside ..) fun s hs =>
      hs.trans ⟨rfl, rfl, rfl, rfl, rfl, [], by simp [Gateway.push]⟩

end OrderEntry

namespace DropCopy

/-- The order stream asks for the stale orders anew, or leaves the batch alone. -/
theorem Keeps.pending {F : Fatal → Prop} {B : Bool → Prop} {g g' : Gateway ρ} (h : Keeps F B g g')
    (hg : Pending g) : Pending g' := by
  rintro ⟨hb, hw⟩
  rcases h.asked .staleOrders with ⟨hw', -⟩ | ⟨hw', hr⟩
  · rw [hw'] at hw
    cases hw
  · rw [hr, outstandingOfBatch, h.inFlight, h.batch]
    exact hg ⟨h.batch ▸ hb, hw' ▸ hw⟩

theorem Waits.awaited {g : Gateway ρ} (h : Waits g) : Awaited g :=
  fun hs => .inl (h _ _ hs rfl).1

theorem checkStaleOrders_awaited (env : Env) (t : Tick) {g : Gateway ρ} (hg : Awaited g) :
    Awaited (checkStaleOrders env t g) := by
  unfold checkStaleOrders
  split
  · dsimp only
    split
    · exact fun _ => .inl (requestOf_waits _ _).1
    · intro hs
      simpa [findStaleOrders, TakenUp, Gateway.wanted] using hg hs
  · exact hg

end DropCopy

namespace Gateway

open OrderEntry (takesUp ahead)

/-- A timer that takes up the stale orders finds one of them, and its request is
sent. -/
def sendsBatch (t : Tick) (g : Gateway ρ) : Bool :=
  g.request.detailsStaleOrders.any (fun key => (t.findOrder key).isSome) &&
    (t.refuses (g.nextId + ahead t g)).isNone

/-- The last response to the latest batch arrives before one to an earlier
batch, when the request is neither wanted nor answered. -/
def premature (env : Env) (g : Gateway ρ) (i : Nat) (response : Response) : Bool :=
  g.inFlight[i]?.any (fun f => f.callback.isGetOrder && f.batch == g.batch) &&
    outstandingOfBatch g == 1 && decide (1 < outstanding g) && !response.stops env.assertions &&
    !g.wanted .staleOrders && !g.hasResponse .staleOrders

/-- The steps that lose no batch. -/
def KeepsBatch (env : Env) (g : Gateway ρ) : Event → Prop
  | .timer t => takesUp t g = true → sendsBatch t g = true ∨ g.hasResponse .staleOrders = true
  | .response i response => premature env g i response = false
  | _ => True

theorem onTimer_pending (env : Env) {t : Tick} {g : Gateway ρ}
    (he : takesUp t g = true → sendsBatch t g = true ∨ g.hasResponse .staleOrders = true)
    (hg : Pending g) : Pending (OrderEntry.onTimer env t g).state := by
  rcases OrderEntry.onTimer_stale env t g with h | ⟨htakes, m, ha, hid, h⟩
  · exact h.pending hg
  · rw [h]
    obtain ⟨-, hr, hsent⟩ := OrderEntry.staleOrders_taken env t m
    intro _
    rcases he htakes with hsends | hr'
    · rw [sendsBatch, Bool.and_eq_true, Option.isNone_iff_eq_none] at hsends
      exact .inr (hsent (ha.details ▸ hsends.1) (hid ▸ hsends.2))
    · exact .inl (by rw [hr, ha.hasResponse, hr'])

theorem onTimer_awaited (env : Env) (t : Tick) {g : Gateway ρ} (hg : Awaited g) :
    Awaited (OrderEntry.onTimer env t g).state := by
  rcases OrderEntry.onTimer_stale env t g with h | ⟨-, m, -, -, h⟩
  · exact h.awaited hg
  · rw [h]
    exact fun _ => .inr (OrderEntry.staleOrders_taken env t m).1

/-- Responses other than to a `get_order` request leave the batch alone. -/
theorem onResponse_pending {env : Env} {g : Gateway ρ} {i : Nat} {f : InFlight} {response : Response}
    (hf : g.inFlight[i]? = some f) (hget : f.callback.isGetOrder = false) (hg : Pending g) :
    Pending (OrderEntry.onResponse env f response (g.answer i f response)).state := by
  have ha := OrderEntry.onResponse_answers env f response (g.answer i f response)
  have hcount : outstandingOfBatch (g.answer i f response) = outstandingOfBatch g := by
    have := countP_eraseIdx (fun f : InFlight => f.callback.isGetOrder && f.batch == g.batch) hf
    simpa [outstandingOfBatch, answer, hget] using this.symm
  rintro ⟨hb, hw⟩
  rw [ha.hasResponse _ (Callback.which_ne_staleOrders hget), outstandingOfBatch, ha.inFlight, ha.batch]
  rw [ha.wanted] at hw
  rw [ha.batch] at hb
  show _ ∨ 0 < outstandingOfBatch (g.answer i f response)
  rw [hcount]
  exact hg ⟨hb, hw⟩

/-- The response to a `get_order` request commits the batch, or leaves some of
it outstanding. -/
theorem Answered.pending {env : Env} {g g' : Gateway ρ} {i : Nat} {f : InFlight}
    {response : Response} (h : Answered env g g' response (g.answer i f response))
    (hf : g.inFlight[i]? = some f) (hget : f.callback.isGetOrder = true)
    (he : premature env g i response = false) (hg : Pending g) : g'.halted = true ∨ Pending g' := by
  rcases h with ⟨-, rfl⟩ | ⟨-, -, rfl⟩ | ⟨hstops, h1, rfl⟩
  · exact .inl rfl
  · exact .inr fun _ => .inl (by simp [hasResponse, commit])
  · refine .inr fun ht => ?_
    have ht' : TakenUp g := ht
    have hcount := countP_eraseIdx (fun f : InFlight => f.callback.isGetOrder && f.batch == g.batch) hf
    change outstandingOfBatch g = outstandingOfBatch (OrderEntry.countDown (g.answer i f response)) + _
      at hcount
    cases hr : g.hasResponse .staleOrders with
    | true => exact .inl hr
    | false =>
      right
      have hpos := (hg ht').resolve_left (by simp [hr])
      cases hbatch : f.batch == g.batch with
      | false =>
        simp only [hget, hbatch, Bool.and_false, Bool.false_eq_true, if_false] at hcount
        omega
      | true =>
        simp only [premature, hf, hget, hbatch, hstops, ht'.2, hr, Option.any_some, h1, decide_true,
          Bool.and_self, Bool.true_and, Bool.and_true, Bool.not_false, beq_eq_false_iff_ne] at he
        simp only [hget, hbatch, Bool.and_self, if_true] at hcount
        omega

theorem pending_step {env : Env} {g g' : Gateway ρ} {e : Event} (hc : Counted g)
    (he : KeepsBatch env g e) (h : step env g e = some g') (hg : Pending g) :
    g'.halted = true ∨ Pending g' := by
  obtain ⟨i, response, f, rfl, hf, hget, ha⟩ | ⟨hother, -, -⟩ := stale_step hc h
  · exact ha.pending hf hget he hg
  · refine .inr (invariant_step (fun _ h => h) (fun s hs => ?_) h)
    cases e with
    | restConnected | restDisconnected | socketDisconnected =>
      subst hs
      exact hg
    | socketReady trace =>
      obtain ⟨-, rfl⟩ := hs
      exact hg
    | timer t =>
      have hm := onTimer_pending env he hg
      rcases hs with ⟨-, rfl⟩ | ⟨m, ho, rfl⟩
      · exact hm
      · rw [ho] at hm
        exact (DropCopy.onTimer_keeps' env t m).pending hm
    | text message =>
      obtain ⟨-, ⟨-, rfl⟩ | ⟨m, -, rfl⟩⟩ := hs
      · exact hg
      · exact (DropCopy.onMessage_keeps' env m g).pending hg
    | response i response =>
      obtain ⟨f, hf, rfl⟩ := hs
      exact onResponse_pending hf (hother i response f rfl hf) hg
    | createOrder => exact hs ▸ (OrderEntry.placeOrder_aside ..).pending hg
    | cancelOrder => exact hs ▸ (OrderEntry.cancelOrder_aside ..).pending hg
    | cancelAllOrders => exact hs ▸ (OrderEntry.cancelAllOrders_aside ..).pending hg

theorem awaited_step {env : Env} {g g' : Gateway ρ} {e : Event} (h : step env g e = some g')
    (hg : Awaited g) : Awaited g' := by
  refine invariant_step (fun _ h => h) (fun s hs => ?_) h
  cases e with
  | restConnected | restDisconnected | socketDisconnected =>
    subst hs
    exact hg
  | socketReady trace =>
    obtain ⟨-, rfl⟩ := hs
    exact hg
  | timer t =>
    have hm := onTimer_awaited env t hg
    rcases hs with ⟨-, rfl⟩ | ⟨m, ho, rfl⟩
    · exact hm
    · rw [ho] at hm
      exact DropCopy.onTimer_waiting (fun _ => DropCopy.Waits.awaited) (fun _ _ _ h => h)
        (fun _ => DropCopy.checkStaleOrders_awaited env t) hm
  | text message =>
    obtain ⟨-, ⟨-, rfl⟩ | ⟨m, -, rfl⟩⟩ := hs
    · exact hg
    · exact DropCopy.onMessage_waiting (fun _ => DropCopy.Waits.awaited) (fun _ _ _ h => h) env m hg
  | response i response =>
    obtain ⟨f, hf, rfl⟩ := hs
    have ha := OrderEntry.onResponse_answers env f response (g.answer i f response)
    intro hstate
    rw [ha.dropCopy] at hstate
    rw [TakenUp, ha.wanted, ha.batch]
    exact hg hstate
  | createOrder => exact hs ▸ (OrderEntry.placeOrder_aside ..).awaited hg
  | cancelOrder => exact hs ▸ (OrderEntry.cancelOrder_aside ..).awaited hg
  | cancelAllOrders => exact hs ▸ (OrderEntry.cancelAllOrders_aside ..).awaited hg

/-- In runs that lose no batch, stale orders that have been taken up are
answered or being asked for while the process runs, and the download is not
stuck with them. -/
theorem batch_outstanding_of_sent (env : Env) (g : Gateway ρ)
    (h : (machine ρ env).Reach (KeepsBatch env) g) (hlive : g.halted = false) :
    (TakenUp g → g.hasResponse .staleOrders = true ∨ 0 < outstandingOfBatch g) ∧
    (g.dropCopy.download.state = some .getStaleOrders →
      g.wanted .staleOrders = true ∨ g.hasResponse .staleOrders = true ∨ 0 < outstanding g) := by
  have inv : (g.halted = true ∨ Pending g) ∧ Awaited g := by
    refine h.invariant_of (I := fun g => (g.halted = true ∨ Pending g) ∧ Awaited g)
      (fun g hg => (stale_orders_counter env g hg.reachable).1) ⟨.inr nofun, nofun⟩ ?_
    rintro s e s' hcount ⟨hp, ha⟩ he hstep
    have hrun := not_halted_of_step hstep
    exact ⟨pending_step (hcount hrun) he hstep (hp.resolve_left (by simp [hrun])),
      awaited_step hstep ha⟩
  have hp : Pending g := inv.1.resolve_left (by simp [hlive])
  refine ⟨hp, fun hs => (inv.2 hs).imp_right fun ht => (hp ht).imp_right fun hn => ?_⟩
  exact hn.trans_le (outstandingOfBatch_le g)

instance (env : Env) (g : Gateway ρ) : ∀ e : Event, Decidable (KeepsBatch env g e)
  | .timer t => inferInstanceAs
    (Decidable (takesUp t g = true → sendsBatch t g = true ∨ g.hasResponse .staleOrders = true))
  | .response i response => inferInstanceAs (Decidable (premature env g i response = false))
  | .restConnected | .restDisconnected | .socketReady _ | .socketDisconnected | .text _
  | .createOrder .. | .cancelOrder .. | .cancelAllOrders .. => .isTrue trivial

/-- A stale order that is found is being asked for. -/
theorem batch_outstanding_found : ∃ g : Gateway Reader.Flags,
    TakenUp g ∧ (g.hasResponse .staleOrders = true ∨ 0 < outstandingOfBatch g) := by
  obtain ⟨g, hg, hlive, ht⟩ := Machine.exists_reach (M := Reader.flags) (C := KeepsBatch Reader.env)
    (P := fun g => g.halted = false ∧ 0 < g.batch ∧ g.wanted .staleOrders = false)
    (Reader.login ++ Reader.download ++ [.timer Reader.staleTick, .timer Reader.staleTick])
    (by decide +kernel)
  exact ⟨g, ht, (batch_outstanding_of_sent Reader.env g hg hlive).1 ht⟩

/-- A stale order that is no longer found when the batch is sent leaves the
download stuck: nothing is wanted, outstanding or answered. -/
theorem batch_lost : ∃ g : Gateway Reader.Flags,
    Reader.flags.Reachable g ∧ g.halted = false ∧ TakenUp g ∧
      g.dropCopy.download.state = some .getStaleOrders ∧ g.wanted .staleOrders = false ∧
      g.hasResponse .staleOrders = false ∧ g.inFlight = [] := by
  obtain ⟨g, hg, hlive, hb, hs, hw, hr, hf⟩ := Machine.exists_reach (M := Reader.flags)
    (C := fun _ _ => True)
    (P := fun g => g.halted = false ∧ 0 < g.batch ∧
      g.dropCopy.download.state = some .getStaleOrders ∧ g.wanted .staleOrders = false ∧
      g.hasResponse .staleOrders = false ∧ g.inFlight.length = 0)
    (Reader.login ++ Reader.download ++ [.timer Reader.staleTick, .timer Reader.tick])
    (by decide +kernel)
  exact ⟨g, hg, hlive, ⟨hb, hw⟩, hs, hw, hr, List.length_eq_zero_iff.mp hf⟩

end Gateway

end RoqHtx

import RoqHtx.Proof.Acks
import RoqHtx.Proof.Steps

/-!
# Which request a response is dispatched for

A request in flight calls back with what was captured when it was sent
(`Correlated`), so a response goes to the user and the order of its request. It
also names the type and version of its request if that is a create request, but
never if it is a cancel request: those are reported as create requests. Hence
every dispatched response identifies its request in exactly the runs in which
nothing is dispatched for a cancel request (`responses_identified_iff`).
-/

namespace RoqHtx

open OrderEntry

variable {ρ : Type}

/-! ## What is captured -/

/-- The callback of a request is the one for what caused it. -/
def Captured (f : InFlight) : Prop :=
  match f.cause with
  | .timer => f.callback = .accountsAck ∨ f.callback = .balanceAck ∨ f.callback = .openOrdersAck ∨
    f.callback.isGetOrder = true
  | .createOrder info createOrder => f.callback = .placeOrderAck info.source createOrder.orderId
  | .cancelOrder info cancelOrder => f.callback = .cancelOrderAck info.source cancelOrder.orderId
  | .cancelAllOrders _ _ => f.callback = .cancelAllOrdersAck

def Correlated (g : Gateway ρ) : Prop := ∀ f ∈ g.inFlight, Captured f

/-- The response identifies the request it answers. -/
def identifies (cause : Cause) (response : OmsResponse) (userId : UInt8) (orderId : UInt64) : Bool :=
  match cause with
  | .createOrder info createOrder => userId == info.source && orderId == createOrder.orderId &&
    response.requestType == .createOrder && response.version == 1
  | .cancelOrder info cancelOrder => userId == info.source && orderId == cancelOrder.orderId &&
    response.requestType == .cancelOrder && response.version == cancelOrder.version
  | .timer | .cancelAllOrders _ _ => false

/-- A dispatched response identifies the request that has just been answered. -/
def identified (before : List Entry) : Entry → Bool
  | .omsResponse response userId orderId =>
    match before.head? with
    | some (.answered f _) => identifies f.cause response userId orderId
    | _ => false
  | _ => true

/-- Every response that has been dispatched identifies the request it answers. -/
def Identified (g : Gateway ρ) : Prop := Always (fun l x => identified l x = true) g.log

instance (g : Gateway ρ) : Decidable (Identified g) :=
  inferInstanceAs (Decidable (Always (fun l x => identified l x = true) g.log))

/-- An entry that dispatches no response to a create or cancel request. -/
def Undispatched : Entry → Prop
  | .omsResponse _ _ _ => False
  | _ => True

theorem Undispatched.identified {x : Entry} (h : Undispatched x) (l : List Entry) :
    identified l x = true := by
  cases x <;> first | rfl | exact h.elim

theorem captured_of_polled [LimitRequest ρ] {env : Env} {t : Tick} {g : Gateway ρ} {f : InFlight}
    (h : Polled env t g f) : Captured f := by
  obtain ⟨-, -, hcause, w, -, -, hpolls⟩ := h
  rw [Captured, hcause]
  cases w with
  | account => exact .inl hpolls.1
  | balances => exact .inr (.inl hpolls.1)
  | openOrders => exact .inr (.inr (.inl hpolls.1))
  | staleOrders =>
    obtain ⟨⟨id, hid⟩, -⟩ := hpolls
    exact .inr (.inr (.inr (hid ▸ rfl)))

theorem captured_of_ordered {g : Gateway ρ} {cause : Cause} {f : InFlight}
    (h : Ordered g cause f) : Captured f := by
  obtain ⟨-, hcause, h⟩ := h
  unfold Captured
  rw [hcause]
  cases cause with
  | timer => exact h.elim
  | createOrder | cancelOrder | cancelAllOrders => exact h.1

theorem OrderEntry.Sends.correlated [LimitRequest ρ] {R : InFlight → Prop} {g g' : Gateway ρ}
    (h : Sends R g g') (hR : ∀ f, R f → Captured f) (hg : Correlated g) : Correlated g' := by
  obtain ⟨l, hl, hnew⟩ := h.inFlight
  intro f hf
  rw [hl] at hf
  exact (List.mem_append.mp hf).elim (hg f) fun hm => hR f (hnew f hm)

/-! ## Responses -/

/-- A request to cancel an order. -/
def InFlight.isCancel (f : InFlight) : Bool :=
  match f.cause with
  | .cancelOrder _ _ => true
  | _ => false

theorem undispatched_of_replies {c : Callback}
    (hplace : ∀ userId orderId, c ≠ .placeOrderAck userId orderId)
    (hcancel : ∀ userId orderId, c ≠ .cancelOrderAck userId orderId) {x : Entry} (h : Replies c x) :
    Undispatched x := by
  cases x with
  | omsResponse response userId orderId =>
    cases c with
    | placeOrderAck => exact absurd rfl (hplace _ _)
    | cancelOrderAck => exact absurd rfl (hcancel _ _)
    | _ => exact h
  | _ => trivial

variable [LimitRequest ρ]

/-- A response identifies its request, but for one to a cancel request for which
a handler is called. -/
theorem onResponse_identified (env : Env) {f : InFlight} (hf : Captured f) (response : Response)
    (hcancel : f.isCancel = true → response.unhandled env.assertions = true) {g : Gateway ρ}
    (hhead : g.log.head? = some (.answered f response))
    (hg : Identified g) : Identified (onResponse env f response g).state := by
  have undispatched : (∀ userId orderId, f.callback ≠ .placeOrderAck userId orderId) →
      (∀ userId orderId, f.callback ≠ .cancelOrderAck userId orderId) →
      Identified (onResponse env f response g).state :=
    fun hplace hcancel => (onResponse_answers env f response g).log.always
      (fun _ _ hx _ => (undispatched_of_replies hplace hcancel hx).identified _) hg
  unfold Captured at hf
  cases hc : f.cause with
  | timer =>
    simp only [hc] at hf
    refine undispatched (fun _ _ h => ?_) fun _ _ h => ?_ <;>
      simp [h, Callback.isGetOrder] at hf
  | createOrder info create =>
    simp only [hc] at hf
    have dispatched : ∀ r : OmsResponse, r.requestType = .createOrder → r.version = 1 →
        identified g.log (.omsResponse r info.source create.orderId) = true := by
      intro r htype hversion
      simp [identified, hhead, identifies, hc, htype, hversion]
    unfold onResponse
    simp only [hf, placeOrderAck, orderAck_eq]
    refine Verdict.run_state (P := Identified) (fun _ _ _ _ => ?_) (fun ack => ?_) hg _
    · exact ⟨dispatched _ rfl rfl, hg⟩
    split
    · exact ⟨dispatched _ rfl rfl, hg⟩
    · exact ⟨dispatched _ rfl rfl, hg⟩
  | cancelOrder info cancel =>
    simp only [hc] at hf
    have hunhandled := (Response.unhandled_iff _ env.decode.cancelOrderAck _).mp
      (hcancel (by simp [InFlight.isCancel, hc]))
    unfold onResponse
    simp only [hf, cancelOrderAck, orderAck_eq]
    rcases hunhandled with h | h <;> rw [h] <;> exact hg
  | cancelAllOrders info cancel =>
    simp only [hc] at hf
    exact undispatched (fun _ _ h => by cases hf.symm.trans h) fun _ _ h => by cases hf.symm.trans h

/-- The response to a cancel request is never identified, if a handler is called
for it. -/
theorem onResponse_not_identified (env : Env) {f : InFlight} (hf : Captured f)
    (hcancel : f.isCancel = true) {response : Response}
    (hresponse : response.unhandled env.assertions = false) {g : Gateway ρ}
    (hhead : g.log.head? = some (.answered f response)) :
    ¬Identified (onResponse env f response g).state := by
  unfold InFlight.isCancel at hcancel
  split at hcancel
  swap
  · cases hcancel
  rename_i info cancel hc
  unfold Captured at hf
  simp only [hc] at hf
  have misidentified : ∀ r : OmsResponse, r.requestType = .createOrder →
      ¬Identified (g.push (.omsResponse r info.source cancel.orderId)) := by
    intro r htype h
    have := h.1
    simp [identified, hhead, identifies, hc, htype] at this
  unfold onResponse
  simp only [hf, cancelOrderAck, orderAck_eq]
  cases hv : response.verdict env.assertions env.decode.cancelOrderAck with
  | raised e => exact misidentified _ rfl
  | body ack =>
    simp only [Verdict.run, Outcome.state_ok]
    split
    · exact misidentified _ rfl
    · exact misidentified _ rfl
  | failed error text => exact misidentified _ rfl
  | silent | stop =>
    have := Response.unhandled_iff env.assertions env.decode.cancelOrderAck response
    simp [hv, hresponse] at this

/-! ## Runs -/

namespace Gateway

/-- Whether a step calls a handler for the response to a cancel request. -/
def answersCancel (env : Env) (g : Gateway ρ) : Event → Bool
  | .response i response =>
    g.inFlight[i]?.any (·.isCancel) && !response.unhandled env.assertions
  | _ => false

theorem Leaves.correlated {env : Env} {g s : Gateway ρ} {e : Event} (h : Leaves env g s e)
    (hg : Correlated g) : Correlated s := by
  cases e with
  | restConnected | restDisconnected | socketDisconnected =>
    subst h
    exact hg
  | socketReady trace =>
    obtain ⟨-, rfl⟩ := h
    exact hg
  | timer t =>
    have hm := (onTimer_sends env t g).correlated (fun _ => captured_of_polled) hg
    rcases h with ⟨-, rfl⟩ | ⟨m, ho, rfl⟩
    · exact hm
    · rw [ho] at hm
      have k := DropCopy.onTimer_keeps' env t m
      rwa [Correlated, k.inFlight]
  | text message =>
    obtain ⟨-, ⟨-, rfl⟩ | ⟨m, -, rfl⟩⟩ := h
    · exact hg
    · have k := DropCopy.onMessage_keeps' env m g
      rwa [Correlated, k.inFlight]
  | response i response =>
    obtain ⟨f, -, rfl⟩ := h
    rw [Correlated, (onResponse_answers env f response _).inFlight]
    exact fun f' hf' => hg f' (List.mem_of_mem_eraseIdx hf')
  | createOrder =>
    subst h
    exact (placeOrder_sends ..).correlated (fun _ => captured_of_ordered) hg
  | cancelOrder =>
    subst h
    exact (cancelOrder_sends ..).correlated (fun _ => captured_of_ordered) hg
  | cancelAllOrders =>
    subst h
    exact (cancelAllOrders_sends ..).correlated (fun _ => captured_of_ordered) hg

theorem Leaves.identified {env : Env} {g s : Gateway ρ} {e : Event} (h : Leaves env g s e)
    (hc : Correlated g) (he : answersCancel env g e = false) (hg : Identified g) : Identified s := by
  by_cases hresponse : ∃ i response, e = .response i response
  · obtain ⟨i, response, rfl⟩ := hresponse
    obtain ⟨f, hf, rfl⟩ := h
    refine onResponse_identified env (hc f (List.mem_of_getElem? hf)) response (fun hcancel => ?_) rfl
      ⟨rfl, hg⟩
    simpa [answersCancel, hf, hcancel] using he
  · refine h.makes'.always (fun x pre hx _ => ?_) hg
    refine Undispatched.identified ?_ _
    cases x with
    | omsResponse =>
      cases e with
      | response i response => exact hresponse ⟨i, response, rfl⟩
      | _ => simp [Makes, Asks, DropCopy.Writes] at hx
    | _ => trivial

theorem correlated_of_reachable {env : Env} {g : Gateway ρ} (h : (machine ρ env).Reachable g) :
    Correlated g :=
  h.invariant (I := Correlated) (fun _ hf => absurd hf List.not_mem_nil) fun _ _ _ hc _ hstep =>
    invariant_step (P := Correlated) (fun _ h => h) (fun _ hl => hl.correlated hc) hstep

/-- The runs in which every dispatched response identifies the request it
answers are those in which no handler is called for the response to a cancel
request. -/
theorem responses_identified_iff (env : Env) (g : Gateway ρ) :
    (machine ρ env).Reach (fun g e => answersCancel env g e = false) g ↔
      (machine ρ env).Reachable g ∧ Identified g := by
  constructor
  · refine fun h => ⟨h.reachable, h.invariant_of (I := Identified)
      (fun _ hs => correlated_of_reachable hs.reachable) trivial fun s e s' hc hs he hstep => ?_⟩
    exact invariant_step (P := Identified) (fun _ h => h) (fun _ hl => hl.identified hc he hs) hstep
  · rintro ⟨h, hg⟩
    induction h with
    | init => exact .init
    | step hr _ hstep ih =>
      refine .step (ih ((grows_of_step hstep).of_always hg)) ?_ hstep
      by_contra he
      rw [Bool.not_eq_false] at he
      unfold answersCancel at he
      split at he
      · obtain ⟨f, hf, rfl⟩ := response_step hstep
        simp only [hf, Option.any_some, Bool.and_eq_true, Bool.not_eq_true'] at he
        refine finish_rule (P := fun s => ¬Identified s) (fun _ h => h) ?_ hg
        exact onResponse_not_identified env
          (correlated_of_reachable hr f (List.mem_of_getElem? hf)) he.1 he.2 rfl
      · cases he

/-- The acceptance of a cancel request is dispatched as that of a create
request, at the first version. -/
theorem cancel_misidentified : ∃ g : Gateway Reader.Flags,
    Reader.flags.Reachable g ∧ ¬Identified g ∧
      g.log.any (fun x => x matches
        .omsResponse { requestType := .createOrder, version := 1, .. } 1 1001) = true :=
  Machine.exists_reach
    [.restConnected, Reader.cancel, .response 0 (Reader.success Reader.cancelOrderBody)]
    (by decide +kernel)

end Gateway

end RoqHtx

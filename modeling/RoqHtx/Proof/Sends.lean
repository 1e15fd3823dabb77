import RoqHtx.Proof.Encoding
import RoqHtx.Proof.Frame

/-!
# What order entry leaves alone when it sends

`OrderEntry` sends on a timer and on order actions. It keeps `DropCopy` and
every response on record, takes up requests without asking for any, and hands
the REST client requests of one kind only (`OrderEntry.Sends`): those of a timer
are `Polled`, those of an order action `Ordered`.
-/

namespace RoqHtx

variable {ρ : Type}

/-! ## Sending -/

/-- A request has been handed to the REST client. -/
def Gateway.sent (f : InFlight) (g : Gateway ρ) : Gateway ρ :=
  { g with
    inFlight := g.inFlight ++ [f]
    nextId := g.nextId + 1
    log := .restRequest f :: g.log }

namespace OrderEntry

theorem send_cases (refuses : Nat → Option Exn) (request : RestRequest) (callback : Callback)
    (requestId : String) (cause : Cause) (g : Gateway ρ) :
    (∃ e, refuses g.nextId = some e ∧
      g.send refuses request callback requestId cause = .throws e g) ∨
    (refuses g.nextId = none ∧
      g.send refuses request callback requestId cause =
        .ok (g.sent ⟨g.nextId, request, callback, requestId, cause, g.batch⟩)) := by
  unfold Gateway.send
  split
  · rename_i e he
    exact .inl ⟨e, he, rfl⟩
  · rename_i he
    exact .inr ⟨he, rfl⟩

variable [LimitRequest ρ]

/-- The entries of requests, each of which satisfies `R`. -/
def Asks (R : InFlight → Prop) : Entry → Prop
  | .restRequest f => R f
  | .takeUp _ | .cancelAllOrdersAck _ => True
  | _ => False

/-- What order entry leaves alone when it sends requests that satisfy `R`. -/
structure Sends (R : InFlight → Prop) (g g' : Gateway ρ) : Prop where
  dropCopy : g'.dropCopy = g.dropCopy
  connectionStatus : g'.orderEntry.connectionStatus = g.orderEntry.connectionStatus
  accountId : g'.orderEntry.accountId = g.orderEntry.accountId
  hasResponse : ∀ w, g'.hasResponse w = g.hasResponse w
  wanted : ∀ w, g'.wanted w = true → g.wanted w = true
  details : g'.request.detailsStaleOrders = g.request.detailsStaleOrders ∨
    g'.request.detailsStaleOrders = []
  inFlight : ∃ new, g'.inFlight = g.inFlight ++ new ∧ ∀ f ∈ new, R f
  socketUp : g'.socketUp = g.socketUp
  log : Grows (Asks R) g g'

namespace Sends

variable {R : InFlight → Prop}

theorem refl (g : Gateway ρ) : Sends R g g :=
  ⟨rfl, rfl, rfl, fun _ => rfl, fun _ h => h, .inl rfl, ⟨[], by simp⟩, rfl, .refl g⟩

theorem trans {a b c : Gateway ρ} (h : Sends R a b) (h' : Sends R b c) : Sends R a c where
  dropCopy := h'.dropCopy.trans h.dropCopy
  connectionStatus := h'.connectionStatus.trans h.connectionStatus
  accountId := h'.accountId.trans h.accountId
  hasResponse w := (h'.hasResponse w).trans (h.hasResponse w)
  wanted w hw := h.wanted w (h'.wanted w hw)
  details := h'.details.elim (fun e => by rw [e]; exact h.details) .inr
  inFlight := by
    obtain ⟨l, hl, hR⟩ := h.inFlight
    obtain ⟨l', hl', hR'⟩ := h'.inFlight
    refine ⟨l ++ l', by rw [hl', hl, List.append_assoc], fun f hf => ?_⟩
    exact (List.mem_append.mp hf).elim (hR f) (hR' f)
  socketUp := h'.socketUp.trans h.socketUp
  log := h.log.trans h'.log

/-- A piece that touches neither requests nor history. -/
theorem of_eq {g g' : Gateway ρ} (hd : g'.dropCopy = g.dropCopy)
    (hc : g'.orderEntry.connectionStatus = g.orderEntry.connectionStatus)
    (ha : g'.orderEntry.accountId = g.orderEntry.accountId) (hr : g'.request = g.request)
    (hf : g'.inFlight = g.inFlight) (hs : g'.socketUp = g.socketUp) (hl : g'.log = g.log) :
    Sends R g g' where
  dropCopy := hd
  connectionStatus := hc
  accountId := ha
  hasResponse w := by rw [Gateway.hasResponse, hr, Gateway.hasResponse]
  wanted w h := by rwa [Gateway.wanted, hr] at h
  details := .inl (by rw [hr])
  inFlight := ⟨[], by simpa using hf, by simp⟩
  socketUp := hs
  log := .of_eq hl

end Sends

section

variable {R : InFlight → Prop}

theorem send_sends {refuses : Nat → Option Exn} {request : RestRequest} {callback : Callback}
    {requestId : String} {cause : Cause} {g : Gateway ρ}
    (h : R ⟨g.nextId, request, callback, requestId, cause, g.batch⟩) :
    Sends R g (g.send refuses request callback requestId cause).state := by
  rcases send_cases refuses request callback requestId cause g with ⟨e, -, hs⟩ | ⟨-, hs⟩
  · rw [hs]
    exact .refl g
  · rw [hs]
    exact ⟨rfl, rfl, rfl, fun _ => rfl, fun _ h => h, .inl rfl, ⟨[_], rfl, by simpa using h⟩, rfl,
      .of_cons rfl h⟩

theorem takeUp_sends (w : Which) (g : Gateway ρ) : Sends R g (g.takeUp w) where
  dropCopy := rfl
  connectionStatus := rfl
  accountId := rfl
  hasResponse v := by
    by_cases h : v = w
    · subst h
      simp [Gateway.hasResponse, Gateway.takeUp]
    · simp [Gateway.hasResponse, Gateway.takeUp, Request.get_modify_of_ne _ _ h]
  wanted v hv := by
    by_cases h : v = w
    · subst h
      simp [Gateway.wanted, Gateway.takeUp] at hv
    · simpa [Gateway.wanted, Gateway.takeUp, Request.get_modify_of_ne _ _ h] using hv
  details := .inl (by simp [Gateway.takeUp])
  inFlight := ⟨[], by simp [Gateway.takeUp]⟩
  socketUp := rfl
  log := .of_cons rfl trivial

theorem checkPending_sends {canRequest : Which → Bool} {w : Which}
    {callback : Gateway ρ → Outcome Exn (Gateway ρ)} {g : Gateway ρ}
    (h : g.wanted w = true → canRequest w = true →
      Sends R (g.takeUp w) (callback (g.takeUp w)).state) :
    Sends R g (g.checkPending canRequest w callback).state := by
  unfold Gateway.checkPending
  split
  · rename_i hw
    rw [Bool.and_eq_true] at hw
    exact (takeUp_sends w g).trans (h hw.1 hw.2)
  · exact .refl g

end

/-! ### Requests of the timer -/

/-- What the timer sends for a request that it has taken up. -/
def Polls (env : Env) (t : Tick) (accountId : Int) (f : InFlight) : Which → Prop
  | .account => f.callback = .accountsAck ∧ f.request = getRequest env t.trace Path.accounts
  | .balances =>
    f.callback = .balanceAck ∧ f.request = getRequest env t.trace (Path.balance accountId)
  | .openOrders => f.callback = .openOrdersAck ∧ f.request = getRequest env t.trace Path.openOrders
  | .staleOrders => (∃ id, f.callback = .getOrderAck id) ∧
    f.request = getRequest env t.trace Path.order

/-- What the timer sends, and when. -/
def Polled (env : Env) (t : Tick) (g : Gateway ρ) (f : InFlight) : Prop :=
  t.restRefresh = true ∧ ready g = true ∧ f.cause = .timer ∧
    ∃ w, g.wanted w = true ∧ t.canRequest w = true ∧ Polls env t g.orderEntry.accountId f w

theorem getStaleOrders_sends {R : InFlight → Prop} {env : Env} {t : Tick}
    (h : ∀ f : InFlight, f.cause = .timer → (∃ id, f.callback = .getOrderAck id) →
      f.request = getRequest env t.trace Path.order → R f) :
    ∀ (keys : List Key) (g : Gateway ρ), Sends R g (getStaleOrders env t keys g).state
  | [], g => .refl g
  | key :: keys, g => by
    unfold getStaleOrders
    split
    · refine Outcome.state_bind (P := Sends R g) (send_sends (h _ rfl ⟨_, rfl⟩ rfl)) fun s hs => ?_
      have counted : Sends R s (countUp s) := .of_eq rfl rfl rfl rfl rfl rfl rfl
      exact (hs.trans counted).trans (getStaleOrders_sends h keys _)
    · exact getStaleOrders_sends h keys g

theorem staleOrders_sends {R : InFlight → Prop} {env : Env} {t : Tick}
    (h : ∀ f : InFlight, f.cause = .timer → (∃ id, f.callback = .getOrderAck id) →
      f.request = getRequest env t.trace Path.order → R f) (g : Gateway ρ) :
    Sends R g (staleOrders env t g).state := by
  have batch : Sends R g { g with batch := g.batch + 1 } := .of_eq rfl rfl rfl rfl rfl rfl rfl
  refine Outcome.state_bind (P := Sends R g) (batch.trans (getStaleOrders_sends h _ _))
    fun s hs => hs.trans ?_
  exact ⟨rfl, rfl, rfl, fun w => by simp [Gateway.hasResponse],
    fun w h => by simpa [Gateway.wanted] using h, .inr rfl, ⟨[], by simp⟩, rfl, .of_eq rfl⟩

theorem onTimer_sends (env : Env) (t : Tick) (g : Gateway ρ) :
    Sends (Polled env t g) g (onTimer env t g).state := by
  unfold onTimer
  split
  · rename_i hg
    rw [Bool.and_eq_true] at hg
    have polled : ∀ (s : Gateway ρ) (w : Which) (f : InFlight), Sends (Polled env t g) g s →
        s.wanted w = true → t.canRequest w = true → f.cause = .timer →
        Polls env t s.orderEntry.accountId f w → Polled env t g f :=
      fun s w f hs hw hc hcause h =>
        ⟨hg.1, hg.2, hcause, w, hs.wanted w hw, hc, hs.accountId ▸ h⟩
    refine Outcome.state_bind (P := Sends (Polled env t g) g) ?_ fun s hs => ?_
    · exact checkPending_sends fun hw hc =>
        send_sends (polled g .account _ (.refl g) hw hc rfl ⟨rfl, rfl⟩)
    refine Outcome.state_bind (P := Sends (Polled env t g) g) ?_ fun s hs => ?_
    · exact hs.trans (checkPending_sends fun hw hc =>
        send_sends (polled s .balances _ hs hw hc rfl ⟨rfl, rfl⟩))
    refine Outcome.state_bind (P := Sends (Polled env t g) g) ?_ fun s hs => ?_
    · exact hs.trans (checkPending_sends fun hw hc =>
        send_sends (polled s .openOrders _ hs hw hc rfl ⟨rfl, rfl⟩))
    exact hs.trans (checkPending_sends fun hw hc => staleOrders_sends
      (fun f hcause hcb hreq => polled s .staleOrders f hs hw hc hcause ⟨hcb, hreq⟩) _)
  · exact .refl g

/-! ### Order actions -/

/-- What an order action sends, and when: the callback has captured who asked
for what. -/
def Ordered (g : Gateway ρ) (cause : Cause) (f : InFlight) : Prop :=
  ready g = true ∧ f.cause = cause ∧
    match cause with
    | .timer => False
    | .createOrder info create => f.callback = .placeOrderAck info.source create.orderId ∧
      ∃ body, f.request.body = .placeOrder body ∧ body.accountId = g.orderEntry.accountId
    | .cancelOrder info cancel => f.callback = .cancelOrderAck info.source cancel.orderId ∧
      ∀ body, f.request.body ≠ .placeOrder body
    | .cancelAllOrders _ _ => f.callback = .cancelAllOrdersAck ∧
      ∀ body, f.request.body ≠ .placeOrder body

theorem encoder_accountId {formats : Formats} {createOrder : CreateOrder} {refData : RefData}
    {requestId : String} {accountId : Int} {body : PlaceOrderBody}
    (h : Encoder.placeOrder formats createOrder refData requestId accountId = .ok body) :
    body.accountId = accountId :=
  congrArg PlaceOrderBody.accountId (Encoder.placeOrder_eq_ok h).2

theorem placeOrder_sends (env : Env) (refuses : Nat → Option Exn) (info : MessageInfo)
    (createOrder : CreateOrder) (refData : RefData) (requestId : String) (g : Gateway ρ) :
    Sends (Ordered g (.createOrder info createOrder)) g
      (placeOrder env refuses info createOrder refData requestId g).state := by
  unfold placeOrder
  split
  · exact .refl g
  · rename_i hg
    split
    · exact .refl g
    · rename_i body hbody
      exact send_sends ⟨by simpa using hg, rfl, rfl, body, rfl, encoder_accountId hbody⟩

theorem cancelOrder_sends (env : Env) (refuses : Nat → Option Exn) (info : MessageInfo)
    (cancel : CancelOrder) (order : Order) (requestId : String) (g : Gateway ρ) :
    Sends (Ordered g (.cancelOrder info cancel)) g
      (cancelOrder env refuses info cancel order requestId g).state := by
  unfold cancelOrder
  split
  · exact .refl g
  · rename_i hg
    dsimp only
    split <;> exact send_sends ⟨by simpa using hg, rfl, rfl, fun _ h => by cases h⟩

theorem cancelAllOrders_sends (env : Env) (refuses : Nat → Option Exn) (info : MessageInfo)
    (cancel : CancelAllOrders) (requestId : String) (g : Gateway ρ) :
    Sends (Ordered g (.cancelAllOrders info cancel)) g
      (cancelAllOrders env refuses info cancel requestId g).state := by
  unfold cancelAllOrders
  split
  · exact .refl g
  · rename_i hg
    refine Outcome.state_bind (P := Sends (Ordered g (.cancelAllOrders info cancel)) g)
      (send_sends ⟨by simpa using hg, rfl, rfl, fun _ h => by cases h⟩) fun s hs => hs.trans ?_
    exact ⟨rfl, rfl, rfl, fun _ => rfl, fun _ h => h, .inl rfl, ⟨[], by simp [Gateway.push]⟩, rfl,
      .of_cons rfl trivial⟩

end OrderEntry

end RoqHtx

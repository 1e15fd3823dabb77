import RoqHtx.Proof.Frame
import RoqHtx.Proof.Responses

/-!
# What order entry leaves alone when it is answered

A response is handled by the callback of its request, as its verdict says
(`downloadAck_cases`, `orderAck_eq`, `cancelAllOrdersAck_eq`,
`getOrderAck_cases`). It is reported in entries of that callback's (`Reports`),
and commits at most the request that the callback is for (`OrderEntry.Answers`).
-/

namespace RoqHtx

variable {ρ α : Type}

namespace Callback

theorem getOrderAck_of_isGetOrder {c : Callback} (h : c.isGetOrder = true) :
    ∃ id, c = .getOrderAck id := by
  cases c <;> first | exact ⟨_, rfl⟩ | cases h

/-- The request that is committed with the response. -/
def which : Callback → Option Which
  | .accountsAck => some .account
  | .balanceAck => some .balances
  | .openOrdersAck => some .openOrders
  | .getOrderAck _ => some .staleOrders
  | .placeOrderAck _ _ | .cancelOrderAck _ _ | .cancelAllOrdersAck => none

theorem which_ne_staleOrders {c : Callback} (h : c.isGetOrder = false) :
    c.which ≠ some .staleOrders := by
  cases c with
  | getOrderAck id => cases h
  | _ => exact nofun

end Callback

/-- The HTTP category is success, and the body decodes with status ok. -/
def Response.succeeds (decode : String → Except Exn α) (toAck : α → Json.Ack)
    (response : Response) : Bool :=
  (response.decoded decode).any fun ack => (toAck ack).status == .ok

theorem Response.succeeds_iff (assertions : Bool) (decode : String → Except Exn α)
    (toAck : α → Json.Ack) (response : Response) :
    response.succeeds decode toAck = true ↔
      ∃ ack, response.verdict assertions decode = .body ack ∧ (toAck ack).status = .ok := by
  simp only [Response.succeeds, Option.any_eq_true, beq_iff_eq, decoded_eq_some_iff assertions]

namespace OrderEntry

/-! ## By verdict -/

/-- How both order actions report a failure. -/
def dispatchFailure (userId : UInt8) (orderId : UInt64) (version : UInt32) :
    ErrorHandler (Gateway ρ) := fun origin status error text g =>
  g.push (.omsResponse (failure origin status error text version) userId orderId)

theorem orderAck_eq (env : Env) (decode : String → Except Exn α) (toAck : α → Json.Ack)
    (onAck : α → UInt8 → UInt64 → UInt32 → Gateway ρ → Gateway ρ) (response : Response)
    (userId : UInt8) (orderId : UInt64) (version : UInt32) (g : Gateway ρ) :
    orderAck env decode toAck onAck response userId orderId version g =
      (response.verdict env.assertions decode).run (dispatchFailure userId orderId version)
        (fun ack g =>
          if (toAck ack).status = .ok then onAck ack userId orderId version g
          else dispatchFailure userId orderId version .exchange .rejected
            (guessError (toAck ack).errCode) (toAck ack).errMsg g) g := by
  rw [← processResponse_eq]
  refine congrArg (fun h => processResponse env.assertions response
    (dispatchFailure userId orderId version) h g) ?_
  funext body g
  unfold decoding
  cases decode body with
  | error e => rfl
  | ok ack =>
    dsimp only
    split <;> rfl

theorem cancelAllOrdersAck_eq (env : Env) (response : Response) (requestId : String)
    (g : Gateway ρ) :
    cancelAllOrdersAck env response requestId g =
      (response.verdict env.assertions env.decode.cancelAllOrdersAck).run
        (fun origin _ error text g => sendAck requestId origin .rejected error text g)
        (fun _ g => sendAck requestId .exchange .accepted .undefined "" g) g := by
  rw [← processResponse_eq]
  refine congrArg (fun h => processResponse env.assertions response _ h g) ?_
  funext body g
  unfold decoding
  cases env.decode.cancelAllOrdersAck body <;> rfl

variable [LimitRequest ρ]

theorem downloadAck_eq (env : Env) (w : Which) (decode : String → Except Exn α)
    (toAck : α → Json.Ack) (onAck : α → Gateway ρ → Gateway ρ) (response : Response)
    (g : Gateway ρ) :
    downloadAck env w decode toAck onAck response g =
      ((response.verdict env.assertions decode).run logError
        (fun ack g => if (toAck ack).status = .ok then onAck ack g else g) g).bind
        fun g => .ok (g.commit w) := by
  rw [← processResponse_eq]
  refine congrArg (fun h => (processResponse env.assertions response logError h g).bind
    fun g => .ok (g.commit w)) ?_
  funext body g
  unfold decoding
  cases decode body with
  | error e => rfl
  | ok ack =>
    dsimp only
    split <;> rfl

/-- A response that the download waits for is acted on if it succeeds, and
committed unless the process stops. -/
theorem downloadAck_cases (env : Env) (w : Which) (decode : String → Except Exn α)
    (toAck : α → Json.Ack) (onAck : α → Gateway ρ → Gateway ρ) (response : Response)
    (g : Gateway ρ) :
    downloadAck env w decode toAck onAck response g = .fatal g ∨
    (∃ ack, (toAck ack).status = .ok ∧
      downloadAck env w decode toAck onAck response g = .ok ((onAck ack g).commit w)) ∨
    downloadAck env w decode toAck onAck response g = .ok (g.commit w) := by
  rw [downloadAck_eq]
  cases response.verdict env.assertions decode with
  | raised | failed | silent => exact .inr (.inr rfl)
  | body ack =>
    by_cases h : (toAck ack).status = .ok
    · exact .inr (.inl ⟨ack, h, by simp [Verdict.run, h]⟩)
    · exact .inr (.inr (by simp [Verdict.run, h]))
  | stop => exact .inl rfl

/-- A response to a `get_order` request, by whether the process survives it and
by the counter. -/
theorem getOrderAck_cases (env : Env) (response : Response) (g : Gateway ρ) :
    (response.stops env.assertions = true ∧ getOrderAck env response g = .fatal g) ∨
    (response.stops env.assertions = false ∧ g.orderEntry.downloadStaleOrdersCounter = 0 ∧
      getOrderAck env response g = g.abort .getOrderAck) ∨
    (response.stops env.assertions = false ∧ g.orderEntry.downloadStaleOrdersCounter = 1 ∧
      getOrderAck env response g = .ok ((countDown g).commit .staleOrders)) ∨
    (response.stops env.assertions = false ∧ 1 < g.orderEntry.downloadStaleOrdersCounter ∧
      getOrderAck env response g = .ok (countDown g)) := by
  have ignored := Response.processResponse_ignore env.assertions response g
  unfold getOrderAck
  change processResponse env.assertions response logError (fun _ g => .ok g) g = _ at ignored
  rw [ignored]
  cases response.stops env.assertions with
  | true => exact .inl ⟨rfl, rfl⟩
  | false =>
    refine .inr ?_
    rcases Nat.lt_trichotomy g.orderEntry.downloadStaleOrdersCounter 1 with h | h | h
    · refine .inl ⟨rfl, by omega, ?_⟩
      have : g.orderEntry.downloadStaleOrdersCounter = 0 := by omega
      simp [this]
    · refine .inr (.inl ⟨rfl, h, ?_⟩)
      simp [countDown, h]
    · refine .inr (.inr ⟨rfl, h, ?_⟩)
      have : g.orderEntry.downloadStaleOrdersCounter ≠ 0 := by omega
      have : g.orderEntry.downloadStaleOrdersCounter - 1 ≠ 0 := by omega
      simp [countDown, *]

/-! ## What is left alone -/

/-- What the response to a request is reported as. -/
def Reports : Callback → Entry → Prop
  | .accountsAck, .accountsAck ack => ack.status = .ok
  | .balanceAck, .balanceAck _ | .balanceAck, .fundsUpdate _ => True
  | .openOrdersAck, .openOrdersAck _ => True
  | .placeOrderAck userId orderId, .omsResponse _ u o => u = userId ∧ o = orderId
  | .cancelOrderAck userId orderId, .omsResponse _ u o => u = userId ∧ o = orderId
  | .cancelAllOrdersAck, .cancelAllOrdersAck _ => True
  | _, _ => False

/-- The entries of a response. -/
def Replies (c : Callback) : Entry → Prop
  | .commit w => c.which = some w
  | .fatal site => site = .getOrderAck ∧ c.isGetOrder = true
  | x => Reports c x

/-- What order entry leaves alone when a callback is called. -/
structure Answers (c : Callback) (g g' : Gateway ρ) : Prop where
  dropCopy : g'.dropCopy = g.dropCopy
  connectionStatus : g'.orderEntry.connectionStatus = g.orderEntry.connectionStatus
  accountId : c ≠ .accountsAck → g'.orderEntry.accountId = g.orderEntry.accountId
  counter : c.isGetOrder = false →
    g'.orderEntry.downloadStaleOrdersCounter = g.orderEntry.downloadStaleOrdersCounter
  wanted : ∀ w, g'.wanted w = g.wanted w
  hasResponse : ∀ w, c.which ≠ some w → g'.hasResponse w = g.hasResponse w
  details : g'.request.detailsStaleOrders = g.request.detailsStaleOrders
  inFlight : g'.inFlight = g.inFlight
  batch : g'.batch = g.batch
  socketUp : g'.socketUp = g.socketUp
  log : Grows (Replies c) g g'

namespace Answers

variable {c : Callback}

theorem refl (g : Gateway ρ) : Answers c g g :=
  ⟨rfl, rfl, fun _ => rfl, fun _ => rfl, fun _ => rfl, fun _ _ => rfl, rfl, rfl, rfl, rfl, .refl g⟩

theorem trans {a b d : Gateway ρ} (h : Answers c a b) (h' : Answers c b d) : Answers c a d where
  dropCopy := h'.dropCopy.trans h.dropCopy
  connectionStatus := h'.connectionStatus.trans h.connectionStatus
  accountId hc := (h'.accountId hc).trans (h.accountId hc)
  counter hc := (h'.counter hc).trans (h.counter hc)
  wanted w := (h'.wanted w).trans (h.wanted w)
  hasResponse w hw := (h'.hasResponse w hw).trans (h.hasResponse w hw)
  details := h'.details.trans h.details
  inFlight := h'.inFlight.trans h.inFlight
  batch := h'.batch.trans h.batch
  socketUp := h'.socketUp.trans h.socketUp
  log := h.log.trans h'.log

theorem push (g : Gateway ρ) {x : Entry} (hx : Replies c x) : Answers c g (g.push x) :=
  ⟨rfl, rfl, fun _ => rfl, fun _ => rfl, fun _ => rfl, fun _ _ => rfl, rfl, rfl, rfl, rfl,
    .of_cons rfl hx⟩

theorem commit {w : Which} (hw : c.which = some w) (g : Gateway ρ) : Answers c g (g.commit w) where
  dropCopy := rfl
  connectionStatus := rfl
  accountId _ := rfl
  counter _ := rfl
  wanted v := by
    by_cases h : v = w
    · subst h
      simp [Gateway.wanted, Gateway.commit]
    · simp [Gateway.wanted, Gateway.commit, Request.get_modify_of_ne _ _ h]
  hasResponse v hv := by
    have h : v ≠ w := fun h => hv (h ▸ hw)
    simp [Gateway.hasResponse, Gateway.commit, Request.get_modify_of_ne _ _ h]
  details := by simp [Gateway.commit]
  inFlight := rfl
  batch := rfl
  socketUp := rfl
  log := .of_cons rfl hw

end Answers

theorem downloadAck_answers {c : Callback} {w : Which} (hw : c.which = some w) (env : Env)
    (decode : String → Except Exn α) (toAck : α → Json.Ack) {onAck : α → Gateway ρ → Gateway ρ}
    (hack : ∀ ack g, (toAck ack).status = .ok → Answers c g (onAck ack g)) (response : Response)
    (g : Gateway ρ) : Answers c g (downloadAck env w decode toAck onAck response g).state := by
  rcases downloadAck_cases env w decode toAck onAck response g with h | ⟨ack, hok, h⟩ | h <;> rw [h]
  · exact .refl g
  · exact (hack ack g hok).trans (.commit hw _)
  · exact .commit hw g

theorem orderAck_answers {c : Callback} (env : Env) (decode : String → Except Exn α)
    (toAck : α → Json.Ack) {onAck : α → UInt8 → UInt64 → UInt32 → Gateway ρ → Gateway ρ}
    (response : Response) {userId : UInt8} {orderId : UInt64} (version : UInt32)
    (homs : ∀ response, Reports c (.omsResponse response userId orderId))
    (hack : ∀ ack g, Answers c g (onAck ack userId orderId version g)) (g : Gateway ρ) :
    Answers c g (orderAck env decode toAck onAck response userId orderId version g).state := by
  have failing : ∀ origin status error text (g : Gateway ρ),
      Answers c g (dispatchFailure userId orderId version origin status error text g) :=
    fun _ _ _ _ g => .push g (homs _)
  rw [orderAck_eq]
  refine Verdict.run_state (P := Answers c g) (fun _ _ _ _ => failing _ _ _ _ g) (fun ack => ?_)
    (.refl g) _
  split
  · exact hack ack g
  · exact failing _ _ _ _ g

theorem onBalanceAck_answers (ack : Json.BalanceAck) (g : Gateway ρ) :
    Answers .balanceAck g (onBalanceAck ack g) := by
  unfold onBalanceAck
  have start : Answers .balanceAck g (g.push (.balanceAck ack)) := .push g trivial
  generalize ack.data.list = items
  generalize g.push (.balanceAck ack) = s at start
  induction items generalizing s with
  | nil => exact start
  | cons item items ih => exact ih _ (start.trans (.push s trivial))

theorem getOrderAck_answers {c : Callback} (hc : c.isGetOrder = true) (env : Env)
    (response : Response) (g : Gateway ρ) : Answers c g (getOrderAck env response g).state := by
  obtain ⟨id, rfl⟩ := Callback.getOrderAck_of_isGetOrder hc
  have counted : Answers (.getOrderAck id) g (countDown g) :=
    ⟨rfl, rfl, fun _ => rfl, nofun, fun _ => rfl, fun _ _ => rfl, rfl, rfl, rfl, rfl, .of_eq rfl⟩
  obtain ⟨-, h⟩ | ⟨-, -, h⟩ | ⟨-, -, h⟩ | ⟨-, -, h⟩ := getOrderAck_cases env response g
  · exact h ▸ .refl g
  · exact h ▸ .push g ⟨rfl, rfl⟩
  · exact h ▸ counted.trans (.commit rfl _)
  · exact h ▸ counted

theorem onResponse_answers (env : Env) (f : InFlight) (response : Response) (g : Gateway ρ) :
    Answers f.callback g (onResponse env f response g).state := by
  unfold onResponse
  split <;> rename_i h <;> rw [h]
  · refine downloadAck_answers rfl env _ _ (fun ack g hok => ?_) response g
    exact ⟨rfl, rfl, fun h => absurd rfl h, fun _ => rfl, fun _ => rfl, fun _ _ => rfl, rfl, rfl, rfl,
      rfl, .of_cons (x := .accountsAck ack) rfl hok⟩
  · exact downloadAck_answers rfl env _ _ (fun ack g _ => onBalanceAck_answers ack g) response g
  · refine downloadAck_answers rfl env _ _ (fun ack g _ => ?_) response g
    exact .push g (x := .openOrdersAck ack) trivial
  · exact getOrderAck_answers rfl env response g
  · refine orderAck_answers (c := .placeOrderAck _ _) env _ _ response 1 (fun _ => ⟨rfl, rfl⟩)
      (fun ack g => ?_) g
    exact .push g (x := .omsResponse _ _ _) ⟨rfl, rfl⟩
  · refine orderAck_answers (c := .cancelOrderAck _ _) env _ _ response 1 (fun _ => ⟨rfl, rfl⟩)
      (fun ack g => ?_) g
    exact .push g (x := .omsResponse _ _ _) ⟨rfl, rfl⟩
  · rw [cancelAllOrdersAck_eq]
    have sending : ∀ origin status error text, Answers .cancelAllOrdersAck g
        (sendAck f.requestId origin status error text g) :=
      fun _ _ _ _ => .push g (x := .cancelAllOrdersAck _) trivial
    exact Verdict.run_state (P := Answers .cancelAllOrdersAck g) (fun _ _ _ _ => sending _ _ _ _)
      (fun _ => sending _ _ _ _) (.refl g) _

/-- The process stops before a response is acted on. -/
theorem onResponse_eq_of_stops (env : Env) (f : InFlight) {response : Response}
    (h : response.stops env.assertions = true) (g : Gateway ρ) :
    onResponse env f response g = .fatal g := by
  have hv : ∀ {α : Type} (decode : String → Except Exn α),
      response.verdict env.assertions decode = .stop :=
    fun _ => (Response.verdict_stop_iff ..).mpr h
  unfold onResponse
  split
  · rw [accountsAck, downloadAck_eq, hv]
    rfl
  · rw [balanceAck, downloadAck_eq, hv]
    rfl
  · rw [openOrdersAck, downloadAck_eq, hv]
    rfl
  · rcases getOrderAck_cases env response g with ⟨-, hg⟩ | ⟨hs, -⟩ | ⟨hs, -⟩ | ⟨hs, -⟩
    · exact hg
    all_goals cases hs.symm.trans h
  · rw [placeOrderAck, orderAck_eq, hv]
    rfl
  · rw [cancelOrderAck, orderAck_eq, hv]
    rfl
  · rw [cancelAllOrdersAck_eq, hv]
    rfl

/-- A response at which the process stops changes nothing. -/
theorem onResponse_of_stops (env : Env) (f : InFlight) {response : Response}
    (h : response.stops env.assertions = true) (g : Gateway ρ) :
    (onResponse env f response g).state = g := by
  rw [onResponse_eq_of_stops env f h, Outcome.state_fatal]

end OrderEntry

end RoqHtx

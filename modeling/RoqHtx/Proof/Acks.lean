import RoqHtx.Impl.Reader
import RoqHtx.Proof.Answers

/-!
# Acknowledgements of order actions

The rule that the three acknowledgements are meant to share (`Rule`): accepted
exactly for a body that says so, and a failure as it was determined. Those of
create and cancel requests keep the rule unless an exception itself claims to be
an acceptance; that of a cancel-all request keeps it only for bodies that are ok
and exceptions that are rejections (`acks_rule_iff`). Whatever they report, they
report it once (`one_outcome`).
-/

namespace RoqHtx

open OrderEntry

variable {ρ : Type} {α : Type}

/-! ## The rule -/

/-- What the order manager is told of a request. -/
structure Report where
  origin : Origin
  status : RequestStatus
  error : Error
  deriving DecidableEq

def reportOf : Entry → Option Report
  | .omsResponse response _ _ => some ⟨response.origin, response.requestStatus, response.error⟩
  | .cancelAllOrdersAck ack => some ⟨ack.origin, ack.requestStatus, ack.error⟩
  | _ => none

def Reported (r : Report) (g g' : Gateway ρ) : Prop := ∃ x, Logs x g g' ∧ reportOf x = some r

/-- The failure that the shared handler determines, if any: handlers that only
record. -/
def determined (env : Env) (decode : String → Except Exn α) (toAck : α → Json.Ack)
    (response : Response) : Option Report :=
  (processResponse env.assertions response
    (fun origin status error _ _ => some ⟨origin, status, error⟩)
    (decoding decode fun ack s => if (toAck ack).status = .ok then s
      else some ⟨.exchange, .rejected, guessError (toAck ack).errCode⟩) none).state

/-- Accepted exactly for a success, and a failure as it was determined. -/
def Rule (env : Env) (decode : String → Except Exn α) (toAck : α → Json.Ack) (response : Response)
    (g g' : Gateway ρ) : Prop :=
  ((∃ r, Reported r g g' ∧ r.status = .accepted) ↔ response.succeeds decode toAck = true) ∧
    ∀ r : Report, r.status ≠ .accepted →
      (Reported r g g' ↔ determined env decode toAck response = some r)

theorem reported_iff {g g' : Gateway ρ} {o : Option Report}
    (h : (g'.log = g.log ∧ o = none) ∨ ∃ x, g'.log = x :: g.log ∧ reportOf x = o) (r : Report) :
    Reported r g g' ↔ o = some r := by
  rcases h with ⟨h, rfl⟩ | ⟨x, h, rfl⟩
  · refine iff_of_false ?_ nofun
    rintro ⟨y, hy, -⟩
    exact not_logs_of_eq h hy
  · constructor
    · rintro ⟨y, hy, hr⟩
      rwa [(logs_iff_of_cons h).mp hy] at hr
    · intro hr
      exact ⟨x, (logs_iff_of_cons h).mpr rfl, hr⟩

theorem determined_eq (env : Env) (decode : String → Except Exn α) (toAck : α → Json.Ack)
    (response : Response) :
    determined env decode toAck response =
      match response.verdict env.assertions decode with
      | .raised e => some ⟨e.origin, e.status, e.error⟩
      | .body ack => if (toAck ack).status = .ok then none
        else some ⟨.exchange, .rejected, guessError (toAck ack).errCode⟩
      | .failed error _ => some ⟨.exchange, .rejected, error⟩
      | .silent | .stop => none := by
  rw [determined, processResponse_eq]
  cases response.verdict env.assertions decode with
  | _ => rfl

/-- A create or cancel request reports what was determined, or an acceptance. -/
theorem orderAck_reported_iff (env : Env) (decode : String → Except Exn α) (toAck : α → Json.Ack)
    {onAck : α → UInt8 → UInt64 → UInt32 → Gateway ρ → Gateway ρ}
    (hack : ∀ ack userId orderId version g, ∃ x,
      (onAck ack userId orderId version g).log = x :: g.log ∧
        reportOf x = some ⟨.exchange, .accepted, .undefined⟩)
    (response : Response) (userId : UInt8) (orderId : UInt64) (version : UInt32) (g : Gateway ρ)
    (r : Report) :
    Reported r g (orderAck env decode toAck onAck response userId orderId version g).state ↔
      (match response.verdict env.assertions decode with
        | .body ack => if (toAck ack).status = .ok then some ⟨.exchange, .accepted, .undefined⟩
          else determined env decode toAck response
        | _ => determined env decode toAck response) = some r := by
  rw [orderAck_eq, determined_eq]
  cases response.verdict env.assertions decode with
  | raised e =>
    exact reported_iff (.inr
      ⟨.omsResponse (failure e.origin e.status e.error e.what version) userId orderId, rfl, rfl⟩) r
  | body ack =>
    simp only [Verdict.run, Outcome.state_ok]
    split
    · exact reported_iff (.inr (hack ack userId orderId version g)) r
    · exact reported_iff (.inr ⟨.omsResponse (failure .exchange .rejected
        (guessError (toAck ack).errCode) (toAck ack).errMsg version) userId orderId, rfl, rfl⟩) r
  | failed error text =>
    exact reported_iff (.inr ⟨.omsResponse (failure .exchange .rejected error text version) userId
      orderId, rfl, rfl⟩) r
  | silent | stop => exact reported_iff (.inl ⟨rfl, rfl⟩) r

theorem sendAck_reported_iff (requestId : String) (origin : Origin) (status : RequestStatus)
    (error : Error) (text : String) (g : Gateway ρ) (r : Report) :
    Reported r g (sendAck requestId origin status error text g) ↔
      some ⟨origin, status, error⟩ = some r := by
  refine reported_iff (.inr ⟨.cancelAllOrdersAck
    ⟨0, "", "", .undefined, origin, status, error, text, requestId, 0⟩, ?_, rfl⟩) r
  rfl

/-- A cancel-all request reports every failure as a rejection, and any body as
an acceptance. -/
theorem cancelAllOrdersAck_reported_iff (env : Env) (response : Response) (requestId : String)
    (g : Gateway ρ) (r : Report) :
    Reported r g (cancelAllOrdersAck env response requestId g).state ↔
      (match response.verdict env.assertions env.decode.cancelAllOrdersAck with
        | .raised e => some ⟨e.origin, .rejected, e.error⟩
        | .body _ => some ⟨.exchange, .accepted, .undefined⟩
        | .failed error _ => some ⟨.exchange, .rejected, error⟩
        | .silent | .stop => none) = some r := by
  rw [cancelAllOrdersAck_eq]
  cases response.verdict env.assertions env.decode.cancelAllOrdersAck with
  | raised e => exact sendAck_reported_iff ..
  | body ack => exact sendAck_reported_iff ..
  | failed error text => exact sendAck_reported_iff ..
  | silent | stop => exact reported_iff (.inl ⟨rfl, rfl⟩) r

theorem accepted_ne {r : Report} (h : r.status ≠ .accepted) :
    (⟨.exchange, .accepted, .undefined⟩ : Report) ≠ r := by
  rintro rfl
  exact h rfl

theorem orderAck_rule_iff (env : Env) (decode : String → Except Exn α) (toAck : α → Json.Ack)
    {onAck : α → UInt8 → UInt64 → UInt32 → Gateway ρ → Gateway ρ}
    (hack : ∀ ack userId orderId version g, ∃ x,
      (onAck ack userId orderId version g).log = x :: g.log ∧
        reportOf x = some ⟨.exchange, .accepted, .undefined⟩)
    (response : Response) (userId : UInt8) (orderId : UInt64) (version : UInt32) (g : Gateway ρ) :
    Rule env decode toAck response g
        (orderAck env decode toAck onAck response userId orderId version g).state ↔
      ∀ e, response.raises decode = some e → e.status ≠ .accepted := by
  simp only [Rule, Response.succeeds_iff env.assertions, Response.raises_eq_some_iff env.assertions,
    orderAck_reported_iff env decode toAck hack, determined_eq]
  cases response.verdict env.assertions decode with
  | raised e => simp
  | body ack =>
    by_cases hok : (toAck ack).status = .ok
    · simpa [hok] using fun r => accepted_ne (r := r)
    · simp [hok]
  | failed error text => simp
  | silent | stop => simp

theorem cancelAllOrdersAck_rule_iff (env : Env) (response : Response) (requestId : String)
    (g : Gateway ρ) :
    Rule env env.decode.cancelAllOrdersAck (·.toAck) response g
        (cancelAllOrdersAck env response requestId g).state ↔
      (∀ e, response.raises env.decode.cancelAllOrdersAck = some e → e.status = .rejected) ∧
        ∀ ack, response.decoded env.decode.cancelAllOrdersAck = some ack → ack.status = .ok := by
  simp only [Rule, Response.succeeds_iff env.assertions, Response.raises_eq_some_iff env.assertions,
    Response.decoded_eq_some_iff env.assertions, cancelAllOrdersAck_reported_iff, determined_eq]
  cases response.verdict env.assertions env.decode.cancelAllOrdersAck with
  | raised e =>
    -- an exception keeps its own status only if that is a rejection
    have raised : (∀ r : Report, r.status ≠ .accepted →
        ((⟨e.origin, .rejected, e.error⟩ : Report) = r ↔ ⟨e.origin, e.status, e.error⟩ = r)) ↔
        e.status = .rejected := by
      constructor
      · intro h
        have := (h ⟨e.origin, .rejected, e.error⟩ (by simp)).mp rfl
        simpa using this
      · intro h r _
        rw [h]
    simpa using raised
  | body ack =>
    by_cases hok : ack.status = .ok
    · simpa [hok] using fun r => accepted_ne (r := r)
    · simp [hok]
  | failed error text => simp
  | silent | stop => simp

/-- When the three acknowledgements keep the rule. -/
theorem acks_rule_iff (env : Env) (response : Response) (userId : UInt8) (orderId : UInt64)
    (version : UInt32) (requestId : String) (g : Gateway ρ) :
    (Rule env env.decode.placeOrderAck (·.toAck) response g
        (placeOrderAck env response userId orderId version g).state ↔
      ∀ e, response.raises env.decode.placeOrderAck = some e → e.status ≠ .accepted) ∧
    (Rule env env.decode.cancelOrderAck (·.toAck) response g
        (cancelOrderAck env response userId orderId version g).state ↔
      ∀ e, response.raises env.decode.cancelOrderAck = some e → e.status ≠ .accepted) ∧
    (Rule env env.decode.cancelAllOrdersAck (·.toAck) response g
        (cancelAllOrdersAck env response requestId g).state ↔
      (∀ e, response.raises env.decode.cancelAllOrdersAck = some e → e.status = .rejected) ∧
        ∀ ack, response.decoded env.decode.cancelAllOrdersAck = some ack → ack.status = .ok) :=
  ⟨orderAck_rule_iff env _ _ (fun _ _ _ _ _ => ⟨.omsResponse _ _ _, rfl, rfl⟩) ..,
    orderAck_rule_iff env _ _ (fun _ _ _ _ _ => ⟨.omsResponse _ _ _, rfl, rfl⟩) ..,
    cancelAllOrdersAck_rule_iff ..⟩

/-- A refused cancel-all request is reported as accepted, and one that was not
answered in time as rejected. -/
theorem cancel_all_breaks_rule :
    let g : Gateway Reader.Flags := Gateway.init
    Reported ⟨.exchange, .accepted, .undefined⟩ g
        (cancelAllOrdersAck Reader.env (Reader.success Reader.errorBody) "A1" g).state ∧
      ¬Rule Reader.env Reader.bodies.cancelAllOrdersAck (·.toAck) (Reader.success Reader.errorBody) g
        (cancelAllOrdersAck Reader.env (Reader.success Reader.errorBody) "A1" g).state ∧
      Reported ⟨.gateway, .rejected, .other 7⟩ g
        (cancelAllOrdersAck Reader.env Reader.timeout "A1" g).state ∧
      ¬Rule Reader.env Reader.bodies.cancelAllOrdersAck (·.toAck) Reader.timeout g
        (cancelAllOrdersAck Reader.env Reader.timeout "A1" g).state := by
  intro g
  have refused : (Reader.success Reader.errorBody).decoded Reader.bodies.cancelAllOrdersAck =
      some { Reader.errorAck with } := rfl
  refine ⟨(cancelAllOrdersAck_reported_iff ..).mpr rfl, fun h => ?_,
    (cancelAllOrdersAck_reported_iff ..).mpr rfl, fun h => ?_⟩
  · cases ((cancelAllOrdersAck_rule_iff ..).mp h).2 _ refused
  · cases ((cancelAllOrdersAck_rule_iff ..).mp h).1 (.network (.other 5) (.other 7) "timeout") rfl

/-! ## One outcome -/

/-- The callbacks of order actions. -/
def Callback.isOrderAction : Callback → Bool
  | .placeOrderAck _ _ | .cancelOrderAck _ _ | .cancelAllOrdersAck => true
  | .accountsAck | .balanceAck | .openOrdersAck | .getOrderAck _ => false

/-- What is documented of a response: `expect(OK)` throws unless the status is
OK, and a status that is OK is a success. -/
structure Response.Documented (response : Response) : Prop where
  expect : ∀ status category body, response.result = .ok (status, category, body) →
    status.code ≠ 200 → response.expect.isSome = true
  category : ∀ status category body, response.result = .ok (status, category, body) →
    status.code = 200 → category = .success

/-- Some handler is called for a response that is as documented, unless the
process stops at it. -/
theorem Response.Documented.handled {assertions : Bool} {response : Response}
    (h : response.Documented) (hstops : response.stops assertions = false) :
    response.unhandled assertions = false := by
  have thrown : ∀ status category body, response.result = .ok (status, category, body) →
      category ≠ .success → response.expect.isNone = false := by
    intro status category body hresult hcategory
    have hcode : status.code ≠ 200 := fun h200 => hcategory (h.category _ _ _ hresult h200)
    rw [← Option.not_isSome, h.expect _ _ _ hresult hcode]
    rfl
  unfold unhandled
  rcases hresult : response.result with e | ⟨status, _ | _ | _ | _ | _ | _, body⟩
  · exact hstops
  · exact thrown _ _ _ hresult nofun
  · exact thrown _ _ _ hresult nofun
  all_goals exact hstops

/-- The outcome of an order action, dispatched to the order manager under what
its callback captured. -/
def IsOutcome (f : InFlight) : Entry → Prop
  | .omsResponse _ userId orderId =>
    f.callback = .placeOrderAck userId orderId ∨ f.callback = .cancelOrderAck userId orderId
  | .cancelAllOrdersAck ack => f.callback = .cancelAllOrdersAck ∧ ack.requestId = f.requestId
  | _ => False

theorem orderAck_outcome (env : Env) (decode : String → Except Exn α) (toAck : α → Json.Ack)
    {onAck : α → UInt8 → UInt64 → UInt32 → Gateway ρ → Gateway ρ} {response : Response}
    {userId : UInt8} {orderId : UInt64} {version : UInt32} {g : Gateway ρ}
    (hack : ∀ ack, ∃ r, onAck ack userId orderId version g = g.push (.omsResponse r userId orderId))
    (h : response.unhandled env.assertions = false) :
    ∃ r, orderAck env decode toAck onAck response userId orderId version g =
      .ok (g.push (.omsResponse r userId orderId)) := by
  have hv := fun hs => Bool.eq_false_iff.mp h ((Response.unhandled_iff env.assertions decode response).mpr hs)
  rw [orderAck_eq]
  cases hverdict : response.verdict env.assertions decode with
  | raised e => exact ⟨_, rfl⟩
  | body ack =>
    by_cases hok : (toAck ack).status = .ok
    · obtain ⟨r, hr⟩ := hack ack
      exact ⟨r, by simp [Verdict.run, hok, hr]⟩
    · exact ⟨_, by simp only [Verdict.run, hok, if_false]; rfl⟩
  | failed error text => exact ⟨_, rfl⟩
  | silent => exact absurd (.inl hverdict) hv
  | stop => exact absurd (.inr hverdict) hv

theorem cancelAllOrdersAck_outcome (env : Env) {response : Response} (requestId : String)
    (g : Gateway ρ) (h : response.unhandled env.assertions = false) :
    ∃ ack, cancelAllOrdersAck env response requestId g = .ok (g.push (.cancelAllOrdersAck ack)) ∧
      ack.requestId = requestId := by
  have hv := fun hs => Bool.eq_false_iff.mp h
    ((Response.unhandled_iff env.assertions env.decode.cancelAllOrdersAck response).mpr hs)
  rw [cancelAllOrdersAck_eq]
  cases hverdict : response.verdict env.assertions env.decode.cancelAllOrdersAck with
  | raised e => exact ⟨_, rfl, rfl⟩
  | body ack => exact ⟨_, rfl, rfl⟩
  | failed error text => exact ⟨_, rfl, rfl⟩
  | silent => exact absurd (.inl hverdict) hv
  | stop => exact absurd (.inr hverdict) hv

/-- The response to an order action has exactly one outcome, and no other
effect. -/
theorem one_outcome [LimitRequest ρ] (env : Env) (f : InFlight) (response : Response) (g : Gateway ρ)
    (haction : f.callback.isOrderAction = true) (hdocumented : response.Documented)
    (hstops : response.stops env.assertions = false) :
    ∃ x, onResponse env f response g = .ok (g.push x) ∧ IsOutcome f x := by
  have handled := hdocumented.handled hstops
  unfold onResponse
  cases hc : f.callback with
  | placeOrderAck userId orderId =>
    have accepted : ∀ ack, ∃ r,
        onPlaceOrderAck ack userId orderId 1 g = g.push (.omsResponse r userId orderId) :=
      fun _ => ⟨_, rfl⟩
    obtain ⟨r, hr⟩ := orderAck_outcome env env.decode.placeOrderAck (·.toAck) accepted handled
    exact ⟨.omsResponse r userId orderId, hr, .inl hc⟩
  | cancelOrderAck userId orderId =>
    have accepted : ∀ ack, ∃ r,
        onCancelOrderAck ack userId orderId 1 g = g.push (.omsResponse r userId orderId) :=
      fun _ => ⟨_, rfl⟩
    obtain ⟨r, hr⟩ := orderAck_outcome env env.decode.cancelOrderAck (·.toAck) accepted handled
    exact ⟨.omsResponse r userId orderId, hr, .inr hc⟩
  | cancelAllOrdersAck =>
    obtain ⟨ack, hack, hid⟩ := cancelAllOrdersAck_outcome env f.requestId g handled
    exact ⟨.cancelAllOrdersAck ack, hack, hc, hid⟩
  | accountsAck | balanceAck | openOrdersAck | getOrderAck =>
    rw [hc] at haction
    cases haction

/-- A refused cancel request has one outcome. -/
theorem one_outcome_refused :
    let g : Gateway Reader.Flags := Gateway.init
    let f : InFlight := ⟨0, ⟨.post, Path.cancelOrder, "", some .applicationJson, .empty⟩,
      .cancelOrderAck 1 1001, "A1", .timer, 0⟩
    ∃ x, onResponse Reader.env f (Reader.success Reader.errorBody) g = .ok (g.push x) ∧
      IsOutcome f x := by
  intro g f
  refine one_outcome Reader.env f (Reader.success Reader.errorBody) g rfl ⟨?_, ?_⟩ rfl
  · intro status category body h hcode
    cases h
    exact absurd rfl hcode
  · intro status category body h hcode
    cases h
    rfl

end RoqHtx

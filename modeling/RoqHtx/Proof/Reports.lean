import RoqHtx.Framework.Simulation
import RoqHtx.Impl.ReportsReader
import RoqHtx.Proof.Dispatch
import RoqHtx.Proof.OrderMap
import RoqHtx.Proof.Requests

/-!
# An order is reported as it was asked for

What the exchange says of an order is a `Notice`. The gateway runs as it does without
its reports, and publishes one report for each notice, in order (`reports_refine`).
Every order that has been sent was encoded for a `CreateOrder` under the id of its
request (`Gateway.encoded`). Hence, where the exchange says of an order what the
gateway has sent of it, the report has the symbol and the side of the order that was
asked for, and everything else that the exchange's order types have room for
(`reports_describe`).
-/

namespace RoqHtx

open Json (Members Message)
open ExecutionInstruction (participateDoNotInitiate)

/-! ## Notices -/

/-- What the exchange says of one order. -/
inductive Notice where
  | orders (data : Json.OrdersData)
  | clearing (data : Json.ClearingData)
  | openOrder (item : Json.OpenOrdersAckDataItem)

namespace Notice

def report (env : ReportsEnv) : Notice → OrderReport
  | .orders data => .orderUpdate (Reports.ordersUpdate env data)
  | .clearing data => .tradeUpdate (Reports.clearingUpdate env data)
  | .openOrder item => .orderUpdate (Reports.itemUpdate env item)

end Notice

namespace ReportsEnv

variable (env : ReportsEnv)

/-- The notice of a message, if it is one. -/
def noticesOf (members : Members) : Message → List Notice
  | .orders => ((env.orders members).toOption.map .orders).toList
  | .clearing => ((env.clearing members).toOption.map .clearing).toList
  | _ => []

/-- The open orders that a response lists. -/
def listed (response : Response) : List Notice :=
  match response.result with
  | .ok (_, .success, body) =>
    match env.openOrdersAck body with
    | .ok ack => if ack.status = .ok then ack.data.map .openOrder else []
    | .error _ => []
  | _ => []

/-- The notices of an event. A response is taken for what the request has asked for. -/
def notices {ρ : Type} (g : Gateway ρ) : Event → List Notice
  | .text members => (env.gateway.parser.delivered members).toList.flatMap (env.noticesOf members)
  | .response i response =>
    match g.inFlight[i]? with
    | some f => if f.callback = .openOrdersAck then env.listed response else []
    | none => []
  | _ => []

/-- The notices of the events that follow. -/
def told {ρ : Type} [LimitRequest ρ] : Gateway ρ → List Event → List Notice
  | _, [] => []
  | g, e :: es => env.notices g e ++ (Gateway.step env.gateway g e).elim [] fun g' => told g' es

end ReportsEnv

/-! ## Responses -/

theorem catchException_map {σ τ : Type} {f : σ → τ} {errorHandler : ErrorHandler σ}
    {errorHandler' : ErrorHandler τ}
    (he : ∀ origin status error text s,
      f (errorHandler origin status error text s) = errorHandler' origin status error text (f s))
    (o : Outcome Exn σ) :
    (catchException errorHandler o).map f = catchException errorHandler' (o.map f) := by
  rcases o with s | ⟨e, s⟩ | s
  · rfl
  · cases e <;> exact congrArg Outcome.ok (he ..)
  · rfl

/-- What can be seen of the handlers can be seen of processing a response. -/
theorem processResponse_map {σ τ : Type} {f : σ → τ} (assertions : Bool) (response : Response)
    {errorHandler : ErrorHandler σ} {errorHandler' : ErrorHandler τ} {successHandler : SuccessHandler σ}
    {successHandler' : SuccessHandler τ}
    (he : ∀ origin status error text s,
      f (errorHandler origin status error text s) = errorHandler' origin status error text (f s))
    (hs : ∀ body s, (successHandler body s).map f = successHandler' body (f s)) (s : σ) :
    (processResponse assertions response errorHandler successHandler s).map f =
      processResponse assertions response errorHandler' successHandler' (f s) := by
  unfold processResponse
  rw [catchException_map he]
  congr 1
  unfold processResult
  cases response.result with
  | error e => rfl
  | ok r =>
    obtain ⟨status, category, body⟩ := r
    cases category with
    | unknown | informationalResponse => cases response.expect <;> rfl
    | success => exact hs body s
    | redirection => rfl
    | clientError =>
      dsimp only
      split
      · exact congrArg Outcome.ok (he ..)
      · split
        · rfl
        · exact congrArg Outcome.ok (he ..)
    | serverError => exact congrArg Outcome.ok (he ..)

namespace Reports

variable {ρ : Type} {env : ReportsEnv}

/-! ## Pieces -/

theorem foldl_publish (data : List Json.OpenOrdersAckDataItem) (s : Reports ρ) :
    data.foldl (fun s item => s.publish (.orderUpdate (itemUpdate env item))) s =
      { s with published :=
        (data.map fun item => OrderReport.orderUpdate (itemUpdate env item)).reverse ++ s.published } := by
  induction data generalizing s with
  | nil => rfl
  | cons item data ih =>
    rw [List.foldl_cons, ih]
    simp [publish]

theorem lift_gateway (f : Gateway ρ → Outcome Exn (Gateway ρ)) (s : Reports ρ) :
    (lift f s).map gateway = f s.gateway := by
  unfold lift
  cases f s.gateway <;> rfl

theorem lift_published (f : Gateway ρ → Outcome Exn (Gateway ρ)) (s : Reports ρ) :
    (lift f s).state.published = s.published := by
  unfold lift
  cases f s.gateway <;> rfl

/-- A message that is delivered has been read. -/
theorem withMessage_gateway {α : Type} {read : Except Exn α} {m m' : Message}
    (hread : read.map (fun _ => m) = .ok m') (f : α → Reports ρ → Reports ρ)
    (hf : ∀ value s, (f value s).gateway = s.gateway) (s : Reports ρ) :
    (withMessage read f s).map gateway = .ok s.gateway := by
  cases read with
  | error e => cases hread
  | ok value => exact congrArg Outcome.ok (hf value s)

theorem finish_gateway (o : Outcome Exn (Reports ρ)) :
    (finish o).gateway = Gateway.finish (o.map gateway) := by
  cases o <;> rfl

/-- Errors are only logged. -/
theorem processResponse_logError (assertions : Bool) (response : Response)
    (successHandler : SuccessHandler (Reports ρ)) (s : Reports ρ) :
    (processResponse assertions response logError successHandler s).state =
      match response.result with
      | .ok (_, .success, body) => (successHandler body s).state
      | _ => s := by
  have caught : ∀ o : Outcome Exn (Reports ρ), (catchException logError o).state = o.state := by
    rintro (_ | ⟨_ | _ | _, _⟩ | _) <;> rfl
  unfold processResponse
  rw [caught]
  unfold processResult
  rcases response.result with e | ⟨status, category, body⟩
  · rfl
  · cases category with
    | unknown | informationalResponse => cases response.expect <;> rfl
    | success | redirection | serverError => rfl
    | clientError =>
      dsimp only
      split
      · rfl
      · split <;> rfl

/-- What is published from `s` to `s'`, in order. -/
def Publishes (env : ReportsEnv) (notices : List Notice) (s s' : Reports ρ) : Prop :=
  s'.published.reverse = s.published.reverse ++ notices.map (Notice.report env)

theorem Publishes.nothing {s s' : Reports ρ} (h : s'.published = s.published) :
    Publishes env [] s s' := by
  rw [Publishes, h, List.map_nil, List.append_nil]

theorem Publishes.one {s s' : Reports ρ} {x : Notice} (h : s'.published = x.report env :: s.published) :
    Publishes env [x] s s' := by
  rw [Publishes, h, List.reverse_cons]
  rfl

theorem Publishes.trans {a b c : Reports ρ} {l l' : List Notice} (h : Publishes env l a b)
    (h' : Publishes env l' b c) : Publishes env (l ++ l') a c := by
  rw [Publishes] at h h' ⊢
  rw [h', h, List.map_append, List.append_assoc]

variable [LimitRequest ρ]

/-! ## The gateway -/

theorem onMessage_gateway {members : Members} {m : Message}
    (hm : env.gateway.parser.delivered members = some m) (s : Reports ρ) :
    (onMessage env members m s).map gateway = DropCopy.onMessage env.gateway m s.gateway := by
  have hdecode := (Parser.kind_of_delivered hm).2
  refine (Outcome.map_bind (lift_gateway _ s) fun s => ?_).trans (Outcome.bind_ok _)
  cases m with
  | orders =>
    exact withMessage_gateway ((env.decode_orders members).symm.trans hdecode) (onOrders env)
      (fun _ _ => rfl) s
  | clearing =>
    exact withMessage_gateway ((env.decode_clearing members).symm.trans hdecode) (onClearing env)
      (fun _ _ => rfl) s
  | _ => rfl

theorem parse_gateway (members : Members) (s : Reports ρ) :
    (parse env members s).map gateway = DropCopy.parse env.gateway members s.gateway := by
  unfold parse DropCopy.parse
  rw [← Parser.dispatch_map (f := gateway) env.gateway.settings.allowUnknownEventTypes
    fun m hm => onMessage_gateway hm s]
  rcases env.gateway.parser.dispatch env.gateway.settings.allowUnknownEventTypes (onMessage env members)
    members s with ⟨_, _⟩ | ⟨_, _, _⟩ | ⟨_, _⟩ <;> rfl

theorem openOrdersAck_gateway (response : Response) (s : Reports ρ) :
    (openOrdersAck env response s).map gateway =
      OrderEntry.openOrdersAck env.gateway response s.gateway := by
  have logs : ∀ origin status error text (s : Reports ρ), (logError origin status error text s).gateway =
      OrderEntry.logError origin status error text s.gateway := fun _ _ _ _ _ => rfl
  refine Outcome.map_bind (processResponse_map env.gateway.assertions response logs (fun body s => ?_) s)
    fun s => rfl
  rw [env.decode_openOrdersAck body]
  cases env.openOrdersAck body with
  | error e => rfl
  | ok ack =>
    dsimp only [Except.map]
    split
    · exact congrArg Outcome.ok (congrArg gateway (foldl_publish ..))
    · rfl

theorem onResponse_gateway (f : InFlight) (response : Response) (s : Reports ρ) :
    (onResponse env f response s).map gateway =
      OrderEntry.onResponse env.gateway f response s.gateway := by
  unfold onResponse
  split
  · rename_i hcallback
    rw [openOrdersAck_gateway, OrderEntry.onResponse, hcallback]
  · exact lift_gateway _ s

theorem handle_gateway (s : Reports ρ) (e : Event) :
    (handle env s e).map (Outcome.map gateway) = Gateway.handle env.gateway s.gateway e := by
  have other : ∀ e, handle env s e = (Gateway.handle env.gateway s.gateway e).map
        (fun o => o.map fun gateway => { s with gateway }) →
      (handle env s e).map (Outcome.map gateway) = Gateway.handle env.gateway s.gateway e := by
    intro e he
    rw [he]
    rcases Gateway.handle env.gateway s.gateway e with _ | _ | _ | _ <;> rfl
  cases e with
  | text members =>
    simp only [handle, Gateway.handle]
    split
    · exact congrArg some (parse_gateway members s)
    · rfl
  | response i response =>
    simp only [handle, Gateway.handle]
    cases s.gateway.inFlight[i]? with
    | none => rfl
    | some f => exact congrArg some (onResponse_gateway f response _)
  | _ => exact other _ rfl

/-- The gateway does what it does without its reports. -/
theorem step_gateway (s : Reports ρ) (e : Event) :
    (step env s e).map gateway = Gateway.step env.gateway s.gateway e := by
  unfold step Gateway.step
  split
  · rfl
  · rw [← handle_gateway, Option.map_map, Option.map_map]
    exact congrFun (congrArg Option.map (funext finish_gateway)) _

/-! ## Notices and reports -/

theorem onMessage_publishes (members : Members) (m : Message) (s : Reports ρ) :
    Publishes env (env.noticesOf members m) s (onMessage env members m s).state := by
  have nothing : ∀ g : Gateway ρ → Outcome Exn (Gateway ρ),
      Publishes env [] s ((lift g s).bind .ok).state := fun g => by
    rw [Outcome.bind_ok]
    exact .nothing (lift_published g s)
  cases m with
  | orders =>
    show Publishes env ((env.orders members).toOption.map .orders).toList s
      (withMessage (env.orders members) (onOrders env) _).state
    cases env.orders members with
    | error e => exact .nothing rfl
    | ok data => exact .one rfl
  | clearing =>
    show Publishes env ((env.clearing members).toOption.map .clearing).toList s
      (withMessage (env.clearing members) (onClearing env) _).state
    cases env.clearing members with
    | error e => exact .nothing rfl
    | ok data => exact .one rfl
  | _ => exact nothing _

theorem parse_publishes (members : Members) (s : Reports ρ) :
    Publishes env ((env.gateway.parser.delivered members).toList.flatMap (env.noticesOf members)) s
      (parse env members s).state := by
  have hstate := env.gateway.parser.dispatch_state env.gateway.settings.allowUnknownEventTypes
    (onMessage env members) members s
  have hparse : (parse env members s).state =
      (env.gateway.parser.dispatch env.gateway.settings.allowUnknownEventTypes (onMessage env members)
        members s).state.2 := by
    unfold parse
    split <;> rename_i hd <;> rw [hd] <;> rfl
  rw [hparse, hstate]
  cases env.gateway.parser.delivered members with
  | none => exact .nothing rfl
  | some m =>
    rw [Option.toList_some, List.flatMap_cons, List.flatMap_nil, List.append_nil]
    exact onMessage_publishes members m s

theorem openOrdersAck_publishes (response : Response) (s : Reports ρ) :
    Publishes env (env.listed response) s (openOrdersAck env response s).state := by
  unfold openOrdersAck
  refine Outcome.state_bind (P := Publishes env (env.listed response) s) ?_ fun _ h => h
  rw [processResponse_logError, ReportsEnv.listed]
  rcases response.result with e | ⟨status, category, body⟩
  · exact .nothing rfl
  · cases category with
    | success =>
      dsimp only
      cases env.openOrdersAck body with
      | error e => exact .nothing rfl
      | ok ack =>
        dsimp only
        split
        · show (onOpenOrdersAck env ack s).published.reverse = _
          rw [onOpenOrdersAck, foldl_publish, List.reverse_append, List.reverse_reverse, List.map_map]
          rfl
        · exact .nothing rfl
    | _ => exact .nothing rfl

/-- A step publishes the reports of its notices. -/
theorem step_publishes {s s' : Reports ρ} {e : Event} (h : step env s e = some s') :
    Publishes env (env.notices s.gateway e) s s' := by
  unfold step at h
  split at h
  · cases h
  obtain ⟨o, ho, rfl⟩ := Option.map_eq_some_iff.mp h
  have hfinish : (finish o).published = o.state.published := by cases o <;> rfl
  have lifted : ∀ e, (handle env s e = (Gateway.handle env.gateway s.gateway e).map
        fun o => o.map fun gateway => { s with gateway }) → handle env s e = some o →
      o.state.published = s.published := by
    intro e he ho
    rw [he] at ho
    obtain ⟨o, -, rfl⟩ := Option.map_eq_some_iff.mp ho
    cases o <;> rfl
  rw [Publishes, hfinish]
  cases e with
  | text members =>
    simp only [handle] at ho
    split at ho
    · cases ho
      exact parse_publishes members s
    · cases ho
  | response i response =>
    obtain ⟨f, hf, rfl⟩ := Option.map_eq_some_iff.mp ho
    simp only [ReportsEnv.notices, hf]
    unfold onResponse
    split
    · rename_i hcallback
      rw [if_pos hcallback]
      exact openOrdersAck_publishes response _
    · rename_i hcallback
      rw [if_neg hcallback]
      exact Publishes.nothing (lift_published _ _)
  | _ => exact Publishes.nothing (lifted _ rfl ho)

/-! ## Runs -/

theorem runAll_publishes {ds : List Event} {s s' : Reports ρ}
    (h : (reports ρ env).runAll s ds = some s') :
    (machine ρ env.gateway).runAll s.gateway ds = some s'.gateway ∧
      Publishes env (env.told s.gateway ds) s s' := by
  induction ds generalizing s with
  | nil =>
    cases h
    exact ⟨rfl, .nothing rfl⟩
  | cons e ds ih =>
    obtain ⟨t, ht, h⟩ := Option.bind_eq_some_iff.mp h
    have hstep : Gateway.step env.gateway s.gateway e = some t.gateway := by
      rw [← step_gateway]
      exact congrArg (Option.map gateway) ht
    obtain ⟨hrun, hpublishes⟩ := ih h
    refine ⟨?_, ?_⟩
    · show (Gateway.step env.gateway s.gateway e).bind _ = _
      rw [hstep]
      exact hrun
    · rw [ReportsEnv.told, hstep]
      exact (step_publishes ht).trans hpublishes

/-- In every run, the gateway does what it does without its reports, and one report
is published for each notice of the exchange, in order: for each message on the
orders' channel or on the clearing's, and for each order in a list that was asked
for. -/
theorem reports_refine {ds : List Event} {s : Reports ρ}
    (h : (reports ρ env).runAll init ds = some s) :
    (machine ρ env.gateway).runAll Gateway.init ds = some s.gateway ∧
      s.published.reverse = (env.told (Gateway.init : Gateway ρ) ds).map (Notice.report env) := by
  obtain ⟨hrun, hpublishes⟩ := runAll_publishes h
  exact ⟨hrun, hpublishes⟩

/-- An order is sent, and its account, its balance and it itself are listed. -/
def working : List Event :=
  Reader.login ++ [Reader.create, .timer Reader.tick, .response 1 (Reader.success Reader.accountsBody),
    .timer Reader.tick, .text (Reader.subReply 200 "accounts.update"), .timer Reader.tick,
    .response 1 (Reader.success Reader.balanceBody), .timer Reader.tick,
    .text (Reader.subReply 200 "orders#*"), .timer Reader.tick,
    .response 1 (Reader.success Reader.openOrderBody)]

/-- It is filled. -/
def filling : List Event :=
  [.text (Reader.pushed "orders#*" Reader.ordersText),
    .text (Reader.pushed "trade.clearing#*" Reader.clearingText)]

theorem reports_refine_filled : ∃ s : Reports Reader.Flags,
    s.published.reverse = [.orderUpdate (itemUpdate Reader.reportsEnv Reader.submitted),
      .orderUpdate (ordersUpdate Reader.reportsEnv Reader.filled),
      .tradeUpdate (clearingUpdate Reader.reportsEnv Reader.cleared)] := by
  have computed : ((reports Reader.Flags Reader.reportsEnv).runAll init
      (working ++ filling)).isSome = true := by decide +kernel
  obtain ⟨s, hs⟩ := Option.isSome_iff_exists.mp computed
  refine ⟨s, (reports_refine hs).2.trans ?_⟩
  decide +kernel

theorem gateway_reachable {C : Reports ρ → Event → Prop} {s : Reports ρ}
    (h : (reports ρ env).Reach C s) : (machine ρ env.gateway).Reachable s.gateway :=
  h.part (f := gateway) rfl fun t d t' _ _ hstep => .single trivial (by
    show Gateway.step env.gateway t.gateway d = _
    rw [← step_gateway]
    exact congrArg (Option.map gateway) hstep)

end Reports

/-! ## What is sent of an order -/

section Sent

variable {ρ : Type}

/-- The request was made of a `CreateOrder`, under the id of the request. -/
def Encoded (env : Env) (f : InFlight) (b : PlaceOrderBody) : Prop :=
  ∃ info o refData accountId, f.cause = .createOrder info o ∧
    Encoder.placeOrder env.formats o refData f.requestId accountId = .ok b

theorem Made.encoded {env : Env} {g : Gateway ρ} {e : Event} {f : InFlight} (h : Made env g e f)
    {b : PlaceOrderBody} (hb : f.request.body = .placeOrder b) : Encoded env f b := by
  cases e with
  | timer t =>
    obtain ⟨-, path, -, hrequest⟩ := h
    rw [hrequest] at hb
    cases hb
  | createOrder =>
    obtain ⟨hcause, rfl, body, hbody, hrequest⟩ := h
    rw [hrequest] at hb
    cases hb
    exact ⟨_, _, _, g.orderEntry.accountId, hcause, hbody⟩
  | cancelOrder =>
    obtain ⟨-, hrequest⟩ := h
    rw [hrequest] at hb
    exact absurd hb (cancelBody_ne _ b)
  | cancelAllOrders =>
    obtain ⟨-, -, -, -, hbody⟩ := h
    cases hbody.symm.trans hb
  | _ => exact h.elim

/-- Every order that has been sent was asked for. -/
theorem Gateway.encoded [LimitRequest ρ] {env : Env} {g : Gateway ρ} (h : (machine ρ env).Reachable g)
    {f : InFlight} {b : PlaceOrderBody} (hf : .restRequest f ∈ g.log)
    (hb : f.request.body = .placeOrder b) : Encoded env f b := by
  have made : ∀ x ∈ g.log, Requests (fun f => ∀ b, f.request.body = .placeOrder b → Encoded env f b) x :=
    all_log (fun _ _ _ _ hl => hl.made.mono fun _ hx f hf b hb => (hx f hf).encoded hb) h
  exact made _ hf f rfl b hb

def Entry.placed? : Entry → Option PlaceOrderBody
  | .restRequest f =>
    match f.request.body with
    | .placeOrder b => some b
    | .empty | .cancelOrder _ _ | .cancelClientOrder _ => none
  | _ => none

/-- The orders that have been sent. -/
def placed (g : Gateway ρ) : List PlaceOrderBody := g.log.filterMap Entry.placed?

theorem mem_placed {g : Gateway ρ} {b : PlaceOrderBody} (h : b ∈ placed g) :
    ∃ f, .restRequest f ∈ g.log ∧ f.request.body = .placeOrder b := by
  obtain ⟨x, hx, hplaced⟩ := List.mem_filterMap.mp h
  cases x with
  | restRequest f =>
    refine ⟨f, hx, ?_⟩
    cases hbody : f.request.body <;> simp only [Entry.placed?, hbody] at hplaced <;> cases hplaced
    rfl
  | _ => cases hplaced

end Sent

/-! ## What is said of an order -/

namespace Notice

def clientOrderId : Notice → String
  | .orders data => data.clientOrderId
  | .clearing data => data.clientOrderId
  | .openOrder item => item.clientOrderId

/-- What is said of the order is what was sent of it. -/
def Echoes (b : PlaceOrderBody) : Notice → Prop
  | .orders data => data.clientOrderId = b.clientOrderId ∧ data.symbol = b.symbol ∧
    data.type = Json.OrderType.ofText b.typeText
  | .clearing data => data.clientOrderId = b.clientOrderId ∧ data.symbol = b.symbol ∧
    mapDirection data.orderSide = (Json.OrderType.ofText b.typeText).side
  | .openOrder item => item.clientOrderId = b.clientOrderId ∧ item.symbol = b.symbol ∧
    item.type = Json.OrderType.ofText b.typeText

instance (b : PlaceOrderBody) : DecidablePred (Echoes b)
  | .orders _ | .clearing _ | .openOrder _ => inferInstanceAs (Decidable (_ ∧ _ ∧ _))

end Notice

/-- What the exchange says of our own orders is what the gateway has sent of them. -/
def Honest {ρ : Type} (ours : String → Prop) (env : ReportsEnv) (s : Reports ρ) (e : Event) : Prop :=
  ∀ x ∈ env.notices s.gateway e, ours x.clientOrderId → ∃ b ∈ placed s.gateway, x.Echoes b

instance {ρ : Type} (ours : String → Prop) [DecidablePred ours] (env : ReportsEnv) (s : Reports ρ)
    (e : Event) : Decidable (Honest ours env s e) :=
  inferInstanceAs (Decidable (∀ x ∈ env.notices s.gateway e, ours x.clientOrderId → _))

/-! ## What is reported of an order -/

/-- The order has a side, and a type on its own. -/
def Typed (o : CreateOrder) : Prop :=
  o.side ≠ .undefined ∧ (o.timeInForce = .ioc ∨ o.orderType ≠ .undefined)

namespace OrderReport

def clientOrderId : OrderReport → String
  | .orderUpdate update => update.clientOrderId
  | .tradeUpdate update => update.clientOrderId

/-- The report has the symbol and the side of the order, and everything else that the
exchange's order types have room for. -/
def IsFor (env : ReportsEnv) (o : CreateOrder) : OrderReport → Prop
  | .orderUpdate update => update.account = env.gateway.account.name ∧ update.exchange = env.exchange ∧
    update.symbol = o.symbol ∧ (Typed o → update.side = o.side) ∧
    (o.side ≠ .undefined → Faithful o → update.orderType = o.orderType ∧
      update.timeInForce =
        (if o.orderType = .limit ∧ o.timeInForce = .undefined then .gtc else o.timeInForce) ∧
      update.executionInstructions.has participateDoNotInitiate =
        o.executionInstructions.has participateDoNotInitiate)
  | .tradeUpdate update => update.account = env.gateway.account.name ∧ update.exchange = env.exchange ∧
    update.symbol = o.symbol ∧ (Typed o → update.side = o.side)

end OrderReport

section Reported

variable {env : ReportsEnv}

theorem encoder_names {formats : Formats} {o : CreateOrder} {refData : RefData} {requestId : String}
    {accountId : Int} {b : PlaceOrderBody}
    (hb : Encoder.placeOrder formats o refData requestId accountId = .ok b) :
    b.symbol = o.symbol ∧ b.clientOrderId = requestId :=
  have hbody := (Encoder.placeOrder_eq_ok hb).2
  ⟨congrArg PlaceOrderBody.symbol hbody, congrArg PlaceOrderBody.clientOrderId hbody⟩

/-- The side survives, whatever else is lost. -/
theorem encoder_side {formats : Formats} {o : CreateOrder} {refData : RefData} {requestId : String}
    {accountId : Int} {b : PlaceOrderBody}
    (hb : Encoder.placeOrder formats o refData requestId accountId = .ok b) (ho : Typed o) :
    (Json.OrderType.ofText b.typeText).side = o.side := by
  rw [encoder_typeText hb ho.1 ho.2]
  exact mapOrderType_side _ _ _ ho.1 ho.2

/-- What is said of an order that was asked for is reported as it was asked for. -/
theorem Notice.Echoes.isFor {formats : Formats} {o : CreateOrder} {refData : RefData}
    {requestId : String} {accountId : Int} {b : PlaceOrderBody}
    (hb : Encoder.placeOrder formats o refData requestId accountId = .ok b) {x : Notice}
    (hx : x.Echoes b) :
    (x.report env).clientOrderId = requestId ∧ (x.report env).IsFor env o := by
  obtain ⟨hsymbol, hid⟩ := encoder_names hb
  have typed : ∀ type, type = Json.OrderType.ofText b.typeText → (Typed o → type.side = o.side) ∧
      (o.side ≠ .undefined → Faithful o → type.orderType = o.orderType ∧
        type.timeInForce =
          (if o.orderType = .limit ∧ o.timeInForce = .undefined then .gtc else o.timeInForce) ∧
        type.executionInstructions.has participateDoNotInitiate =
          o.executionInstructions.has participateDoNotInitiate) := by
    rintro type rfl
    refine ⟨encoder_side hb, fun hside hfaithful => ?_⟩
    obtain ⟨-, htype, htime, hflag, -⟩ := (encoder_describes_iff hb hside).mpr hfaithful
    exact ⟨htype, htime, hflag⟩
  cases x with
  | orders data =>
    obtain ⟨hclient, hdata, htype⟩ := hx
    exact ⟨hclient.trans hid, rfl, rfl, hdata.trans hsymbol, typed _ htype⟩
  | clearing data =>
    obtain ⟨hclient, hdata, hside⟩ := hx
    exact ⟨hclient.trans hid, rfl, rfl, hdata.trans hsymbol, fun ho => hside.trans (encoder_side hb ho)⟩
  | openOrder item =>
    obtain ⟨hclient, hdata, htype⟩ := hx
    exact ⟨hclient.trans hid, rfl, rfl, hdata.trans hsymbol, typed _ htype⟩

theorem report_clientOrderId (x : Notice) : (x.report env).clientOrderId = x.clientOrderId := by
  cases x <;> rfl

variable {ρ : Type} [LimitRequest ρ] {ours : String → Prop} {s : Reports ρ}

/-- In every run in which the exchange says of our own orders what the gateway has sent
of them, every report on one of them is for an order that was asked for: it has the
id of the request, the account, and the symbol and the side that were asked for; and
the type, the time in force and the flag, if the exchange has room for them. -/
theorem reports_describe (h : (reports ρ env).Reach (Honest ours env) s) :
    ∀ x ∈ s.published, ours x.clientOrderId → ∃ f info o, .restRequest f ∈ s.gateway.log ∧
      f.cause = .createOrder info o ∧ x.clientOrderId = f.requestId ∧ x.IsFor env o := by
  refine h.invariant_of (J := fun s => (machine ρ env.gateway).Reachable s.gateway)
    (I := fun s : Reports ρ => ∀ x ∈ s.published, ours x.clientOrderId → ∃ f info o,
      .restRequest f ∈ s.gateway.log ∧ f.cause = .createOrder info o ∧
        x.clientOrderId = f.requestId ∧ x.IsFor env o)
    (fun s => Reports.gateway_reachable) (fun x hx => absurd hx List.not_mem_nil)
    fun s e s' hreachable hs he hstep x hx hours => ?_
  have hgateway : Gateway.step env.gateway s.gateway e = some s'.gateway := by
    rw [← Reports.step_gateway]
    exact congrArg (Option.map Reports.gateway) hstep
  obtain ⟨new, hlog, -⟩ := Gateway.grows_of_step hgateway
  have kept : ∀ y ∈ s.gateway.log, y ∈ s'.gateway.log := fun y hy => by
    rw [hlog]
    exact List.mem_append_right _ hy
  have hx : x ∈ s.published.reverse ++ (env.notices s.gateway e).map (Notice.report env) := by
    rw [← Reports.step_publishes hstep]
    exact List.mem_reverse.mpr hx
  rcases List.mem_append.mp hx with hx | hx
  · obtain ⟨f, info, o, hf, hrest⟩ := hs x (List.mem_reverse.mp hx) hours
    exact ⟨f, info, o, kept _ hf, hrest⟩
  · obtain ⟨notice, hnotice, rfl⟩ := List.mem_map.mp hx
    rw [report_clientOrderId] at hours
    obtain ⟨b, hb, hechoes⟩ := he notice hnotice hours
    obtain ⟨f, hf, hbody⟩ := mem_placed hb
    obtain ⟨info, o, refData, accountId, hcause, hencoded⟩ := Gateway.encoded hreachable hf hbody
    obtain ⟨hid, hfor⟩ := hechoes.isFor hencoded
    exact ⟨f, info, o, kept _ hf, hcause, hid, hfor⟩

theorem reports_describe_filled : ∃ s : Reports Reader.Flags, s.published.length = 3 ∧
    ∀ x ∈ s.published, ∃ f info o, .restRequest f ∈ s.gateway.log ∧ f.cause = .createOrder info o ∧
      x.clientOrderId = f.requestId ∧ x.IsFor Reader.reportsEnv o := by
  obtain ⟨s, hs, hlength⟩ := Machine.exists_reach (M := reports Reader.Flags Reader.reportsEnv)
    (C := Honest (fun _ => True) Reader.reportsEnv) (P := fun s => s.published.length = 3)
    (Reports.working ++ Reports.filling) (by decide +kernel)
  exact ⟨s, hlength, fun x hx => reports_describe hs x hx trivial⟩

end Reported

end RoqHtx

import RoqHtx.Impl.Reader
import RoqHtx.Proof.Sends

/-!
# What an order is sent as

The exchange's order type mapped back (`mapOrderType_side` and its like): IOC
wins over the type of the order and its flag, the flag wins over FOK, and a
market order has no time in force. A sent order describes the order that was
asked for exactly when nothing is lost to that and the price is there just for a
limit order (`placeOrder_describes_iff`).
-/

namespace RoqHtx

open ExecutionInstruction (participateDoNotInitiate)

/-! ## Mapping back -/

section

variable {side : Side} (orderType : OrderType) (timeInForce : TimeInForce)
  (executionInstructions : Mask ExecutionInstruction)

theorem mapOrderType_side (hside : side ≠ .undefined)
    (h : timeInForce = .ioc ∨ orderType ≠ .undefined) :
    (mapOrderType side orderType timeInForce executionInstructions).side = side := by
  unfold mapOrderType
  cases side with
  | undefined => exact absurd rfl hside
  | buy | sell =>
    dsimp only
    split
    · rfl
    · rename_i hioc
      cases orderType with
      | undefined => exact absurd rfl (h.resolve_left hioc)
      | market => rfl
      | limit =>
        dsimp only
        repeat' split
        all_goals rfl

theorem mapOrderType_orderType (hside : side ≠ .undefined) :
    (mapOrderType side orderType timeInForce executionInstructions).orderType =
      if timeInForce = .ioc then .limit else orderType := by
  unfold mapOrderType
  cases side with
  | undefined => exact absurd rfl hside
  | buy | sell =>
    dsimp only
    split
    · rfl
    · cases orderType with
      | undefined | market => rfl
      | limit =>
        dsimp only
        repeat' split
        all_goals rfl

theorem mapOrderType_timeInForce (hside : side ≠ .undefined) :
    (mapOrderType side orderType timeInForce executionInstructions).timeInForce =
      if timeInForce = .ioc then .ioc
      else if orderType ≠ .limit then .undefined
      else if executionInstructions.has participateDoNotInitiate then .gtc
      else if timeInForce = .fok then .fok
      else .gtc := by
  unfold mapOrderType
  cases side with
  | undefined => exact absurd rfl hside
  | buy | sell =>
    dsimp only
    split
    · rfl
    · cases orderType with
      | undefined | market => rfl
      | limit =>
        simp only [ne_eq, not_true_eq_false, if_false]
        repeat' split
        all_goals rfl

theorem mapOrderType_executionInstructions (hside : side ≠ .undefined) :
    (mapOrderType side orderType timeInForce executionInstructions).executionInstructions.has
        participateDoNotInitiate =
      (decide (timeInForce ≠ .ioc) && decide (orderType = .limit) &&
        executionInstructions.has participateDoNotInitiate) := by
  unfold mapOrderType
  cases side with
  | undefined => exact absurd rfl hside
  | buy | sell =>
    dsimp only
    split
    · rename_i hioc
      simp [hioc, Json.OrderType.executionInstructions, Mask.has]
    · rename_i hioc
      cases orderType with
      | undefined | market => simp [Json.OrderType.executionInstructions, Mask.has]
      | limit =>
        cases hm : executionInstructions.has participateDoNotInitiate with
        | true => simp [hioc, Json.OrderType.executionInstructions, Mask.has]
        | false =>
          by_cases hfok : timeInForce = .fok <;>
            simp [hfok, Json.OrderType.executionInstructions, Mask.has]

end

/-! ## What is sent -/

/-- The body describes the order: its type, mapped back, and its price. -/
def Describes (o : CreateOrder) (b : PlaceOrderBody) : Prop :=
  let type := Json.OrderType.ofText b.typeText
  type.side = o.side ∧ type.orderType = o.orderType ∧
    type.timeInForce =
      (if o.orderType = .limit ∧ o.timeInForce = .undefined then .gtc else o.timeInForce) ∧
    type.executionInstructions.has participateDoNotInitiate =
      o.executionInstructions.has participateDoNotInitiate ∧
    (b.price.isSome = true ↔ type.orderType = .limit)

/-- The orders that the exchange's order types have room for. -/
def Faithful (o : CreateOrder) : Prop :=
  match o.orderType with
  | .undefined => False
  | .market => o.timeInForce = .undefined ∧ o.price.isNaN = true ∧
    o.executionInstructions.has participateDoNotInitiate = false
  | .limit => o.price.isNaN = false ∧
    (o.timeInForce = .undefined ∨ o.timeInForce = .gtc ∨
      (o.timeInForce = .ioc ∨ o.timeInForce = .fok) ∧
        o.executionInstructions.has participateDoNotInitiate = false)

/-- The order is not sent: the connection is not ready, the type has no text, or
the REST client refuses the request. -/
def NotSent {ρ : Type} (env : Env) (refuses : Nat → Option Exn) (o : CreateOrder) (g : Gateway ρ) :
    Prop :=
  OrderEntry.ready g = false ∨
    (o.orderType = .undefined ∧ o.timeInForce ≠ .ioc ∧ ∃ e, env.formats.unlistedText = .error e) ∨
    ∃ e, refuses g.nextId = some e

section

variable {formats : Formats} {o : CreateOrder} {refData : RefData} {requestId : String}
  {accountId : Int}

/-- Only an order without a type of its own has no text. -/
theorem encoder_error_iff (hside : o.side ≠ .undefined) (e : Exn) :
    Encoder.placeOrder formats o refData requestId accountId = .error e ↔
      o.orderType = .undefined ∧ o.timeInForce ≠ .ioc ∧ formats.unlistedText = .error e := by
  have listed : (o.timeInForce = .ioc ∨ o.orderType ≠ .undefined) → ∃ text,
      (mapOrderType o.side o.orderType o.timeInForce o.executionInstructions).asRawText = some text :=
    fun h => by
      have := mapOrderType_side o.orderType o.timeInForce o.executionInstructions hside h
      generalize mapOrderType o.side o.orderType o.timeInForce o.executionInstructions = type at this
      cases type <;> first | exact ⟨_, rfl⟩ | exact absurd this.symm hside
  rw [Encoder.placeOrder_error_iff, Encoder.typeText]
  by_cases h : o.timeInForce = .ioc ∨ o.orderType ≠ .undefined
  · obtain ⟨text, htext⟩ := listed h
    refine iff_of_false (by simp [htext]) ?_
    rintro ⟨h1, h2, -⟩
    exact h.elim h2 fun h3 => h3 h1
  · rw [not_or, not_not] at h
    have : mapOrderType o.side o.orderType o.timeInForce o.executionInstructions =
        .undefinedInternal := by
      cases hs : o.side with
      | undefined => exact absurd hs hside
      | buy | sell => simp [mapOrderType, h.1, h.2]
    simp only [this, Json.OrderType.asRawText, Option.map_none, Option.getD_none]
    cases formats.unlistedText <;> simp [h.1, h.2]

variable {b : PlaceOrderBody}
  (hb : Encoder.placeOrder formats o refData requestId accountId = .ok b)

include hb

theorem encoder_price : b.price.isSome = true ↔ o.price.isNaN = false := by
  rw [(Encoder.placeOrder_eq_ok hb).2]
  cases o.price.isNaN <;> simp

theorem encoder_typeText (hside : o.side ≠ .undefined)
    (h : o.timeInForce = .ioc ∨ o.orderType ≠ .undefined) :
    Json.OrderType.ofText b.typeText =
      mapOrderType o.side o.orderType o.timeInForce o.executionInstructions := by
  have hback := mapOrderType_side o.orderType o.timeInForce o.executionInstructions hside h
  rcases Encoder.typeText_cases (Encoder.placeOrder_eq_ok hb).1 with htext | ⟨hnone, -⟩
  · exact Json.OrderType.ofText_asRawText htext
  · generalize mapOrderType o.side o.orderType o.timeInForce o.executionInstructions = type at hback hnone
    cases type <;> first | exact absurd hback.symm hside | cases hnone

/-- A body describes the order exactly when there is room for it. -/
theorem encoder_describes_iff (hside : o.side ≠ .undefined) : Describes o b ↔ Faithful o := by
  have hprice := encoder_price hb
  by_cases h : o.timeInForce = .ioc ∨ o.orderType ≠ .undefined
  · have htext := encoder_typeText hb hside h
    rw [Describes, htext, mapOrderType_side _ _ _ hside h, mapOrderType_orderType _ _ _ hside,
      mapOrderType_timeInForce _ _ _ hside, mapOrderType_executionInstructions _ _ _ hside, hprice,
      Faithful]
    cases htype : o.orderType <;> cases htif : o.timeInForce <;>
      cases o.executionInstructions.has participateDoNotInitiate <;> simp_all
  · -- no text of an order type without a side reads back as a side
    rw [not_or, not_not] at h
    refine iff_of_false ?_ (by simp [Faithful, h.2])
    rintro ⟨h1, h2, -⟩
    rw [h.2] at h2
    generalize Json.OrderType.ofText b.typeText = type at h1 h2
    cases type <;> first | exact hside h1.symm | cases h2

end

/-! ## One order, one request -/

section

variable {ρ : Type} {o : CreateOrder}

/-- The request that an order is sent with. -/
def placeOrderRequest (env : Env) (info : MessageInfo) (o : CreateOrder) (requestId : String)
    (b : PlaceOrderBody) (g : Gateway ρ) : InFlight where
  id := g.nextId
  request := OrderEntry.postRequest env info OrderEntry.Path.placeOrder (.placeOrder b)
  callback := .placeOrderAck info.source o.orderId
  requestId := requestId
  cause := .createOrder info o
  batch := g.batch

/-- Nothing happens to an order that is not sent; any other is sent once. -/
theorem placeOrder_cases (env : Env) (refuses : Nat → Option Exn) (info : MessageInfo)
    (refData : RefData) (requestId : String) (g : Gateway ρ) (hside : o.side ≠ .undefined) :
    (NotSent env refuses o g ∧
      ∃ e, OrderEntry.placeOrder env refuses info o refData requestId g = .throws e g) ∨
    (¬NotSent env refuses o g ∧ ∃ b,
      Encoder.placeOrder env.formats o refData requestId g.orderEntry.accountId = .ok b ∧
        OrderEntry.placeOrder env refuses info o refData requestId g =
          .ok (g.sent (placeOrderRequest env info o requestId b g))) := by
  unfold OrderEntry.placeOrder NotSent
  cases hready : OrderEntry.ready g with
  | false => exact .inl ⟨.inl rfl, _, rfl⟩
  | true =>
    cases hb : Encoder.placeOrder env.formats o refData requestId g.orderEntry.accountId with
    | error e =>
      obtain ⟨htype, htime, hunlisted⟩ := (encoder_error_iff hside e).mp hb
      exact .inl ⟨.inr (.inl ⟨htype, htime, e, hunlisted⟩), e, rfl⟩
    | ok body =>
      have hlisted : ¬(o.orderType = .undefined ∧ o.timeInForce ≠ .ioc ∧
          ∃ e, env.formats.unlistedText = .error e) := by
        rintro ⟨htype, htime, e, hunlisted⟩
        cases hb.symm.trans ((encoder_error_iff hside e).mpr ⟨htype, htime, hunlisted⟩)
      rcases OrderEntry.send_cases refuses
        (OrderEntry.postRequest env info OrderEntry.Path.placeOrder (.placeOrder body))
        (.placeOrderAck info.source o.orderId) requestId (.createOrder info o) g with
        ⟨e, hrefuses, hsend⟩ | ⟨hrefuses, hsend⟩
      · exact .inl ⟨.inr (.inr ⟨e, hrefuses⟩), e, hsend⟩
      · exact .inr ⟨by simp [hlisted, hrefuses], body, rfl, hsend⟩

end

/-- An order that is not sent is refused, and nothing else happens; any other is sent
as one request, which describes it exactly when there is room for it. -/
theorem placeOrder_describes_iff {ρ : Type} (env : Env) (refuses : Nat → Option Exn)
    (info : MessageInfo) (o : CreateOrder) (refData : RefData) (requestId : String) (g : Gateway ρ)
    (hside : o.side ≠ .undefined) :
    (NotSent env refuses o g →
      ∃ e, OrderEntry.placeOrder env refuses info o refData requestId g = .throws e g) ∧
    (¬NotSent env refuses o g → ∃ f b,
      OrderEntry.placeOrder env refuses info o refData requestId g = .ok (g.sent f) ∧
        f.request.body = .placeOrder b ∧ (Describes o b ↔ Faithful o)) := by
  rcases placeOrder_cases env refuses info refData requestId g hside with
    ⟨hnot, e, hthrows⟩ | ⟨hsent, b, hb, hok⟩
  · exact ⟨fun _ => ⟨e, hthrows⟩, fun h => absurd hnot h⟩
  · exact ⟨fun h => absurd h hsent, fun _ => ⟨_, b, hok, rfl, encoder_describes_iff hb hside⟩⟩

/-! ## A market order -/

open Reader (info limitGtc)

/-- A market order, immediate or cancel. -/
def marketIoc : CreateOrder :=
  { limitGtc with
    orderType := .market
    timeInForce := .ioc
    price := .nan }

/-- A gateway whose connection for orders is ready. -/
abbrev connected : Gateway Reader.Flags := OrderEntry.onConnected Gateway.init

/-- The limit order is sent as itself. -/
theorem limitGtc_describes : ∃ f b,
    OrderEntry.placeOrder Reader.env (fun _ => none) info limitGtc ⟨0, 2⟩ "A1" connected =
      .ok (connected.sent f) ∧
    f.request.body = .placeOrder b ∧ Describes limitGtc b := by
  have faithful : Faithful limitGtc := ⟨by decide, .inr (.inl rfl)⟩
  have sent : ¬NotSent Reader.env (fun _ => none) limitGtc connected := by
    rintro (hready | ⟨htype, -⟩ | ⟨e, hrefuses⟩)
    · exact absurd hready (by decide)
    · exact absurd htype (by decide)
    · cases hrefuses
  obtain ⟨f, b, hok, hbody, describes⟩ := (placeOrder_describes_iff Reader.env (fun _ => none) info
    limitGtc ⟨0, 2⟩ "A1" connected (by decide)).2 sent
  exact ⟨f, b, hok, hbody, describes.mpr faithful⟩

/-- The market order is sent as a limit order without a price. -/
theorem marketIoc_not_described : ∃ f b,
    OrderEntry.placeOrder Reader.env (fun _ => none) info marketIoc ⟨0, 2⟩ "A1" connected =
      .ok (connected.sent f) ∧
    f.request.body = .placeOrder b ∧ b.typeText = "buy-ioc" ∧ b.price = none ∧
    ¬Describes marketIoc b := by
  refine ⟨_, _, rfl, rfl, by decide, by decide, ?_⟩
  rintro ⟨-, htype, -⟩
  cases htype

end RoqHtx

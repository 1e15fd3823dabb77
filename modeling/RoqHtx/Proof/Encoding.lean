import RoqHtx.Framework.Digits
import RoqHtx.Framework.JsonText
import RoqHtx.Impl.Reader

/-!
# The bodies of the order requests

The encoder writes its JSON in pieces. Each body is the text of an object
(`placeOrderText_eq` and its like) as long as none of its strings needs an escape,
so that a reader gets back the members one by one (`texts_decode`).
-/

namespace RoqHtx.Encoder

open RoqHtx.JsonText (Value Plain parse)

/-! ## Members -/

def placeOrderMembers (formats : Formats) (o : CreateOrder) (refData : RefData) (requestId : String)
    (accountId : Int) (type : String) : List (String × Value) :=
  [("account-id", .string (toString accountId)), ("symbol", .string o.symbol),
    ("client-order-id", .string requestId), ("type", .string type),
    ("amount", .string (formats.decimal o.quantity refData.quantityPrecision))] ++
  (if o.price.isNaN then []
    else [("price", .string (formats.decimal o.price refData.pricePrecision))]) ++
  [("source", .string "spot-api"), ("self-match-prevent", .number "0")]

def cancelOrderMembers (order : Order) : List (String × Value) :=
  [("order-id", .string order.externalOrderId), ("symbol", .string order.symbol)]

def cancelClientOrderMembers (order : Order) : List (String × Value) :=
  [("client-order-id", .string order.clientOrderId)]

/-- A text is an object with these members, whose names are distinct. -/
structure Decodes (text : String) (members : List (String × Value)) : Prop where
  parse : parse text = some (.object members)
  distinct : (members.map Prod.fst).Nodup

/-! ## Texts -/

variable {formats : Formats} {buffer : String} {o : CreateOrder} {refData : RefData}
  {requestId : String} {accountId : Int} {order : Order}

theorem placeOrderText_eq {type : String} (h : typeText formats o = .ok type) :
    placeOrderText formats buffer o refData requestId accountId =
      .ok (String.ofList
        (Value.object (placeOrderMembers formats o refData requestId accountId type)).text) := by
  rw [placeOrderText, h]
  simp only [Except.ok.injEq]
  apply String.toList_injective
  cases hprice : o.price.isNaN <;>
    simp [placeOrderMembers, hprice, Buffer.clear, Buffer.formatTo, Value.text, JsonText.memberText,
      JsonText.membersText, JsonText.quoted]

theorem cancelOrderText_eq {assertions : Bool} (h : assertions = false ∨ order.externalOrderId ≠ "") :
    cancelOrderText assertions buffer order =
      some (String.ofList (Value.object (cancelOrderMembers order)).text) := by
  rw [cancelOrderText, if_neg (by rcases h with h | h <;> simp [h]), Option.some.injEq]
  apply String.toList_injective
  simp [cancelOrderMembers, Buffer.clear, Buffer.formatTo, Value.text, JsonText.memberText,
    JsonText.membersText, JsonText.quoted]

theorem cancelClientOrderText_eq :
    cancelClientOrderText buffer order =
      String.ofList (Value.object (cancelClientOrderMembers order)).text := by
  apply String.toList_injective
  simp [cancelClientOrderText, cancelClientOrderMembers, Buffer.clear, Buffer.formatTo, Value.text,
    JsonText.memberText, JsonText.membersText, JsonText.quoted]

/-! ### Bodies -/

/-- A body has what the encoder was given, and the text of the type. -/
theorem placeOrder_eq_ok {b : PlaceOrderBody}
    (h : placeOrder formats o refData requestId accountId = .ok b) :
    typeText formats o = .ok b.typeText ∧
      b = ⟨accountId, o.symbol, requestId, b.typeText,
        formats.decimal o.quantity refData.quantityPrecision,
        if o.price.isNaN then none else some (formats.decimal o.price refData.pricePrecision)⟩ := by
  unfold placeOrder at h
  split at h <;> cases h
  exact ⟨‹_›, rfl⟩

/-- Only the text of the type can be missing. -/
theorem placeOrder_error_iff {e : Exn} :
    placeOrder formats o refData requestId accountId = .error e ↔ typeText formats o = .error e := by
  unfold placeOrder
  cases typeText formats o <;> simp

/-- The buffer has the text of the body that is sent. -/
theorem placeOrderText_body {b : PlaceOrderBody}
    (h : placeOrder formats o refData requestId accountId = .ok b) :
    placeOrderText formats buffer o refData requestId accountId = .ok b.text := by
  obtain ⟨htype, hbody⟩ := placeOrder_eq_ok h
  rw [placeOrderText, htype, hbody, Except.ok.injEq]
  show _ = PlaceOrderBody.text ⟨_, _, _, _, _, _⟩
  delta PlaceOrderBody.text
  apply String.toList_injective
  cases o.price.isNaN <;> simp [Buffer.clear, Buffer.formatTo]

theorem cancelOrderText_body (assertions : Bool) (h : order.externalOrderId ≠ "") :
    cancelOrderText assertions buffer order = some (cancelOrder order).text := by
  rw [cancelOrderText, if_neg (by simp [h]), Option.some.injEq]
  show _ = "\x7b\"order-id\":\"" ++ order.externalOrderId ++ "\",\"symbol\":\"" ++ order.symbol ++
    "\"\x7d"
  apply String.toList_injective
  simp [Buffer.clear, Buffer.formatTo]

theorem cancelClientOrderText_body :
    cancelClientOrderText buffer order = (cancelClientOrder order).text := by
  show _ = "\x7b\"client-order-id\":\"" ++ order.clientOrderId ++ "\"\x7d"
  apply String.toList_injective
  simp [cancelClientOrderText, Buffer.clear, Buffer.formatTo]

/-! ## Reading them back -/

/-- What is formatted elsewhere needs no escapes. -/
structure PlainFormats (formats : Formats) : Prop where
  decimal (x : Double) (precision : Nat) : Plain (formats.decimal x precision)
  unlistedText (text : String) : formats.unlistedText = .ok text → Plain text

theorem plain_asRawText {t : Json.OrderType} {text : String} (h : t.asRawText = some text) :
    Plain text := by
  cases t <;> simp only [Json.OrderType.asRawText, reduceCtorEq, Option.some.injEq] at h <;>
    subst h <;> decide

/-- The type's own text, or else what is written for a type that has none. -/
theorem typeText_cases {type : String} (h : typeText formats o = .ok type) :
    let t := mapOrderType o.side o.orderType o.timeInForce o.executionInstructions
    t.asRawText = some type ∨ t.asRawText = none ∧ formats.unlistedText = .ok type := by
  intro t
  rw [typeText] at h
  cases ht : t.asRawText with
  | none =>
    refine .inr ⟨rfl, ?_⟩
    simpa only [t, ht, Option.map_none, Option.getD_none] using h
  | some text =>
    refine .inl ?_
    simpa only [t, ht, Option.map_some, Option.getD_some, Except.ok.injEq, Option.some.injEq] using h

theorem plain_typeText (hformats : PlainFormats formats) {type : String}
    (h : typeText formats o = .ok type) : Plain type :=
  (typeText_cases h).elim plain_asRawText fun h => hformats.unlistedText type h.2

theorem plain_placeOrderMembers (hformats : PlainFormats formats) (hsymbol : Plain o.symbol)
    (hrequestId : Plain requestId) {type : String} (htype : Plain type) :
    (Value.object (placeOrderMembers formats o refData requestId accountId type)).Plain := by
  have hid := JsonText.plain_toString accountId
  have hamount := hformats.decimal o.quantity refData.quantityPrecision
  have hprice := hformats.decimal o.price refData.pricePrecision
  have hlast : JsonText.membersPlain [("source", .string "spot-api"),
      ("self-match-prevent", .number "0")] := by
    refine ⟨⟨by decide, (by decide : Plain "spot-api")⟩, ⟨by decide, ?_⟩, trivial⟩
    exact (by decide : JsonText.isNumber "0".toList = true ∧ "0".toList.all JsonText.isNumberChar = true)
  rw [placeOrderMembers]
  cases o.price.isNaN with
  | true =>
    exact ⟨⟨by decide, hid⟩, ⟨by decide, hsymbol⟩, ⟨by decide, hrequestId⟩, ⟨by decide, htype⟩,
      ⟨by decide, hamount⟩, hlast⟩
  | false =>
    exact ⟨⟨by decide, hid⟩, ⟨by decide, hsymbol⟩, ⟨by decide, hrequestId⟩, ⟨by decide, htype⟩,
      ⟨by decide, hamount⟩, ⟨by decide, hprice⟩, hlast⟩

theorem decodes_text {members : List (String × Value)} (hplain : (Value.object members).Plain)
    (hdistinct : (members.map Prod.fst).Nodup) :
    Decodes (String.ofList (Value.object members).text) members :=
  ⟨JsonText.parse_text hplain, hdistinct⟩

theorem distinct_placeOrderMembers (type : String) :
    ((placeOrderMembers formats o refData requestId accountId type).map Prod.fst).Nodup := by
  rw [placeOrderMembers]
  cases o.price.isNaN with
  | true =>
    show ["account-id", "symbol", "client-order-id", "type", "amount", "source",
      "self-match-prevent"].Nodup
    decide
  | false =>
    show ["account-id", "symbol", "client-order-id", "type", "amount", "price", "source",
      "self-match-prevent"].Nodup
    decide

theorem decodes_placeOrderText (hformats : PlainFormats formats) (hsymbol : Plain o.symbol)
    (hrequestId : Plain requestId) {type : String} (htype : typeText formats o = .ok type) :
    ∃ text, placeOrderText formats buffer o refData requestId accountId = .ok text ∧
      Decodes text (placeOrderMembers formats o refData requestId accountId type) :=
  ⟨_, placeOrderText_eq htype, decodes_text (plain_placeOrderMembers hformats hsymbol hrequestId
    (plain_typeText hformats htype)) (distinct_placeOrderMembers type)⟩

/-- What is written is read as the members of the order, whatever the buffer held. -/
theorem decodes_cancelOrderText {assertions : Bool} {text : String}
    (hexternal : Plain order.externalOrderId) (hsymbol : Plain order.symbol)
    (h : cancelOrderText assertions buffer order = some text) :
    Decodes text (cancelOrderMembers order) := by
  have hassert : assertions = false ∨ order.externalOrderId ≠ "" := by
    unfold cancelOrderText at h
    split at h
    · cases h
    · rename_i hassert
      simpa [imp_iff_not_or] using hassert
  obtain rfl := Option.some.inj ((cancelOrderText_eq hassert).symm.trans h)
  refine decodes_text ⟨⟨by decide, hexternal⟩, ⟨by decide, hsymbol⟩, trivial⟩ ?_
  show ["order-id", "symbol"].Nodup
  decide

theorem decodes_cancelClientOrderText (hclient : Plain order.clientOrderId) :
    Decodes (cancelClientOrderText buffer order) (cancelClientOrderMembers order) := by
  rw [cancelClientOrderText_eq]
  exact decodes_text ⟨⟨by decide, hclient⟩, trivial⟩ (List.nodup_singleton _)

/-- The body of the request that is sent is read in the same way. -/
theorem decodes_body (hformats : PlainFormats formats) (hsymbol : Plain o.symbol)
    (hrequestId : Plain requestId) {body : PlaceOrderBody}
    (hbody : placeOrder formats o refData requestId accountId = .ok body) :
    Decodes body.text (placeOrderMembers formats o refData requestId accountId body.typeText) := by
  obtain ⟨text, htext, hdecodes⟩ : ∃ text,
      placeOrderText formats "" o refData requestId accountId = .ok text ∧
        Decodes text (placeOrderMembers formats o refData requestId accountId body.typeText) :=
    decodes_placeOrderText hformats hsymbol hrequestId (placeOrder_eq_ok hbody).1
  rw [placeOrderText_body hbody] at htext
  exact Except.ok.inj htext ▸ hdecodes

/-- Whatever the buffer held, the encoder's texts are read as what it was given. -/
theorem texts_decode (hformats : PlainFormats formats) (assertions : Bool) (buffer : String)
    (refData : RefData) (accountId : Int) (hsymbol : Plain o.symbol) (hrequestId : Plain requestId)
    (horder : Plain order.symbol) (hexternal : Plain order.externalOrderId)
    (hclient : Plain order.clientOrderId) :
    (∀ type, typeText formats o = .ok type → ∃ text,
      placeOrderText formats buffer o refData requestId accountId = .ok text ∧
      Decodes text (placeOrderMembers formats o refData requestId accountId type) ∧
      Digits.readInt (toString accountId).toList = some accountId ∧
      let t := mapOrderType o.side o.orderType o.timeInForce o.executionInstructions
      (t.asRawText ≠ none → Json.OrderType.ofText type = t)) ∧
    (assertions = false ∨ order.externalOrderId ≠ "" → ∃ text,
      cancelOrderText assertions buffer order = some text ∧ Decodes text (cancelOrderMembers order)) ∧
    Decodes (cancelClientOrderText buffer order) (cancelClientOrderMembers order) := by
  refine ⟨fun type htype => ?_, fun hassert => ?_, decodes_cancelClientOrderText hclient⟩
  · obtain ⟨text, htext, hdecodes⟩ := decodes_placeOrderText hformats hsymbol hrequestId htype
    refine ⟨text, htext, hdecodes, Digits.readInt_toString accountId, fun hlisted => ?_⟩
    exact Json.OrderType.ofText_asRawText
      ((typeText_cases htype).resolve_right fun hunlisted => hlisted hunlisted.1)
  · have htext : cancelOrderText assertions buffer order = _ := cancelOrderText_eq hassert
    exact ⟨_, htext, decodes_cancelOrderText hexternal horder htext⟩

/-! ### A limit order -/

theorem plain_fraction (digits : Nat) : ∀ n : Nat, Plain (Reader.fraction n digits) := by
  induction digits with
  | zero => exact fun n => (by decide : Plain "")
  | succ digits ih =>
    exact fun n => JsonText.plain_append (ih _) (JsonText.plain_toString (n % 10 : Nat))

theorem plain_decimal (x : Double) (precision : Nat) : Plain (Reader.decimal x precision) := by
  unfold Reader.decimal
  dsimp only
  split
  · exact JsonText.plain_toString (_ : Nat)
  · exact JsonText.plain_append (JsonText.plain_append (JsonText.plain_toString (_ : Nat)) (by decide))
      (plain_fraction _ _)

theorem plain_formats : PlainFormats Reader.env.formats where
  decimal := plain_decimal
  unlistedText text h := by
    cases h
    decide

/-- A limit order, after a cancel request in the same buffer. -/
theorem texts_decode_limit :
    ∃ text, placeOrderText Reader.env.formats (cancelClientOrderText "" Reader.order) Reader.limitGtc
        ⟨0, 2⟩ "A1" 100009 = .ok text ∧
      JsonText.parse text = some (.object
        [("account-id", .string "100009"), ("symbol", .string "btcusdt"),
          ("client-order-id", .string "A1"), ("type", .string "buy-limit"), ("amount", .string "1"),
          ("price", .string "32000.00"), ("source", .string "spot-api"),
          ("self-match-prevent", .number "0")]) := by
  obtain ⟨text, htext, hdecodes, -⟩ := (texts_decode plain_formats false
    (cancelClientOrderText "" Reader.order) ⟨0, 2⟩ 100009
    (by decide : Plain Reader.limitGtc.symbol) (by decide : Plain "A1")
    (by decide : Plain Reader.order.symbol) (by decide : Plain Reader.order.externalOrderId)
    (by decide : Plain Reader.order.clientOrderId)).1 "buy-limit" (by decide)
  refine ⟨text, htext, hdecodes.parse.trans ?_⟩
  have hid : toString (100009 : Int) = "100009" := by decide
  have hamount : Reader.decimal 0x3ff0000000000000#64 0 = "1" := by decide
  have hprice : Reader.decimal 0x40df400000000000#64 2 = "32000.00" := by decide
  have hnan : Double.isNaN 0x40df400000000000#64 = false := by decide
  simp only [placeOrderMembers, Reader.limitGtc, Reader.env, hid, hamount, hprice, hnan]
  rfl

end RoqHtx.Encoder

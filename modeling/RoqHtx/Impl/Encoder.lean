import RoqHtx.Impl.Json
import RoqHtx.Impl.Response

/-!
# Order types and order requests

The maps between the exchange's order types and the gateway's (`map.cpp`), and
the bodies of the order requests (`Encoder`). A body keeps its fields apart;
`text` is the JSON the encoder writes.
-/

namespace RoqHtx

namespace Json.OrderType

/-! ## Inbound -/

def executionInstructions : OrderType → Mask ExecutionInstruction
  | .buyLimitMaker | .sellLimitMaker => {.participateDoNotInitiate}
  | .undefinedInternal | .unknownInternal | .buyMarket | .sellMarket | .buyLimit | .sellLimit
  | .buyIoc | .sellIoc | .buyStopLimit | .sellStopLimit | .buyLimitFok | .sellLimitFok
  | .buyStopLimitFok | .sellStopLimitFok => ∅

def orderType : OrderType → RoqHtx.OrderType
  | .undefinedInternal | .unknownInternal => .undefined
  | .buyMarket | .sellMarket => .market
  | .buyLimit | .sellLimit | .buyIoc | .sellIoc | .buyLimitMaker | .sellLimitMaker
  | .buyStopLimit | .sellStopLimit | .buyLimitFok | .sellLimitFok
  | .buyStopLimitFok | .sellStopLimitFok => .limit

def side : OrderType → Side
  | .undefinedInternal | .unknownInternal => .undefined
  | .buyMarket | .buyLimit | .buyIoc | .buyLimitMaker | .buyStopLimit | .buyLimitFok
  | .buyStopLimitFok => .buy
  | .sellMarket | .sellLimit | .sellIoc | .sellLimitMaker | .sellStopLimit | .sellLimitFok
  | .sellStopLimitFok => .sell

def timeInForce : OrderType → TimeInForce
  | .undefinedInternal | .unknownInternal | .buyMarket | .sellMarket => .undefined
  | .buyLimit | .sellLimit | .buyLimitMaker | .sellLimitMaker | .buyStopLimit | .sellStopLimit => .gtc
  | .buyIoc | .sellIoc => .ioc
  | .buyLimitFok | .sellLimitFok | .buyStopLimitFok | .sellStopLimitFok => .fok

end Json.OrderType

/-! ## Outbound -/

/-- The exchange's order type for an order: immediate-or-cancel before the type
of the order, post-only before fill-or-kill. -/
def mapOrderType (side : Side) (orderType : OrderType) (timeInForce : TimeInForce)
    (executionInstructions : Mask ExecutionInstruction) : Json.OrderType :=
  let maker := executionInstructions.has .participateDoNotInitiate
  match side with
  | .undefined => .undefinedInternal
  | .buy =>
    if timeInForce = .ioc then .buyIoc
    else match orderType with
      | .undefined => .undefinedInternal
      | .market => .buyMarket
      | .limit =>
        if maker then .buyLimitMaker
        else if timeInForce = .fok then .buyLimitFok
        else .buyLimit
  | .sell =>
    if timeInForce = .ioc then .sellIoc
    else match orderType with
      | .undefined => .undefinedInternal
      | .market => .sellMarket
      | .limit =>
        if maker then .sellLimitMaker
        else if timeInForce = .fok then .sellLimitFok
        else .sellLimit

/-! ## Bodies -/

/-- The fields of a place-order request, with the text of its type. -/
structure PlaceOrderBody where
  accountId : Int
  symbol : String
  clientOrderId : String
  typeText : String
  amount : String
  price : Option String

def PlaceOrderBody.text (b : PlaceOrderBody) : String :=
  "\x7b\"account-id\":\"" ++ toString b.accountId ++ "\",\"symbol\":\"" ++ b.symbol ++
    "\",\"client-order-id\":\"" ++ b.clientOrderId ++ "\",\"type\":\"" ++ b.typeText ++
    "\",\"amount\":\"" ++ b.amount ++ "\"" ++
    (match b.price with
      | some price => ",\"price\":\"" ++ price ++ "\""
      | none => "") ++
    ",\"source\":\"spot-api\",\"self-match-prevent\":0\x7d"

inductive Body where
  | empty
  | placeOrder (body : PlaceOrderBody)
  | cancelOrder (orderId symbol : String)
  | cancelClientOrder (clientOrderId : String)

def Body.text : Body → String
  | .empty => ""
  | .placeOrder body => body.text
  | .cancelOrder orderId symbol =>
    "\x7b\"order-id\":\"" ++ orderId ++ "\",\"symbol\":\"" ++ symbol ++ "\"\x7d"
  | .cancelClientOrder clientOrderId => "\x7b\"client-order-id\":\"" ++ clientOrderId ++ "\"\x7d"

/-- What the encoder relies on: how a decimal is formatted, and what the
generated `as_raw_text` does with a value that is not listed. -/
structure Formats where
  decimal : Double → Nat → String
  unlistedText : Except Exn String

namespace Encoder

/-- `as_raw_text` of the type of an order. -/
def typeText (formats : Formats) (createOrder : CreateOrder) : Except Exn String :=
  let type := mapOrderType createOrder.side createOrder.orderType createOrder.timeInForce
    createOrder.executionInstructions
  (type.asRawText.map Except.ok).getD formats.unlistedText

def placeOrder (formats : Formats) (createOrder : CreateOrder) (refData : RefData)
    (requestId : String) (accountId : Int) : Except Exn PlaceOrderBody :=
  match typeText formats createOrder with
  | .error e => .error e
  | .ok typeText => .ok
      { accountId
        symbol := createOrder.symbol
        clientOrderId := requestId
        typeText
        amount := formats.decimal createOrder.quantity refData.quantityPrecision
        price := if createOrder.price.isNaN then none
          else some (formats.decimal createOrder.price refData.pricePrecision) }

def cancelOrder (order : Order) : Body := .cancelOrder order.externalOrderId order.symbol

def cancelClientOrder (order : Order) : Body := .cancelClientOrder order.clientOrderId

/-! ### Buffers -/

/-- `place_order`: what it leaves in the buffer. -/
def placeOrderText (formats : Formats) (buffer : String) (createOrder : CreateOrder)
    (refData : RefData) (requestId : String) (accountId : Int) : Except Exn String :=
  let buffer := Buffer.clear buffer
  match typeText formats createOrder with
  | .error e => .error e
  | .ok type =>
    let buffer := Buffer.formatTo buffer ("\x7b" ++
      "\"account-id\":\"" ++ toString accountId ++ "\"," ++
      "\"symbol\":\"" ++ createOrder.symbol ++ "\"," ++
      "\"client-order-id\":\"" ++ requestId ++ "\"," ++
      "\"type\":\"" ++ type ++ "\"," ++
      "\"amount\":\"" ++ formats.decimal createOrder.quantity refData.quantityPrecision ++ "\"")
    let buffer :=
      if createOrder.price.isNaN then buffer
      else Buffer.formatTo buffer
        (",\"price\":\"" ++ formats.decimal createOrder.price refData.pricePrecision ++ "\"")
    .ok (Buffer.formatTo buffer (",\"source\":\"spot-api\"" ++ ",\"self-match-prevent\":0" ++ "\x7d"))

/-- `cancel_order`: undefined where its assertion fails. -/
def cancelOrderText (assertions : Bool) (buffer : String) (order : Order) : Option String :=
  if assertions && order.externalOrderId = "" then none
  else some (Buffer.formatTo (Buffer.clear buffer) ("\x7b" ++
    "\"order-id\":\"" ++ order.externalOrderId ++ "\"," ++
    "\"symbol\":\"" ++ order.symbol ++ "\"" ++ "\x7d"))

/-- `cancel_client_order`. -/
def cancelClientOrderText (buffer : String) (order : Order) : String :=
  Buffer.formatTo (Buffer.clear buffer) ("\x7b" ++ "\"client-order-id\":\"" ++ order.clientOrderId ++ "\"" ++ "\x7d")

end Encoder

end RoqHtx

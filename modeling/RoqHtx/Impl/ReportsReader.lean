import RoqHtx.Impl.Reports
import RoqHtx.Impl.SocketsReader

/-!
# A concrete environment of the reports

Readers of messages on orders and on trades, and of a list of open orders, as the
exchange writes them. All are about the orders of `Reader.create`.
-/

namespace RoqHtx.Reader

open Json

/-! ## Messages -/

def ordersText : String :=
  "\x7b\"tradePrice\":\"32000\",\"aggressor\":false,\"tradeVolume\":\"1\"," ++
    "\"tradeTime\":1764753390751,\"execAmt\":\"1\",\"tradeId\":103617355903," ++
    "\"orderSource\":\"spot-api\",\"orderPrice\":\"32000\",\"orderSize\":\"1\"," ++
    "\"remainAmt\":\"0\",\"totalTradeAmount\":\"32000\",\"symbol\":\"btcusdt\"," ++
    "\"eventType\":\"trade\",\"clientOrderId\":\"A1\",\"orderStatus\":\"filled\"," ++
    "\"orderId\":1474910140509947,\"type\":\"buy-limit\"\x7d"

def clearingText : String :=
  "\x7b\"eventType\":\"trade\",\"symbol\":\"btcusdt\",\"orderId\":1474910140509947," ++
    "\"orderSide\":\"buy\",\"orderType\":\"buy-limit\",\"accountId\":68824237," ++
    "\"source\":\"spot-api\",\"orderPrice\":\"32000\",\"orderSize\":\"1\",\"clientOrderId\":\"A1\"," ++
    "\"orderCreateTime\":1764753031817,\"orderStatus\":\"filled\",\"feeCurrency\":\"btc\"," ++
    "\"tradePrice\":\"32000\",\"tradeVolume\":\"1\",\"aggressor\":false," ++
    "\"tradeId\":103617355903,\"tradeTime\":1764753390751,\"transactFee\":\"0\"," ++
    "\"feeDeduct\":\"0\",\"feeDeductType\":\"\"\x7d"

/-- What is not there is as it is by default. -/
def filled : OrdersData where
  orderCreateTime := 0
  accountId := 0
  orderPrice := 0x40df400000000000#64
  orderSize := 0x3ff0000000000000#64
  eventType := .trade
  symbol := "btcusdt"
  orderStatus := .filled
  orderId := 1474910140509947
  clientOrderId := "A1"
  type := .buyLimit
  execAmt := 0x3ff0000000000000#64
  lastActTime := 0
  remainAmt := 0
  tradePrice := 0x40df400000000000#64
  aggressor := false
  tradeVolume := 0x3ff0000000000000#64
  tradeTime := 1764753390751

def cleared : ClearingData where
  symbol := "btcusdt"
  orderId := 1474910140509947
  orderSide := .buy
  accountId := 68824237
  clientOrderId := "A1"
  feeCurrency := "btc"
  tradePrice := 0x40df400000000000#64
  tradeVolume := 0x3ff0000000000000#64
  aggressor := false
  tradeId := 103617355903
  tradeTime := 1764753390751
  transactFee := 0

def readOrders (members : Members) : Except Exn OrdersData :=
  object [(ordersText, filled)] members "data"

def readClearing (members : Members) : Except Exn ClearingData :=
  object [(clearingText, cleared)] members "data"

/-- What the exchange pushes on a channel. -/
def pushed (channel data : String) : Members :=
  [("action", .string "push"), ("ch", .string channel), ("data", .object data)]

/-! ## Open orders -/

def openOrderBody : String :=
  "\x7b\"status\":\"ok\",\"data\":[\x7b\"source\":\"api\",\"symbol\":\"btcusdt\"," ++
    "\"created-at\":1764741859504,\"ice-amount\":\"0.0\",\"client-order-id\":\"A1\"," ++
    "\"account-type\":\"spot\",\"account-id\":68824237,\"price\":\"32000.000000000000000000\"," ++
    "\"amount\":\"1.000000000000000000\",\"filled-cash-amount\":\"0.0\",\"filled-fees\":\"0.0\"," ++
    "\"filled-amount\":\"0.0\",\"id\":1474910140509947,\"state\":\"submitted\"," ++
    "\"type\":\"buy-limit\"\x7d]\x7d"

def submitted : OpenOrdersAckDataItem where
  symbol := "btcusdt"
  createdAt := 1764741859504
  clientOrderId := "A1"
  accountId := 68824237
  price := 0x40df400000000000#64
  amount := 0x3ff0000000000000#64
  filledAmount := 0
  id := 1474910140509947
  state := .submitted
  type := .buyLimit

def readOpenOrders : String → Except Exn OpenOrders :=
  read [(openOrdersBody, { okAck with data := [] }), (openOrderBody, { okAck with data := [submitted] }),
    (errorBody, { errorAck with data := [] })]

/-! ## Environment -/

def decodeReport (kind : Kind) (members : Members) : Except Exn Message :=
  match kind with
  | .orders => (readOrders members).map fun _ => .orders
  | .clearing => (readClearing members).map fun _ => .clearing
  | kind => decode kind members

theorem decodeReport_kind {kind : Kind} {members : Members} {m : Message}
    (h : decodeReport kind members = .ok m) : m.kind = kind := by
  cases kind
  case orders | clearing =>
    rw [map_const_eq_ok h]
    rfl
  all_goals exact decode_kind (show decode _ members = .ok m from h)

/-- The difference to zero only. -/
def minusZero (x y : Double) : Double := if y = 0 then x else .nan

def reportsEnv : ReportsEnv where
  gateway :=
    { env with
      parser := { parser with decode := decodeReport, decode_kind := decodeReport_kind }
      decode :=
        { bodies with openOrdersAck := fun body => (readOpenOrders body).map OpenOrders.toOpenOrdersAck } }
  exchange := "htx"
  minus := minusZero
  orders := readOrders
  clearing := readClearing
  openOrdersAck := readOpenOrders
  decode_orders _ := rfl
  decode_clearing _ := rfl
  decode_openOrdersAck _ := rfl

end RoqHtx.Reader

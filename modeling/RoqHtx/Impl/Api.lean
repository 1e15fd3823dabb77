import Mathlib.Data.Finset.Basic

/-!
# The gateway's own vocabulary

The enumerations and records of the trading API that the gateway reads and
publishes (`roq::Side`, `roq::OrderType`, …), with the fields that the modelled
code uses. An enumerator that the code never names is an `other`.
-/

namespace RoqHtx

/-! ## Numbers -/

/-- An IEEE 754 double, by its bits. -/
abbrev Double := BitVec 64

/-- `std::isnan`: the exponent is all ones and the fraction is not zero. -/
def Double.isNaN (x : Double) : Bool := 0x7ff0000000000000#64 < (x &&& 0x7fffffffffffffff#64)

def Double.nan : Double := 0x7ff8000000000000#64

/-! ## Enumerations -/

inductive Side where
  | undefined | buy | sell
  deriving DecidableEq, Repr

inductive OrderType where
  | undefined | market | limit
  deriving DecidableEq, Repr

inductive TimeInForce where
  | undefined | gtc | ioc | fok
  | other (code : Nat)
  deriving DecidableEq, Repr

inductive ExecutionInstruction where
  | participateDoNotInitiate
  | other (code : Nat)
  deriving DecidableEq, Repr

/-- `roq::Mask`. -/
abbrev Mask := Finset

def Mask.has {α : Type} [DecidableEq α] (mask : Mask α) (x : α) : Bool := decide (x ∈ mask)

inductive UpdateType where
  | snapshot | incremental
  deriving DecidableEq, Repr

inductive ConnectionStatus where
  | undefined | disconnected | loginSent | downloading | ready
  deriving DecidableEq, Repr

inductive RequestType where
  | createOrder | cancelOrder
  deriving DecidableEq, Repr

inductive RequestStatus where
  | undefined | forwarded | accepted | rejected | error
  | other (code : Nat)
  deriving DecidableEq, Repr

inductive Origin where
  | undefined | gateway | exchange
  | other (code : Nat)
  deriving DecidableEq, Repr

inductive Error where
  | undefined | unknown | requestRateLimitReached
  | other (code : Nat)
  deriving DecidableEq, Repr

inductive TradingStatus where
  | undefined | open_ | close
  deriving DecidableEq, Repr

/-! ## Times and sources of an event -/

/-- Times in nanoseconds. -/
structure TraceInfo where
  originCreateTime : Int
  originCreateTimeUtc : Int

structure MessageInfo extends TraceInfo where
  source : UInt8

/-! ## Order actions -/

structure CreateOrder where
  orderId : UInt64
  symbol : String
  side : Side
  orderType : OrderType
  timeInForce : TimeInForce
  executionInstructions : Mask ExecutionInstruction
  quantity : Double
  price : Double

structure CancelOrder where
  orderId : UInt64
  version : UInt32

structure CancelAllOrders where
  orderId : UInt64
  exchange : String
  symbol : String
  side : Side
  strategyId : UInt32

/-- `server::oms::Order`: what the order manager knows of an order. -/
structure Order where
  userId : UInt8
  orderId : UInt64
  symbol : String
  clientOrderId : String
  externalOrderId : String

/-- `server::oms::RefData`: decimals of an order's quantity and price. -/
structure RefData where
  quantityPrecision : Nat
  pricePrecision : Nat

/-! ## What is published -/

/-- `server::oms::Response`: the answer to one create or cancel request. -/
structure OmsResponse where
  requestType : RequestType
  origin : Origin
  requestStatus : RequestStatus
  error : Error
  text : String
  version : UInt32
  requestId : String
  externalOrderId : String
  clientOrderId : String
  quantity : Double
  price : Double

structure CancelAllOrdersAck where
  orderId : UInt64
  exchange : String
  symbol : String
  side : Side
  origin : Origin
  requestStatus : RequestStatus
  error : Error
  text : String
  requestId : String
  strategyId : UInt32

structure FundsUpdate where
  currency : String
  balance : Double
  hold : Double
  borrowed : Double
  unrealizedPnl : Double
  externalAccount : String
  updateType : UpdateType
  exchangeSequence : Int
  sendingTimeUtc : Int

structure ReferenceData where
  exchange : String
  symbol : String
  baseCurrency : String
  quoteCurrency : String
  tickSize : Double
  multiplier : Double
  minNotional : Double
  minTradeVol : Double
  maxTradeVol : Double
  tradeVolStepSize : Double
  strikePrice : Double
  underlying : String
  discard : Bool
  deriving DecidableEq

structure MarketStatus where
  exchange : String
  symbol : String
  tradingStatus : TradingStatus
  deriving DecidableEq

/-! ## Buffers -/

namespace Buffer

/-- `std::string::clear`. -/
def clear (_buffer : String) : String := ""

/-- `fmt::format_to`, at the end of a buffer. -/
def formatTo (buffer text : String) : String := buffer ++ text

end Buffer

end RoqHtx

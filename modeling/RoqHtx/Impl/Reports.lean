import RoqHtx.Impl.Sockets
import RoqHtx.Impl.System

/-!
# Reports on orders

What the gateway publishes of an account's orders: an update for every message on
the channel of the orders and for every open order that is listed, and a trade for
every message on the channel of the clearing. `Reports` is the state of one account
together with what it has published of them; `ReportsEnv` adds the generated
readers.
-/

namespace RoqHtx

/-! ## Messages -/

namespace Json

inductive EventType where
  | undefinedInternal | unknownInternal
  | aggTrade | trade | miniTicker24h | bookTicker | depthUpdate | outboundAccountInfo
  | outboundAccountPosition | balanceUpdate | executionReport | listStatus | creation | cancellation
  deriving DecidableEq, Repr

inductive OrderStatus where
  | undefinedInternal | unknownInternal
  | submitted | partialFilled | filled | canceled
  deriving DecidableEq, Repr

structure OrdersData where
  orderCreateTime : Int
  accountId : Int64
  orderPrice : Double
  orderSize : Double
  eventType : EventType
  symbol : String
  orderStatus : OrderStatus
  orderId : Int64
  clientOrderId : String
  type : OrderType
  execAmt : Double
  lastActTime : Int
  remainAmt : Double
  tradePrice : Double
  aggressor : Bool
  tradeVolume : Double
  tradeTime : Int

structure ClearingData where
  symbol : String
  orderId : Int64
  orderSide : Direction
  accountId : Int64
  clientOrderId : String
  feeCurrency : String
  tradePrice : Double
  tradeVolume : Double
  aggressor : Bool
  tradeId : Int64
  tradeTime : Int
  transactFee : Double

structure OpenOrdersAckDataItem where
  symbol : String
  createdAt : Int
  clientOrderId : String
  accountId : Int64
  price : Double
  amount : Double
  filledAmount : Double
  id : Int64
  state : OrderStatus
  type : OrderType

/-- `OpenOrdersAck`, with the orders. -/
structure OpenOrders extends OpenOrdersAck where
  data : List OpenOrdersAckDataItem

end Json

/-! ## What is published -/

inductive OrderStatus where
  | undefined | working | completed | canceled
  deriving DecidableEq, Repr

/-- `map`, of the status of an order. -/
def mapOrderStatus : Json.OrderStatus → OrderStatus
  | .undefinedInternal | .unknownInternal => .undefined
  | .submitted | .partialFilled => .working
  | .filled => .completed
  | .canceled => .canceled

inductive Liquidity where
  | undefined | maker | taker
  deriving DecidableEq, Repr

/-- `server::oms::OrderUpdate`. -/
structure OrderUpdate where
  account : String
  exchange : String
  symbol : String
  side : Side
  maxShowQuantity : Double
  orderType : OrderType
  timeInForce : TimeInForce
  executionInstructions : Mask ExecutionInstruction
  createTimeUtc : Int
  updateTimeUtc : Int
  externalAccount : String
  externalOrderId : String
  clientOrderId : String
  orderStatus : OrderStatus
  quantity : Double
  price : Double
  stopPrice : Double
  leverage : Double
  remainingQuantity : Double
  tradedQuantity : Double
  averageTradedPrice : Double
  lastTradedQuantity : Double
  lastTradedPrice : Double
  lastLiquidity : Liquidity
  updateType : UpdateType
  sendingTimeUtc : Int
  deriving DecidableEq

structure Fill where
  exchangeTimeUtc : Int
  externalTradeId : String
  quantity : Double
  price : Double
  liquidity : Liquidity
  commissionAmount : Double
  commissionCurrency : String
  baseAmount : Double
  quoteAmount : Double
  profitLossAmount : Double
  deriving DecidableEq

structure TradeUpdate where
  account : String
  exchange : String
  symbol : String
  side : Side
  createTimeUtc : Int
  updateTimeUtc : Int
  externalAccount : String
  externalOrderId : String
  clientOrderId : String
  fills : List Fill
  updateType : UpdateType
  sendingTimeUtc : Int
  deriving DecidableEq

inductive OrderReport where
  | orderUpdate (update : OrderUpdate)
  | tradeUpdate (update : TradeUpdate)
  deriving DecidableEq

/-! ## Environment -/

/-- The generated readers, which read the same messages and bodies as those of the
gateway. -/
structure ReportsEnv where
  gateway : Env
  exchange : String
  /-- The difference of two doubles. -/
  minus : Double → Double → Double
  orders : Json.Members → Except Exn Json.OrdersData
  clearing : Json.Members → Except Exn Json.ClearingData
  openOrdersAck : String → Except Exn Json.OpenOrders
  decode_orders (message : Json.Members) :
    gateway.parser.decode .orders message = (orders message).map fun _ => .orders
  decode_clearing (message : Json.Members) :
    gateway.parser.decode .clearing message = (clearing message).map fun _ => .clearing
  decode_openOrdersAck (body : String) :
    gateway.decode.openOrdersAck body = (openOrdersAck body).map Json.OpenOrders.toOpenOrdersAck

/-! ## State -/

structure Reports (ρ : Type) where
  gateway : Gateway ρ
  /-- Newest first. -/
  published : List OrderReport

namespace Reports

variable {ρ : Type} [LimitRequest ρ]

def init : Reports ρ where
  gateway := Gateway.init
  published := []

def publish (s : Reports ρ) (x : OrderReport) : Reports ρ := { s with published := x :: s.published }

/-- What the gateway does, and nothing is published. -/
def lift (f : Gateway ρ → Outcome Exn (Gateway ρ)) (s : Reports ρ) : Outcome Exn (Reports ρ) :=
  (f s.gateway).map fun gateway => { s with gateway }

/-! ## Handlers -/

/-- The time of an update is that of the trade, if it is about one. -/
def updateTime (data : Json.OrdersData) : Int :=
  if data.eventType = .trade then data.tradeTime
  else if data.lastActTime ≠ 0 then data.lastActTime
  else data.orderCreateTime

def liquidity (aggressor : Bool) : Liquidity := if aggressor then .taker else .maker

def lastLiquidity (data : Json.OrdersData) : Liquidity :=
  if data.eventType = .trade then liquidity data.aggressor else .undefined

def ordersUpdate (env : ReportsEnv) (data : Json.OrdersData) : OrderUpdate where
  account := env.gateway.account.name
  exchange := env.exchange
  symbol := data.symbol
  side := data.type.side
  maxShowQuantity := .nan
  orderType := data.type.orderType
  timeInForce := data.type.timeInForce
  executionInstructions := data.type.executionInstructions
  createTimeUtc := data.orderCreateTime
  updateTimeUtc := updateTime data
  externalAccount := toString data.accountId
  externalOrderId := toString data.orderId
  clientOrderId := data.clientOrderId
  orderStatus := mapOrderStatus data.orderStatus
  quantity := data.orderSize
  price := data.orderPrice
  stopPrice := .nan
  leverage := .nan
  remainingQuantity := data.remainAmt
  tradedQuantity := data.execAmt
  averageTradedPrice := .nan
  lastTradedQuantity := data.tradeVolume
  lastTradedPrice := data.tradePrice
  lastLiquidity := lastLiquidity data
  updateType := .incremental
  sendingTimeUtc := data.orderCreateTime

/-- `operator()` of `Orders`. -/
def onOrders (env : ReportsEnv) (data : Json.OrdersData) (s : Reports ρ) : Reports ρ :=
  s.publish (.orderUpdate (ordersUpdate env data))

def fillOf (data : Json.ClearingData) : Fill where
  exchangeTimeUtc := data.tradeTime
  externalTradeId := toString data.tradeId
  quantity := data.tradeVolume
  price := data.tradePrice
  liquidity := liquidity data.aggressor
  commissionAmount := data.transactFee
  commissionCurrency := data.feeCurrency
  baseAmount := .nan
  quoteAmount := .nan
  profitLossAmount := .nan

def clearingUpdate (env : ReportsEnv) (data : Json.ClearingData) : TradeUpdate where
  account := env.gateway.account.name
  exchange := env.exchange
  symbol := data.symbol
  side := mapDirection data.orderSide
  createTimeUtc := data.tradeTime
  updateTimeUtc := data.tradeTime
  externalAccount := toString data.accountId
  externalOrderId := toString data.orderId
  clientOrderId := data.clientOrderId
  fills := [fillOf data]
  updateType := .incremental
  sendingTimeUtc := data.tradeTime

/-- `operator()` of `Clearing`. -/
def onClearing (env : ReportsEnv) (data : Json.ClearingData) (s : Reports ρ) : Reports ρ :=
  s.publish (.tradeUpdate (clearingUpdate env data))

/-- The update for an order that is listed. -/
def itemUpdate (env : ReportsEnv) (item : Json.OpenOrdersAckDataItem) : OrderUpdate where
  account := env.gateway.account.name
  exchange := env.exchange
  symbol := item.symbol
  side := item.type.side
  maxShowQuantity := .nan
  orderType := item.type.orderType
  timeInForce := item.type.timeInForce
  executionInstructions := item.type.executionInstructions
  createTimeUtc := item.createdAt
  updateTimeUtc := item.createdAt
  externalAccount := toString item.accountId
  externalOrderId := toString item.id
  clientOrderId := item.clientOrderId
  orderStatus := mapOrderStatus item.state
  quantity := item.amount
  price := item.price
  stopPrice := .nan
  leverage := .nan
  remainingQuantity := env.minus item.amount item.filledAmount
  tradedQuantity := item.filledAmount
  averageTradedPrice := .nan
  lastTradedQuantity := .nan
  lastTradedPrice := .nan
  lastLiquidity := .undefined
  updateType := .snapshot
  sendingTimeUtc := item.createdAt

/-- `operator()` of `OpenOrdersAck`. -/
def onOpenOrdersAck (env : ReportsEnv) (ack : Json.OpenOrders) (s : Reports ρ) : Reports ρ :=
  ack.data.foldl (fun s item => s.publish (.orderUpdate (itemUpdate env item)))
    { s with gateway := OrderEntry.onOpenOrdersAck ack.toOpenOrdersAck s.gateway }

def logError : ErrorHandler (Reports ρ) := fun _ _ _ _ s => s

/-- `open_orders_ack`. -/
def openOrdersAck (env : ReportsEnv) (response : Response) (s : Reports ρ) : Outcome Exn (Reports ρ) :=
  (processResponse env.gateway.assertions response logError (fun body s =>
    match env.openOrdersAck body with
    | .error e => .throws e s
    | .ok ack =>
      if ack.status = .ok then .ok (onOpenOrdersAck env ack s)
      else .ok (logError .exchange .rejected (OrderEntry.guessError ack.errCode) ack.errMsg s)) s).bind
    fun s => .ok { s with gateway := s.gateway.commit .openOrders }

/-- A message that has been read, and what its handler does. -/
def withMessage {α : Type} (read : Except Exn α) (f : α → Reports ρ → Reports ρ) (s : Reports ρ) :
    Outcome Exn (Reports ρ) :=
  match read with
  | .error e => .throws e s
  | .ok value => .ok (f value s)

/-- The overloads of `DropCopy`. -/
def onMessage (env : ReportsEnv) (members : Json.Members) (message : Json.Message) (s : Reports ρ) :
    Outcome Exn (Reports ρ) :=
  (lift (DropCopy.onMessage env.gateway message) s).bind fun s =>
  match message with
  | .orders => withMessage (env.orders members) (onOrders env) s
  | .clearing => withMessage (env.clearing members) (onClearing env) s
  | _ => .ok s

def parse (env : ReportsEnv) (members : Json.Members) (s : Reports ρ) : Outcome Exn (Reports ρ) :=
  match (env.gateway.parser.dispatch env.gateway.settings.allowUnknownEventTypes
      (onMessage env members) members s : Outcome Exn (Bool × Reports ρ)) with
  | .ok (_, s) => .ok s
  | .throws _ (_, s) => .fatal s
  | .fatal (_, s) => .fatal s

/-- Calls the callback of a request. -/
def onResponse (env : ReportsEnv) (f : InFlight) (response : Response) (s : Reports ρ) :
    Outcome Exn (Reports ρ) :=
  match f.callback with
  | .openOrdersAck => openOrdersAck env response s
  | _ => lift (OrderEntry.onResponse env.gateway f response) s

/-! ## Machine -/

/-- `Gateway.finish`. -/
def finish : Outcome Exn (Reports ρ) → Reports ρ
  | .ok s | .throws _ s => s
  | .fatal s => { s with gateway := { s.gateway with halted := true } }

/-- What an event does: only a message and a response may have something published. -/
def handle (env : ReportsEnv) (s : Reports ρ) : Event → Option (Outcome Exn (Reports ρ))
  | .text message => if s.gateway.socketUp then some (parse env message s) else none
  | .response i response =>
    s.gateway.inFlight[i]?.map fun f =>
      onResponse env f response { s with gateway := s.gateway.answer i f response }
  | e => (Gateway.handle env.gateway s.gateway e).map fun o =>
    o.map fun gateway => { s with gateway }

def step (env : ReportsEnv) (s : Reports ρ) (e : Event) : Option (Reports ρ) :=
  if s.gateway.halted then none else (handle env s e).map finish

end Reports

/-- One account of the gateway, with its reports. -/
def reports (ρ : Type) [LimitRequest ρ] (env : ReportsEnv) : Machine (Reports ρ) Event where
  init := Reports.init
  step := Reports.step env

end RoqHtx

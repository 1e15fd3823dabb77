import RoqHtx.Impl.Gateway

/-!
# Order entry

`OrderEntry`: requests go out when a timer finds them wanted
(`checkRequestQueue`) or on an order action (`placeOrder`, `cancelOrder`,
`cancelAllOrders`); responses come back to the callbacks (`onResponse`).
-/

namespace RoqHtx.OrderEntry

variable {ρ : Type} [LimitRequest ρ]

/-! ## API -/

namespace Path

def accounts : String := "/v1/account/accounts"
def openOrders : String := "/v1/order/openOrders"
def order : String := "/v1/order/orders/getClientOrder"
def placeOrder : String := "/v1/order/orders/place"
def cancelOrder : String := "/v1/order/orders"
def cancelAllOrders : String := "/v1/order/cancelAllOrders"

def balance (accountId : Int) : String := accounts ++ "/" ++ toString accountId ++ "/balance"

end Path

/-- `guess_error`. -/
def guessError (_errCode : String) : Error := .undefined

def ready (g : Gateway ρ) : Bool := g.orderEntry.connectionStatus == .ready

/-- Publishes a connection status. -/
def publish (status : ConnectionStatus) (g : Gateway ρ) : Gateway ρ :=
  { g with
    orderEntry := { g.orderEntry with connectionStatus := status }
    log := .orderEntryStatus status :: g.log }

/-! ## Connection -/

def onConnected (g : Gateway ρ) : Gateway ρ := publish .ready (g.push .restConnected)

def onDisconnected (g : Gateway ρ) : Gateway ρ :=
  let g := publish .disconnected (g.push .restDisconnected)
  { g with orderEntry := { g.orderEntry with accountId := 0 } }

/-! ## Requests of the timer -/

/-- What a timer finds outside the gateway. -/
structure Tick where
  trace : TraceInfo
  /-- `refresh()` of the REST connection and of the web socket. -/
  restRefresh : Bool
  socketRefresh : Bool
  /-- Whether the rate limiter permits a request. -/
  canRequest : Which → Bool
  /-- What the REST client throws at a request, by the request's number. -/
  refuses : Nat → Option Exn
  /-- `Dispatcher::find_order`. -/
  findOrder : Key → Option Order
  /-- The orders of `Dispatcher::get_all_stale_orders`. -/
  staleOrders : List Order

/-- A signed `GET`. -/
def getRequest (env : Env) (trace : TraceInfo) (path : String) : RestRequest where
  method := .get
  path := path
  query := env.account.createQuery trace.originCreateTimeUtc .get path
  contentType := some .applicationJson
  body := .empty

def accounts (env : Env) (t : Tick) (g : Gateway ρ) : Outcome Exn (Gateway ρ) :=
  g.send t.refuses (getRequest env t.trace Path.accounts) .accountsAck "orders" .timer

def balance (env : Env) (t : Tick) (g : Gateway ρ) : Outcome Exn (Gateway ρ) :=
  g.send t.refuses (getRequest env t.trace (Path.balance g.orderEntry.accountId)) .balanceAck
    "orders" .timer

def openOrders (env : Env) (t : Tick) (g : Gateway ρ) : Outcome Exn (Gateway ρ) :=
  g.send t.refuses (getRequest env t.trace Path.openOrders) .openOrdersAck "orders" .timer

def getOrder (env : Env) (t : Tick) (order : Order) (g : Gateway ρ) : Outcome Exn (Gateway ρ) :=
  g.send t.refuses (getRequest env t.trace Path.order) (.getOrderAck order.clientOrderId) "order"
    .timer

def countUp (g : Gateway ρ) : Gateway ρ :=
  { g with orderEntry :=
    { g.orderEntry with downloadStaleOrdersCounter := g.orderEntry.downloadStaleOrdersCounter + 1 } }

/-- Asks for every stale order that the dispatcher still finds. -/
def getStaleOrders (env : Env) (t : Tick) : List Key → Gateway ρ → Outcome Exn (Gateway ρ)
  | [], g => .ok g
  | key :: keys, g =>
    match t.findOrder key with
    | some order => (getOrder env t order g).bind fun g => getStaleOrders env t keys (countUp g)
    | none => getStaleOrders env t keys g

def staleOrders (env : Env) (t : Tick) (g : Gateway ρ) : Outcome Exn (Gateway ρ) :=
  (getStaleOrders env t g.request.detailsStaleOrders { g with batch := g.batch + 1 }).bind fun g =>
    .ok { g with request := { g.request with detailsStaleOrders := [] } }

def checkRequestQueue (env : Env) (t : Tick) (g : Gateway ρ) : Outcome Exn (Gateway ρ) :=
  (g.checkPending t.canRequest .account (accounts env t)).bind fun g =>
  (g.checkPending t.canRequest .balances (balance env t)).bind fun g =>
  (g.checkPending t.canRequest .openOrders (openOrders env t)).bind fun g =>
  g.checkPending t.canRequest .staleOrders (staleOrders env t)

def onTimer (env : Env) (t : Tick) (g : Gateway ρ) : Outcome Exn (Gateway ρ) :=
  if t.restRefresh && ready g then checkRequestQueue env t g else .ok g

/-! ## Order actions -/

/-- `server::oms::NotReady`. -/
def notReady : Exn := .oms .gateway .rejected .undefined "not ready"

/-- A signed `POST`. -/
def postRequest (env : Env) (info : MessageInfo) (path : String) (body : Body) : RestRequest where
  method := .post
  path := path
  query := env.account.createQuery info.originCreateTimeUtc .post path
  contentType := some .applicationJson
  body := body

def placeOrder (env : Env) (refuses : Nat → Option Exn) (info : MessageInfo)
    (createOrder : CreateOrder) (refData : RefData) (requestId : String) (g : Gateway ρ) :
    Outcome Exn (Gateway ρ) :=
  if !ready g then .throws notReady g
  else
    match Encoder.placeOrder env.formats createOrder refData requestId g.orderEntry.accountId with
    | .error e => .throws e g
    | .ok body =>
      g.send refuses (postRequest env info Path.placeOrder (.placeOrder body))
        (.placeOrderAck info.source createOrder.orderId) requestId (.createOrder info createOrder)

def cancelOrder (env : Env) (refuses : Nat → Option Exn) (info : MessageInfo)
    (cancelOrder : CancelOrder) (order : Order) (requestId : String) (g : Gateway ρ) :
    Outcome Exn (Gateway ρ) :=
  if !ready g then .throws notReady g
  else
    let helper (path : String) (body : Body) : Outcome Exn (Gateway ρ) :=
      g.send refuses (postRequest env info path body)
        (.cancelOrderAck info.source cancelOrder.orderId) requestId (.cancelOrder info cancelOrder)
    if order.externalOrderId = "" then
      helper (Path.cancelOrder ++ "/submitCancelClientOrder") (Encoder.cancelClientOrder order)
    else
      helper (Path.cancelOrder ++ "/" ++ order.externalOrderId ++ "/submitcancel")
        (Encoder.cancelOrder order)

def cancelAllOrders (env : Env) (refuses : Nat → Option Exn) (info : MessageInfo)
    (cancelAllOrders : CancelAllOrders) (requestId : String) (g : Gateway ρ) :
    Outcome Exn (Gateway ρ) :=
  if !ready g then .throws notReady g
  else
    let request : RestRequest :=
      { method := .get
        path := Path.cancelAllOrders
        query := env.account.createQuery info.originCreateTimeUtc .get Path.cancelAllOrders
        contentType := none
        body := .empty }
    (g.send refuses request .cancelAllOrdersAck requestId
      (.cancelAllOrders info cancelAllOrders)).bind fun g =>
    .ok (g.push (.cancelAllOrdersAck
      { orderId := cancelAllOrders.orderId
        exchange := cancelAllOrders.exchange
        symbol := cancelAllOrders.symbol
        side := cancelAllOrders.side
        origin := .gateway
        requestStatus := .forwarded
        error := .undefined
        text := ""
        requestId
        strategyId := cancelAllOrders.strategyId }))

/-! ## Responses of the timer's requests -/

/-- Every failure is logged and otherwise dropped. -/
def logError : ErrorHandler (Gateway ρ) := fun _ _ _ _ g => g

/-- The response to a request that the download waits for. The request is
committed whatever the response was. -/
def downloadAck {α : Type} (env : Env) (w : Which) (decode : String → Except Exn α)
    (toAck : α → Json.Ack) (onAck : α → Gateway ρ → Gateway ρ) (response : Response)
    (g : Gateway ρ) : Outcome Exn (Gateway ρ) :=
  (processResponse env.assertions response logError (fun body g =>
    match decode body with
    | .error e => .throws e g
    | .ok ack =>
      if (toAck ack).status = .ok then .ok (onAck ack g)
      else .ok (logError .exchange .rejected (guessError (toAck ack).errCode) (toAck ack).errMsg g))
    g).bind fun g =>
  .ok (g.commit w)

/-- The account is the last one listed. -/
def onAccountsAck (ack : Json.AccountsAck) (g : Gateway ρ) : Gateway ρ :=
  let g := g.push (.accountsAck ack)
  { g with orderEntry :=
    { g.orderEntry with accountId := ack.data.foldl (fun _ item => item.id) g.orderEntry.accountId } }

def accountsAck (env : Env) : Response → Gateway ρ → Outcome Exn (Gateway ρ) :=
  downloadAck env .account env.decode.accountsAck (·.toAck) onAccountsAck

def fundsUpdate (data : Json.BalanceAckData) (item : Json.BalanceAckDataListItem) : FundsUpdate where
  currency := item.currency
  balance := item.balance
  hold := .nan
  borrowed := .nan
  unrealizedPnl := .nan
  externalAccount := toString data.id
  updateType := .snapshot
  exchangeSequence := item.seqNum
  sendingTimeUtc := 0

def onBalanceAck (ack : Json.BalanceAck) (g : Gateway ρ) : Gateway ρ :=
  ack.data.list.foldl (fun g item => g.push (.fundsUpdate (fundsUpdate ack.data item)))
    (g.push (.balanceAck ack))

def balanceAck (env : Env) : Response → Gateway ρ → Outcome Exn (Gateway ρ) :=
  downloadAck env .balances env.decode.balanceAck (·.toAck) onBalanceAck

def onOpenOrdersAck (ack : Json.OpenOrdersAck) (g : Gateway ρ) : Gateway ρ :=
  g.push (.openOrdersAck ack)

def openOrdersAck (env : Env) : Response → Gateway ρ → Outcome Exn (Gateway ρ) :=
  downloadAck env .openOrders env.decode.openOrdersAck (·.toAck) onOpenOrdersAck

def countDown (g : Gateway ρ) : Gateway ρ :=
  { g with orderEntry :=
    { g.orderEntry with downloadStaleOrdersCounter := g.orderEntry.downloadStaleOrdersCounter - 1 } }

/-- The body of a success is logged, not decoded. -/
def getOrderAck (env : Env) (response : Response) (g : Gateway ρ) : Outcome Exn (Gateway ρ) :=
  (processResponse env.assertions response logError (fun _ g => .ok g) g).bind fun g =>
  if g.orderEntry.downloadStaleOrdersCounter = 0 then g.abort .getOrderAck
  else
    let g := countDown g
    if g.orderEntry.downloadStaleOrdersCounter = 0 then .ok (g.commit .staleOrders) else .ok g

/-! ## Responses of order actions -/

/-- The response to a create or cancel request, as both report a failure. -/
def failure (origin : Origin) (status : RequestStatus) (error : Error) (text : String)
    (version : UInt32) : OmsResponse where
  requestType := .createOrder
  origin := origin
  requestStatus := status
  error := error
  text := text
  version := version
  requestId := ""
  externalOrderId := ""
  clientOrderId := ""
  quantity := .nan
  price := .nan

/-- The response to a create or cancel request, dispatched to the order manager
under what the request's callback captured. -/
def orderAck {α : Type} (env : Env) (decode : String → Except Exn α) (toAck : α → Json.Ack)
    (onAck : α → UInt8 → UInt64 → UInt32 → Gateway ρ → Gateway ρ) (response : Response)
    (userId : UInt8) (orderId : UInt64) (version : UInt32) (g : Gateway ρ) :
    Outcome Exn (Gateway ρ) :=
  let handleError : ErrorHandler (Gateway ρ) := fun origin status error text g =>
    g.push (.omsResponse (failure origin status error text version) userId orderId)
  processResponse env.assertions response handleError (fun body g =>
    match decode body with
    | .error e => .throws e g
    | .ok ack =>
      if (toAck ack).status = .ok then .ok (onAck ack userId orderId version g)
      else .ok (handleError .exchange .rejected (guessError (toAck ack).errCode) (toAck ack).errMsg g)) g

def onPlaceOrderAck (ack : Json.PlaceOrderAck) (userId : UInt8) (orderId : UInt64)
    (version : UInt32) (g : Gateway ρ) : Gateway ρ :=
  g.push (.omsResponse
    { requestType := .createOrder
      origin := .exchange
      requestStatus := .accepted
      error := .undefined
      text := ""
      version
      requestId := ack.clientOrderId
      externalOrderId := ""
      clientOrderId := ack.clientOrderId
      quantity := .nan
      price := .nan } userId orderId)

def placeOrderAck (env : Env) :
    Response → UInt8 → UInt64 → UInt32 → Gateway ρ → Outcome Exn (Gateway ρ) :=
  orderAck env env.decode.placeOrderAck (·.toAck) onPlaceOrderAck

def onCancelOrderAck (_ack : Json.CancelOrderAck) (userId : UInt8) (orderId : UInt64)
    (version : UInt32) (g : Gateway ρ) : Gateway ρ :=
  g.push (.omsResponse
    { requestType := .createOrder
      origin := .exchange
      requestStatus := .accepted
      error := .undefined
      text := ""
      version
      requestId := ""
      externalOrderId := ""
      clientOrderId := ""
      quantity := .nan
      price := .nan } userId orderId)

def cancelOrderAck (env : Env) :
    Response → UInt8 → UInt64 → UInt32 → Gateway ρ → Outcome Exn (Gateway ρ) :=
  orderAck env env.decode.cancelOrderAck (·.toAck) onCancelOrderAck

/-- `send_ack` of `cancel_all_orders_ack`. -/
def sendAck (requestId : String) (origin : Origin) (status : RequestStatus) (error : Error)
    (text : String) (g : Gateway ρ) : Gateway ρ :=
  g.push (.cancelAllOrdersAck
    { orderId := 0
      exchange := ""
      symbol := ""
      side := .undefined
      origin
      requestStatus := status
      error
      text
      requestId
      strategyId := 0 })

/-- Every failure is sent as rejected, and every body that decodes as
accepted. -/
def cancelAllOrdersAck (env : Env) (response : Response) (requestId : String) (g : Gateway ρ) :
    Outcome Exn (Gateway ρ) :=
  processResponse env.assertions response
    (fun origin _status error text g => sendAck requestId origin .rejected error text g)
    (fun body g =>
      match env.decode.cancelAllOrdersAck body with
      | .error e => .throws e g
      | .ok _ack => .ok (sendAck requestId .exchange .accepted .undefined "" g)) g

/-- Calls the callback of a request. The version of a create or cancel request
is always 1. -/
def onResponse (env : Env) (f : InFlight) (response : Response) (g : Gateway ρ) :
    Outcome Exn (Gateway ρ) :=
  match f.callback with
  | .accountsAck => accountsAck env response g
  | .balanceAck => balanceAck env response g
  | .openOrdersAck => openOrdersAck env response g
  | .getOrderAck _ => getOrderAck env response g
  | .placeOrderAck userId orderId => placeOrderAck env response userId orderId 1 g
  | .cancelOrderAck userId orderId => cancelOrderAck env response userId orderId 1 g
  | .cancelAllOrdersAck => cancelAllOrdersAck env response f.requestId g

end RoqHtx.OrderEntry

import RoqHtx.Framework.Download
import RoqHtx.Framework.Limit
import RoqHtx.Impl.Encoder
import RoqHtx.Impl.Parser

/-!
# The state of one account

One account of the gateway is an `OrderEntry` (REST) and a `DropCopy` (web
socket) that share a `Request`. `Gateway` is their state together with what is
in flight at the REST client, and its history (`log`, newest first): what
arrived, what was sent and published, and what the two asked of each other.
`Env` is everything that is not the gateway's: settings, the account's
signatures, the generated readers, the formats of numbers.
-/

namespace RoqHtx

/-! ## Environment -/

structure Account where
  name : String
  createQuery : Int → Http.Method → String → String
  createWsAuth : Int → String → String

structure Settings where
  retryLogon : Bool
  allowUnknownEventTypes : Bool
  checkStaleOrderFreq : Int

/-- The generated readers of the bodies of REST responses. -/
structure Decode where
  accountsAck : String → Except Exn Json.AccountsAck
  balanceAck : String → Except Exn Json.BalanceAck
  openOrdersAck : String → Except Exn Json.OpenOrdersAck
  placeOrderAck : String → Except Exn Json.PlaceOrderAck
  cancelOrderAck : String → Except Exn Json.CancelOrderAck
  cancelAllOrdersAck : String → Except Exn Json.CancelAllOrdersAck

structure Env where
  account : Account
  settings : Settings
  decode : Decode
  parser : Parser
  formats : Formats
  /-- Whether the build checks assertions. -/
  assertions : Bool

/-! ## Requests -/

/-- `pair<user_id, order_id>`. -/
abbrev Key := UInt8 × UInt64

/-- The rate-limited requests of `Request`. -/
inductive Which where
  | account | balances | openOrders | staleOrders
  deriving DecidableEq, Repr

structure Request (ρ : Type) where
  account : ρ
  balances : ρ
  openOrders : ρ
  staleOrders : ρ
  /-- A set: inserting keeps it free of duplicates. -/
  detailsStaleOrders : List Key

namespace Request

variable {ρ : Type}

def get (r : Request ρ) : Which → ρ
  | .account => r.account
  | .balances => r.balances
  | .openOrders => r.openOrders
  | .staleOrders => r.staleOrders

def modify (r : Request ρ) (f : ρ → ρ) : Which → Request ρ
  | .account => { r with account := f r.account }
  | .balances => { r with balances := f r.balances }
  | .openOrders => { r with openOrders := f r.openOrders }
  | .staleOrders => { r with staleOrders := f r.staleOrders }

@[simp] theorem get_modify_self (r : Request ρ) (f : ρ → ρ) (w : Which) :
    (r.modify f w).get w = f (r.get w) := by
  cases w <;> rfl

theorem get_modify_of_ne (r : Request ρ) (f : ρ → ρ) {v w : Which} (h : v ≠ w) :
    (r.modify f w).get v = r.get v := by
  cases v <;> cases w <;> first | rfl | exact absurd rfl h

@[simp] theorem modify_detailsStaleOrders (r : Request ρ) (f : ρ → ρ) (w : Which) :
    (r.modify f w).detailsStaleOrders = r.detailsStaleOrders := by
  cases w <;> rfl

@[simp] theorem get_with_details (r : Request ρ) (l : List Key) (w : Which) :
    ({ r with detailsStaleOrders := l } : Request ρ).get w = r.get w := by
  cases w <;> rfl

end Request

/-! ## At the REST client -/

/-- `web::rest::Request`. -/
structure RestRequest where
  method : Http.Method
  path : String
  query : String
  contentType : Option Http.ContentType
  body : Body

/-- The closure that is called with the response, by the handler it calls and
what it captured. -/
inductive Callback where
  | accountsAck
  | balanceAck
  | openOrdersAck
  | getOrderAck (clientOrderId : String)
  | placeOrderAck (userId : UInt8) (orderId : UInt64)
  | cancelOrderAck (userId : UInt8) (orderId : UInt64)
  | cancelAllOrdersAck
  deriving DecidableEq, Repr

def Callback.isGetOrder : Callback → Bool
  | .getOrderAck _ => true
  | _ => false

/-- What made the gateway send a request. -/
inductive Cause where
  | timer
  | createOrder (info : MessageInfo) (createOrder : CreateOrder)
  | cancelOrder (info : MessageInfo) (cancelOrder : CancelOrder)
  | cancelAllOrders (info : MessageInfo) (cancelAllOrders : CancelAllOrders)

/-- A request handed to the REST client. `batch` counts the batches of stale
orders that had been taken up by then. -/
structure InFlight where
  id : Nat
  request : RestRequest
  callback : Callback
  requestId : String
  cause : Cause
  batch : Nat

/-! ## Stages of the order stream's download -/

/-- `DropCopy::State`, without `UNDEFINED`. -/
inductive Stage where
  | getAccount | subscribeBalances | getBalances | subscribeOrders | getOpenOrders
  | getStaleOrders | subscribeTrades | done
  deriving DecidableEq, Repr

def Stage.all : List Stage :=
  [.getAccount, .subscribeBalances, .getBalances, .subscribeOrders, .getOpenOrders,
    .getStaleOrders, .subscribeTrades, .done]

/-- `magic_enum::enum_name`. -/
def Stage.name : Stage → String
  | .getAccount => "GET_ACCOUNT"
  | .subscribeBalances => "SUBSCRIBE_BALANCES"
  | .getBalances => "GET_BALANCES"
  | .subscribeOrders => "SUBSCRIBE_ORDERS"
  | .getOpenOrders => "GET_OPEN_ORDERS"
  | .getStaleOrders => "GET_STALE_ORDERS"
  | .subscribeTrades => "SUBSCRIBE_TRADES"
  | .done => "DONE"

/-! ## History -/

/-- What `DropCopy` sends on its socket. -/
inductive SocketText where
  | login (auth : String)
  | pong (ts : Int)
  | sub (channel : String)
  deriving DecidableEq, Repr

def SocketText.text : SocketText → String
  | .login auth => auth
  | .pong ts => "\x7b\"action\":\"pong\",\"data\":\x7b\"ts\":" ++ toString ts ++ "\x7d\x7d"
  | .sub channel => "\x7b\"action\":\"sub\",\"ch\":\"" ++ channel ++ "\"\x7d"

/-- The places where the process terminates itself. -/
inductive Fatal where
  /-- `get_order_ack`: a response, but no order outstanding. -/
  | getOrderAck
  /-- `GET_STALE_ORDERS`: answered, but there are stale orders left. -/
  | staleOrders
  /-- A refused logon. -/
  | logon
  /-- A message that the order stream does not expect. -/
  | message
  deriving DecidableEq, Repr

inductive Entry where
  -- arrived
  | restConnected
  | restDisconnected
  | socketReady
  | socketDisconnected
  | received (message : Json.Message)
  | answered (inFlight : InFlight) (response : Response)
  -- sent
  | restRequest (inFlight : InFlight)
  | socketText (text : SocketText)
  | socketClose
  -- published
  | orderEntryStatus (status : ConnectionStatus)
  | dropCopyStatus (status : ConnectionStatus) (reason : String)
  | fundsUpdate (update : FundsUpdate)
  | omsResponse (response : OmsResponse) (userId : UInt8) (orderId : UInt64)
  | cancelAllOrdersAck (ack : CancelAllOrdersAck)
  -- between the two
  | accountsAck (ack : Json.AccountsAck)
  | balanceAck (ack : Json.BalanceAck)
  | openOrdersAck (ack : Json.OpenOrdersAck)
  | request (w : Which)
  | takeUp (w : Which)
  | commit (w : Which)
  | downloadBegin (downloading : Bool)
  | download (stage : Stage)
  | fatal (site : Fatal)

/-! ## State -/

structure OrderEntryState where
  connectionStatus : ConnectionStatus
  accountId : Int
  downloadStaleOrdersCounter : Nat

structure DropCopyState where
  connectionStatus : ConnectionStatus
  download : Download Stage.all
  nextCheckStaleOrders : Int

structure Gateway (ρ : Type) where
  orderEntry : OrderEntryState
  dropCopy : DropCopyState
  request : Request ρ
  inFlight : List InFlight
  /-- How many requests the REST client has been handed. -/
  nextId : Nat
  /-- How many batches of stale orders have been taken up. -/
  batch : Nat
  /-- The web socket is connected. -/
  socketUp : Bool
  /-- The process has terminated. -/
  halted : Bool
  log : List Entry

namespace Gateway

variable {ρ : Type} [LimitRequest ρ]

def init : Gateway ρ where
  orderEntry := ⟨.undefined, 0, 0⟩
  dropCopy := ⟨.undefined, .idle, 0⟩
  request := ⟨LimitRequest.init, LimitRequest.init, LimitRequest.init, LimitRequest.init, []⟩
  inFlight := []
  nextId := 0
  batch := 0
  socketUp := false
  halted := false
  log := []

def push (x : Entry) (g : Gateway ρ) : Gateway ρ := { g with log := x :: g.log }

/-- `log::fatal`. -/
def abort (site : Fatal) (g : Gateway ρ) : Outcome Exn (Gateway ρ) := .fatal (g.push (.fatal site))

def hasResponse (g : Gateway ρ) (w : Which) : Bool := LimitRequest.hasResponse (g.request.get w)

def wanted (g : Gateway ρ) (w : Which) : Bool := LimitRequest.wanted (g.request.get w)

/-- `Request::request`. -/
def requestOf (w : Which) (g : Gateway ρ) : Gateway ρ :=
  { g with request := g.request.modify LimitRequest.request w, log := .request w :: g.log }

/-- `Request::commit`. -/
def commit (w : Which) (g : Gateway ρ) : Gateway ρ :=
  { g with request := g.request.modify LimitRequest.commit w, log := .commit w :: g.log }

def takeUp (w : Which) (g : Gateway ρ) : Gateway ρ :=
  { g with request := g.request.modify LimitRequest.take w, log := .takeUp w :: g.log }

/-- `Request::check_pending`: runs the callback if the request is wanted and
the rate limiter permits it. -/
def checkPending (canRequest : Which → Bool) (w : Which)
    (callback : Gateway ρ → Outcome Exn (Gateway ρ)) (g : Gateway ρ) : Outcome Exn (Gateway ρ) :=
  if g.wanted w && canRequest w then callback (g.takeUp w) else .ok g

/-- Hands a request to the REST client, unless `refuses` has an exception for
it. -/
def send (refuses : Nat → Option Exn) (request : RestRequest) (callback : Callback)
    (requestId : String) (cause : Cause) (g : Gateway ρ) : Outcome Exn (Gateway ρ) :=
  match refuses g.nextId with
  | some e => .throws e g
  | none =>
    let f : InFlight := ⟨g.nextId, request, callback, requestId, cause, g.batch⟩
    .ok { g with
      inFlight := g.inFlight ++ [f]
      nextId := g.nextId + 1
      log := .restRequest f :: g.log }

end Gateway

end RoqHtx

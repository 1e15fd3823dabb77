import RoqHtx.Impl.OrderEntry

/-!
# The order stream

`DropCopy`: after a login it downloads in stages (`download`), each of which
either asks `OrderEntry` for something (`Request`) or subscribes to a channel.
A timer checks what `OrderEntry` has had answered (`checkRequestQueue`), a
message what the exchange has acknowledged (`onSub`).
-/

namespace RoqHtx.DropCopy

open OrderEntry (Tick)

variable {ρ : Type} [LimitRequest ρ]

/-! ## Channels -/

def channelAccountsUpdate : String := "accounts.update"
def channelOrders : String := "orders#*"
def channelTradeClearing : String := "trade.clearing#*"

def ready (g : Gateway ρ) : Bool := g.dropCopy.connectionStatus == .ready

/-- Publishes a connection status. -/
def publish (status : ConnectionStatus) (reason : String) (g : Gateway ρ) : Gateway ρ :=
  { g with
    dropCopy := { g.dropCopy with connectionStatus := status }
    log := .dropCopyStatus status reason :: g.log }

def sendText (text : SocketText) (g : Gateway ρ) : Gateway ρ := g.push (.socketText text)

def subscribe (channel : String) (g : Gateway ρ) : Gateway ρ := sendText (.sub channel) g

/-! ## Connection -/

def onDisconnected (g : Gateway ρ) : Gateway ρ := publish .disconnected "" (g.push .socketDisconnected)

def sendLogin (env : Env) (trace : TraceInfo) (g : Gateway ρ) : Gateway ρ :=
  sendText (.login (env.account.createWsAuth trace.originCreateTimeUtc "/ws/v2")) g

def onReady (env : Env) (trace : TraceInfo) (g : Gateway ρ) : Gateway ρ :=
  sendLogin env trace (publish .loginSent "" (g.push .socketReady))

/-! ## Download -/

/-- The callback of the download, on entering a stage. -/
def download (stage : Stage) (g : Gateway ρ) : Int × Gateway ρ :=
  let g := g.push (.download stage)
  let publishDownloading (g : Gateway ρ) : Gateway ρ := publish .downloading stage.name g
  match stage with
  | .getAccount => (1, (publishDownloading g).requestOf .account)
  | .subscribeBalances => (1, subscribe channelAccountsUpdate (publishDownloading g))
  | .getBalances => (1, (publishDownloading g).requestOf .balances)
  | .subscribeOrders => (1, subscribe channelOrders (publishDownloading g))
  | .getOpenOrders => (1, (publishDownloading g).requestOf .openOrders)
  | .getStaleOrders =>
    if g.request.detailsStaleOrders = [] then (0, g)
    else (1, (publishDownloading g).requestOf .staleOrders)
  | .subscribeTrades => (1, subscribe channelTradeClearing (publishDownloading g))
  | .done => (0, publish .ready "" g)

/-- What the download component returns, put in place. -/
def setDownload (r : Download Stage.all × Gateway ρ) : Gateway ρ :=
  { r.2 with dropCopy := { r.2.dropCopy with download := r.1 } }

/-- `download_.begin`. -/
def beginDownload (g : Gateway ρ) : Gateway ρ :=
  setDownload (Download.begin download (g.push (.downloadBegin g.dropCopy.download.downloading)))

/-- `download_.check`. -/
def checkDownload (stage : Stage) (g : Gateway ρ) : Gateway ρ :=
  setDownload (Download.check download stage g.dropCopy.download g)

/-! ## Timer -/

/-- Inserts the stale orders the dispatcher reports; whether there is a new one. -/
def findStaleOrders (t : Tick) (g : Gateway ρ) : Bool × Gateway ρ :=
  let keys := t.staleOrders.map fun order => (order.userId, order.orderId)
  (keys.any fun key => key ∉ g.request.detailsStaleOrders,
    { g with request := { g.request with
        detailsStaleOrders := keys.foldl (fun l key => l.insert key) g.request.detailsStaleOrders } })

/-- `check_stale_orders`, at most once in every period. -/
def checkStaleOrders (env : Env) (t : Tick) (g : Gateway ρ) : Gateway ρ :=
  if g.dropCopy.nextCheckStaleOrders < t.trace.originCreateTime then
    let g := { g with dropCopy := { g.dropCopy with
      nextCheckStaleOrders := t.trace.originCreateTime + env.settings.checkStaleOrderFreq } }
    let (found, g) := findStaleOrders t g
    if found then g.requestOf .staleOrders else g
  else g

/-- Moves the download on when `OrderEntry` has had an answer. -/
def checkRequestQueue (t : Tick) (g : Gateway ρ) : Outcome Exn (Gateway ρ) :=
  match g.dropCopy.download.state with
  | some .getAccount =>
    if g.hasResponse .account then .ok (checkDownload .getAccount g) else .ok g
  | some .getBalances =>
    if g.hasResponse .balances then .ok (checkDownload .getBalances g) else .ok g
  | some .getOpenOrders =>
    if g.hasResponse .openOrders then .ok (checkDownload .getOpenOrders (findStaleOrders t g).2)
    else .ok g
  | some .getStaleOrders =>
    if g.hasResponse .staleOrders then
      if g.request.detailsStaleOrders ≠ [] then g.abort .staleOrders
      else .ok (checkDownload .getStaleOrders g)
    else .ok g
  | none | some .subscribeBalances | some .subscribeOrders | some .subscribeTrades | some .done =>
    .ok g

def onTimer (env : Env) (t : Tick) (g : Gateway ρ) : Outcome Exn (Gateway ρ) :=
  if t.socketRefresh then
    (checkRequestQueue t g).bind fun g =>
    if ready g then .ok (checkStaleOrders env t g) else .ok g
  else .ok g

/-! ## Messages -/

def onReq (env : Env) (req : Json.Req) (g : Gateway ρ) : Outcome Exn (Gateway ρ) :=
  if req.ch = "auth" then
    if req.code = 200 then .ok (beginDownload g)
    else if env.settings.retryLogon then .ok (g.push .socketClose)
    else g.abort .logon
  else .ok g

/-- The code of the reply is not looked at. -/
def onSub (env : Env) (sub : Json.Sub) (g : Gateway ρ) : Gateway ρ :=
  let key := env.parser.fnv sub.ch
  if key = env.parser.fnv channelAccountsUpdate then checkDownload .subscribeBalances g
  else if key = env.parser.fnv channelOrders then checkDownload .subscribeOrders g
  else if key = env.parser.fnv channelTradeClearing then checkDownload .subscribeTrades g
  else g

def fundsUpdate (data : Json.AccountsData) : FundsUpdate where
  currency := data.currency
  balance := data.balance
  hold := .nan
  borrowed := .nan
  unrealizedPnl := .nan
  externalAccount := toString data.accountId
  updateType := if data.changeType = "" then .snapshot else .incremental
  exchangeSequence := data.seqNum
  sendingTimeUtc := data.changeTime

/-- The handlers of `Parser::Handler`. -/
def onMessage (env : Env) (message : Json.Message) (g : Gateway ρ) : Outcome Exn (Gateway ρ) :=
  let g := g.push (.received message)
  match message with
  | .req req => onReq env req g
  | .ping ts => .ok (sendText (.pong ts) g)
  | .ping2 ping => .ok (sendText (.pong ping) g)
  | .error | .error2 => .ok g
  | .sub sub => .ok (onSub env sub g)
  | .accounts data => .ok (g.push (.fundsUpdate (fundsUpdate data)))
  | .orders | .clearing => .ok g
  | .subbed | .bbo | .trade | .detail | .ticker | .mbp | .mbpSnapshot => g.abort .message

/-- `parse`: an exception terminates the process; a message without a handler
is logged. -/
def parse (env : Env) (message : Json.Members) (g : Gateway ρ) : Outcome Exn (Gateway ρ) :=
  match (env.parser.dispatch env.settings.allowUnknownEventTypes (onMessage env) message g) with
  | .ok (_, g) => .ok g
  | .throws _ (_, g) => .fatal g
  | .fatal (_, g) => .fatal g

end RoqHtx.DropCopy

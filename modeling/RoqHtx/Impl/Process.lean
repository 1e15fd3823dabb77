import RoqHtx.Impl.MbpFeed
import RoqHtx.Impl.System

/-!
# The gateway as a whole

`Controller`: an `OrderEntry` and a `DropCopy` for each account of the
configuration, beside the market data and its books. What a connection does is
for its own stream, an order action goes to the order entry of the account it
names, and a timer goes over all of the streams, one after the other.
-/

namespace RoqHtx

open OrderEntry (Tick)

/-! ## Configuration -/

/-- `server::config::Account`. -/
structure Config.Account where
  name : String
  login : String
  secret : String
  deriving DecidableEq

structure Config where
  /-- A map by name. -/
  accounts : List Config.Account
  deriving DecidableEq

namespace Config

def init : Config := ⟨[]⟩

/-- `accounts.emplace`: an account is dropped if there is one of its name. -/
def onAccount (c : Config) (account : Account) : Config where
  accounts :=
    if account.name ∈ c.accounts.map Account.name then c.accounts else c.accounts ++ [account]

/-- `parse_file`: the accounts in the order in which they are read. -/
def read (accounts : List Account) : Config := accounts.foldl onAccount init

/-- `accounts.find`. -/
def find (c : Config) (name : String) : Option Account := c.accounts.find? (·.name == name)

/-- `get_api_key`: undefined where it terminates the process. -/
def getApiKey (c : Config) (name : String) : Option String := (c.find name).map Account.login

/-- `get_secret`: undefined where it terminates the process. -/
def getSecret (c : Config) (name : String) : Option String := (c.find name).map Account.secret

end Config

namespace Controller

/-! ## Construction -/

/-- What is kept of an account: its name, and what its `Crypto` is given. -/
structure Account where
  name : String
  apiKey : String
  secret : String
  deriving DecidableEq

/-- `create_accounts`: undefined where it terminates the process. `order` is the
order in which the map of accounts is gone over. -/
def createAccounts (c : Config) (order : List Config.Account) : Option (List Account) :=
  order.mapM fun account => do
    let apiKey ← c.getApiKey account.name
    let secret ← c.getSecret account.name
    some ⟨account.name, apiKey, secret⟩

/-- `create_order_entry`, `create_drop_copy`: a stream id for each account, and the
latest stream id. -/
def createStreams : List String → UInt16 → List (String × UInt16) × UInt16
  | [], streamId => ([], streamId)
  | name :: names, streamId =>
    let r := createStreams names (streamId + 1)
    ((name, streamId + 1) :: r.1, r.2)

/-- The stream ids that the constructor hands out: of `Rest`, of the order entries
and of the drop copies; and the latest one. -/
structure Streams where
  rest : UInt16
  orderEntry : List (String × UInt16)
  dropCopy : List (String × UInt16)
  streamId : UInt16

def streams (accounts : List String) : Streams :=
  let orderEntry := createStreams accounts 1
  let dropCopy := createStreams accounts orderEntry.2
  ⟨1, orderEntry.1, dropCopy.1, dropCopy.2⟩

end Controller

/-! ## Environment -/

structure ProcessEnv where
  /-- In the order in which the accounts are gone over. -/
  accounts : List String
  /-- In the orders in which `order_entry_` and `drop_copy_` are gone over. -/
  orderEntry : List String
  dropCopy : List String
  account : String → Env
  books : BooksEnv
  nodup : accounts.Nodup
  orderEntry_perm : orderEntry.Perm accounts
  dropCopy_perm : dropCopy.Perm accounts
  accounts_eq : books.market.accounts = accounts.length

structure Process (ρ σ : Type) where
  gateways : String → Gateway ρ
  books : Books σ

/-! ## Events -/

/-- What a timer finds outside of the gateway. -/
structure Ticks where
  tick : String → Tick
  /-- How many messages each stream may send. -/
  count : Feed → Nat → Nat

inductive ProcessEvent where
  /-- What a connection of an account does. -/
  | connection (account : String) (e : Event)
  | createOrder (account : String) (refuses : Nat → Option Exn) (info : MessageInfo)
    (createOrder : CreateOrder) (refData : RefData) (requestId : String)
  | modifyOrder (account : String)
  | cancelOrder (account : String) (refuses : Nat → Option Exn) (info : MessageInfo)
    (cancelOrder : CancelOrder) (order : Order) (requestId : String)
  | cancelAllOrders (account : String) (refuses : Nat → Option Exn) (info : MessageInfo)
    (cancelAllOrders : CancelAllOrders) (requestId : String)
  | massQuote
  | cancelQuotes
  /-- A subscription, or what a connection of the market data does. -/
  | books (e : BooksEvent)
  | timer (t : Ticks)

def Event.ofConnection : Event → Bool
  | .restConnected | .restDisconnected | .socketReady _ | .socketDisconnected | .text _
  | .response _ _ => true
  | .timer _ | .createOrder _ _ _ _ _ | .cancelOrder _ _ _ _ _ | .cancelAllOrders _ _ _ _ => false

def BooksEvent.isTimer : BooksEvent → Bool
  | .market (.timer _ _ _) => true
  | _ => false

namespace Process

variable {ρ σ : Type}

/-! ## Accounts -/

def setGateway (name : String) (g : Gateway ρ) (p : Process ρ σ) : Process ρ σ :=
  { p with gateways := Function.update p.gateways name g }

/-- What a handler of an account does, to the whole. -/
def put (name : String) (p : Process ρ σ) : Outcome Exn (Gateway ρ) → Outcome Exn (Process ρ σ)
  | .ok g => .ok (p.setGateway name g)
  | .throws e g => .throws e (p.setGateway name g)
  | .fatal g => .fatal (p.setGateway name { g with halted := true })

/-- `server::oms::NotSupported`. -/
def notSupported : Exn := .oms .gateway .rejected .undefined "not supported"

def unknownAccount (name : String) : Exn := .std ("Unknown account=\"" ++ name ++ "\"")

/-- `get_order_entry`, and what is done with it. -/
def withOrderEntry (env : ProcessEnv) (name : String) (p : Process ρ σ)
    (f : Process ρ σ → Outcome Exn (Process ρ σ)) : Outcome Exn (Process ρ σ) :=
  if name ∈ env.accounts then f p else .throws (unknownAccount name) p

/-! ## Timer -/

/-- `dispatch_helper`, over the streams of the accounts. -/
def forEach (f : String → Process ρ σ → Outcome Exn (Process ρ σ)) :
    List String → Process ρ σ → Outcome Exn (Process ρ σ)
  | [], p => .ok p
  | name :: names, p => (f name p).bind (forEach f names)

/-- Over the streams of one kind of the market data. -/
def feedTimers (t : Ticks) (feed : Feed) (m : Market) : Market :=
  (List.range (m.feeds feed).length).foldl (fun m index => Feed.onTimer feed index (t.count feed index) m) m

def feedsTimer (t : Ticks) (p : Process ρ σ) : Process ρ σ :=
  { p with books := { p.books with
      market := feedTimers t .mbpFeed (feedTimers t .marketData p.books.market) } }

variable [LimitRequest ρ]

def orderEntryTimer (env : ProcessEnv) (t : Ticks) (name : String) (p : Process ρ σ) :
    Outcome Exn (Process ρ σ) :=
  p.put name (OrderEntry.onTimer (env.account name) (t.tick name) (p.gateways name))

def dropCopyTimer (env : ProcessEnv) (t : Ticks) (name : String) (p : Process ρ σ) :
    Outcome Exn (Process ρ σ) :=
  p.put name (DropCopy.onTimer (env.account name) (t.tick name) (p.gateways name))

/-- An exception leaves the streams behind it without this timer. -/
def onTimer (env : ProcessEnv) (t : Ticks) (p : Process ρ σ) : Outcome Exn (Process ρ σ) :=
  (forEach (orderEntryTimer env t) env.orderEntry p).bind fun p =>
  (forEach (dropCopyTimer env t) env.dropCopy p).bind fun p =>
  .ok (feedsTimer t p)

/-! ## Machine -/

variable [Sequencer σ MBPUpdate]

def init (env : ProcessEnv) : Process ρ σ := ⟨fun _ => Gateway.init, Books.init env.books⟩

/-- Any stream terminates all of them. -/
def halted (env : ProcessEnv) (p : Process ρ σ) : Bool :=
  (env.accounts.any fun name => (p.gateways name).halted) || p.books.halted || p.books.market.halted

/-- What an event does. It cannot occur (`none`) if it is about a connection that
is not there. -/
def handle (env : ProcessEnv) (p : Process ρ σ) : ProcessEvent → Option (Outcome Exn (Process ρ σ))
  | .connection name e =>
    if name ∈ env.accounts ∧ e.ofConnection then
      (Gateway.handle (env.account name) (p.gateways name) e).map (p.put name)
    else none
  | .createOrder name refuses info createOrder refData requestId =>
    some (withOrderEntry env name p fun p => p.put name (OrderEntry.placeOrder (env.account name)
      refuses info createOrder refData requestId (p.gateways name)))
  | .modifyOrder name => some (withOrderEntry env name p (.throws notSupported))
  | .cancelOrder name refuses info cancelOrder order requestId =>
    some (withOrderEntry env name p fun p => p.put name (OrderEntry.cancelOrder (env.account name)
      refuses info cancelOrder order requestId (p.gateways name)))
  | .cancelAllOrders name refuses info cancelAllOrders requestId =>
    some (withOrderEntry env name p fun p => p.put name (OrderEntry.cancelAllOrders (env.account name)
      refuses info cancelAllOrders requestId (p.gateways name)))
  | .massQuote | .cancelQuotes => some (.throws notSupported p)
  | .books e =>
    if e.isTimer then none
    else (Books.step env.books p.books e).map fun books => .ok { p with books }
  | .timer t => some (onTimer env t p)

/-- A handler leaves the state behind, whatever it threw. -/
def step (env : ProcessEnv) (p : Process ρ σ) (e : ProcessEvent) : Option (Process ρ σ) :=
  if p.halted env then none else (handle env p e).map Outcome.state

end Process

/-- The gateway, with all of its accounts. -/
def process (ρ σ : Type) [LimitRequest ρ] [Sequencer σ MBPUpdate] (env : ProcessEnv) :
    Machine (Process ρ σ) ProcessEvent where
  init := Process.init env
  step := Process.step env

end RoqHtx

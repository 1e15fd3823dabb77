import RoqHtx.Impl.Api

/-!
# The exchange's protocol

JSON values, the enumerations of the protocol and the messages the gateway
decodes, as the schemas describe them. The code that reads an enumeration or a
message is generated from its schema by the build. An enumeration maps each
listed text to its value and any other text to `unknownInternal`; what it makes
of a value that is not a text is left to `Unlisted`.
-/

namespace RoqHtx.Json

/-- `core::json::Value`: objects and arrays by their text. -/
inductive Value where
  | null
  | bool (b : Bool)
  | int (n : Int)
  | double (x : Double)
  | string (s : String)
  | object (text : String)
  | array (text : String)
  deriving DecidableEq, Repr

/-- The top-level members of an object, in text order. -/
abbrev Members := List (String × Value)

/-- What a generated enumeration holds when it holds no listed value. -/
inductive Unlisted where
  | undefinedInternal | unknownInternal
  deriving DecidableEq, Repr

/-! ## Enumerations -/

inductive Action where
  | undefinedInternal | unknownInternal
  | sub | req | ping | pong | push
  deriving DecidableEq, Repr

def Action.ofText : String → Action
  | "sub" => .sub
  | "req" => .req
  | "ping" => .ping
  | "pong" => .pong
  | "push" => .push
  | _ => .unknownInternal

def Action.ofUnlisted : Unlisted → Action
  | .undefinedInternal => .undefinedInternal
  | .unknownInternal => .unknownInternal

inductive Topic where
  | undefinedInternal | unknownInternal
  | bbo | trade | detail | ticker | mbp | auth | accounts | orders | clearing
  deriving DecidableEq, Repr

def Topic.ofText : String → Topic
  | "bbo" => .bbo
  | "trade" => .trade
  | "detail" => .detail
  | "ticker" => .ticker
  | "mbp" => .mbp
  | "auth" => .auth
  | "accounts" => .accounts
  | "orders" => .orders
  | "clearing" => .clearing
  | _ => .unknownInternal

inductive Status where
  | undefinedInternal | unknownInternal
  | ok | error
  deriving DecidableEq, Repr

def Status.ofText : String → Status
  | "ok" => .ok
  | "error" => .error
  | _ => .unknownInternal

def Status.ofUnlisted : Unlisted → Status
  | .undefinedInternal => .undefinedInternal
  | .unknownInternal => .unknownInternal

inductive OrderType where
  | undefinedInternal | unknownInternal
  | buyMarket | sellMarket
  | buyLimit | sellLimit
  | buyIoc | sellIoc
  | buyLimitMaker | sellLimitMaker
  | buyStopLimit | sellStopLimit
  | buyLimitFok | sellLimitFok
  | buyStopLimitFok | sellStopLimitFok
  deriving DecidableEq, Repr

/-- `as_raw_text`: the listed text of a value. -/
def OrderType.asRawText : OrderType → Option String
  | .undefinedInternal | .unknownInternal => none
  | .buyMarket => some "buy-market"
  | .sellMarket => some "sell-market"
  | .buyLimit => some "buy-limit"
  | .sellLimit => some "sell-limit"
  | .buyIoc => some "buy-ioc"
  | .sellIoc => some "sell-ioc"
  | .buyLimitMaker => some "buy-limit-maker"
  | .sellLimitMaker => some "sell-limit-maker"
  | .buyStopLimit => some "buy-stop-limit"
  | .sellStopLimit => some "sell-stop-limit"
  | .buyLimitFok => some "buy-limit-fok"
  | .sellLimitFok => some "sell-limit-fok"
  | .buyStopLimitFok => some "buy-stop-limit-fok"
  | .sellStopLimitFok => some "sell-stop-limit-fok"

def OrderType.ofText : String → OrderType
  | "buy-market" => .buyMarket
  | "sell-market" => .sellMarket
  | "buy-limit" => .buyLimit
  | "sell-limit" => .sellLimit
  | "buy-ioc" => .buyIoc
  | "sell-ioc" => .sellIoc
  | "buy-limit-maker" => .buyLimitMaker
  | "sell-limit-maker" => .sellLimitMaker
  | "buy-stop-limit" => .buyStopLimit
  | "sell-stop-limit" => .sellStopLimit
  | "buy-limit-fok" => .buyLimitFok
  | "sell-limit-fok" => .sellLimitFok
  | "buy-stop-limit-fok" => .buyStopLimitFok
  | "sell-stop-limit-fok" => .sellStopLimitFok
  | _ => .unknownInternal

/-- The exchange reads back the order type that was sent. -/
theorem OrderType.ofText_asRawText {t : OrderType} {text : String} (h : t.asRawText = some text) :
    ofText text = t := by
  cases t <;> simp only [asRawText, reduceCtorEq, Option.some.injEq] at h <;> subst h <;> rfl

inductive AccountType where
  | undefinedInternal | unknownInternal
  | spot | margin | point | superMargin | gridTrading | otcOptions | trustCredit | trade
  deriving DecidableEq, Repr

inductive AccountState where
  | undefinedInternal | unknownInternal
  | working | lock
  deriving DecidableEq, Repr

/-- Of a symbol. -/
inductive State where
  | undefinedInternal | unknownInternal
  | unknown | notOnline | preOnline | online | suspend | offline | transferBoard | fuse
  deriving DecidableEq, Repr

/-- Whether a symbol is traded through the API. -/
inductive Trading where
  | undefinedInternal | unknownInternal
  | enabled | disabled
  deriving DecidableEq, Repr

/-! ## REST responses -/

/-- What every response says of the request it answers. -/
structure Ack where
  status : Status
  errCode : String
  errMsg : String

structure AccountsAckDataItem where
  id : Int
  type : AccountType
  state : AccountState

structure AccountsAck extends Ack where
  data : List AccountsAckDataItem

structure BalanceAckDataListItem where
  currency : String
  type : String
  balance : Double
  seqNum : Int

structure BalanceAckData where
  id : Int
  list : List BalanceAckDataListItem

structure BalanceAck extends Ack where
  data : BalanceAckData

/-- Of the orders themselves the gateway state keeps nothing. -/
structure OpenOrdersAck extends Ack

structure PlaceOrderAck extends Ack where
  clientOrderId : String

structure CancelOrderAck extends Ack

structure CancelAllOrdersAck extends Ack

structure MarketStatus where
  code : Int
  message : String

structure Currencies extends Ack

structure SymbolsItem where
  baseCurrency : String
  quoteCurrency : String
  pricePrecision : Int
  amountPrecision : Int
  symbol : String
  state : State
  minOrderAmt : Double
  maxOrderAmt : Double
  apiTrading : Trading
  underlying : String
  deriving DecidableEq

structure Symbols extends Ack where
  data : List SymbolsItem

/-! ## Messages on a socket -/

structure Req where
  code : Int
  ch : String

structure Sub where
  code : Int
  ch : String

structure AccountsData where
  currency : String
  accountId : Int
  balance : Double
  changeType : String
  changeTime : Int
  seqNum : Int

/-- The overloads of `Parser::Handler`. -/
inductive Kind where
  | req | ping | ping2 | error | error2 | sub | subbed
  | bbo | trade | detail | ticker | mbp | mbpSnapshot
  | accounts | orders | clearing
  deriving DecidableEq, Repr

/-- A decoded message, with what the order stream's handlers read of it. -/
inductive Message where
  | req (req : Req)
  | ping (ts : Int)
  | ping2 (ping : Int)
  | error
  | error2
  | sub (sub : Sub)
  | subbed
  | bbo
  | trade
  | detail
  | ticker
  | mbp
  | mbpSnapshot
  | accounts (data : AccountsData)
  | orders
  | clearing

def Message.kind : Message → Kind
  | .req _ => .req
  | .ping _ => .ping
  | .ping2 _ => .ping2
  | .error => .error
  | .error2 => .error2
  | .sub _ => .sub
  | .subbed => .subbed
  | .bbo => .bbo
  | .trade => .trade
  | .detail => .detail
  | .ticker => .ticker
  | .mbp => .mbp
  | .mbpSnapshot => .mbpSnapshot
  | .accounts _ => .accounts
  | .orders => .orders
  | .clearing => .clearing

end RoqHtx.Json

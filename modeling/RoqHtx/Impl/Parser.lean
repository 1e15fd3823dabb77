import RoqHtx.Impl.Json
import RoqHtx.Impl.Response

/-!
# Routing a message to its handler

`Parser::dispatch` scans the top-level members of an object in text order and
stops at the first one that decides where the message goes (`route`). The key
of a member is recognised by its hash. The readers of enumerations and messages
are generated by the build; `Parser` is what dispatching relies on of them.
-/

namespace RoqHtx

open Json

/-- What `Parser::dispatch` relies on. -/
structure Parser where
  /-- `utils::hash::FNV::compute`. -/
  fnv : String → UInt64
  /-- An enumeration read from a value that is not a text. -/
  unlisted : Value → Except Exn Unlisted
  /-- What `std::get<std::string_view>` throws at a value that is not a text. -/
  badVariantAccess : Exn
  /-- The generated reader of a message. -/
  decode : Kind → Members → Except Exn Message
  decode_kind {k : Kind} {members : Members} {m : Message} : decode k members = .ok m → m.kind = k

namespace Parser

variable {σ : Type}

/-! ## The topic of a channel -/

/-- `find_first_of`, from a position on. -/
def findFirstOf (c : Char) (s : List Char) (pos : Nat) : Option Nat :=
  ((s.drop pos).findIdx? (· == c)).map (· + pos)

def extractTopic (channel : String) : String :=
  if channel = "orders#*" then "orders"
  else if channel = "trade.clearing#*" then "clearing"
  else
    let s := channel.toList
    match findFirstOf '.' s 0 with
    | none => channel
    | some sep1 =>
      let tmp1 := s.take sep1
      if tmp1 = "accounts".toList then String.ofList tmp1
      else
        match findFirstOf '.' s (sep1 + 1) with
        | none => String.ofList (s.drop (sep1 + 1))
        | some sep2 =>
          match findFirstOf '.' s (sep2 + 1) with
          | some sep3 => String.ofList ((s.drop (sep2 + 1)).take (sep3 - (sep2 + 1)))
          | none => String.ofList (s.drop (sep2 + 1))

/-! ## Routing -/

/-- What one member decides. -/
inductive Route where
  /-- Nothing: go on with the next member. -/
  | next
  /-- Stop without a handler. -/
  | stop
  /-- Decode the message and call this overload of the handler. -/
  | handle (kind : Kind)
  | throws (e : Exn)
  | fatal
  deriving DecidableEq

variable (p : Parser)

/-- An enumeration, read from a value. -/
def enumOf {α : Type} (ofText : String → α) (ofUnlisted : Unlisted → α) : Value → Except Exn α
  | .string s => .ok (ofText s)
  | v => (p.unlisted v).map ofUnlisted

/-- `std::get<std::string_view>`. -/
def getText : Value → Except Exn String
  | .string s => .ok s
  | _ => .error p.badVariantAccess

def routeAction (value : Value) : Route :=
  match p.enumOf Action.ofText Action.ofUnlisted value with
  | .error e => .throws e
  | .ok action =>
    match action with
    | .undefinedInternal => .fatal
    | .unknownInternal => .stop
    | .sub => .handle .sub
    | .req => .handle .req
    | .ping => .handle .ping
    | .pong => .stop
    | .push => .next

def routeCh (value : Value) : Route :=
  match p.getText value with
  | .error e => .throws e
  | .ok channel =>
    match Topic.ofText (extractTopic channel) with
    | .undefinedInternal => .fatal
    | .unknownInternal => .stop
    | .bbo => .handle .bbo
    | .trade => .handle .trade
    | .detail => .handle .detail
    | .ticker => .handle .ticker
    | .mbp => .handle .mbp
    | .auth => .stop
    | .accounts => .handle .accounts
    | .orders => .handle .orders
    | .clearing => .handle .clearing

def routeRep (value : Value) : Route :=
  match p.getText value with
  | .error e => .throws e
  | .ok channel => if Topic.ofText (extractTopic channel) = .mbp then .handle .mbpSnapshot else .next

def routeStatus (value : Value) : Route :=
  match p.enumOf Status.ofText Status.ofUnlisted value with
  | .error e => .throws e
  | .ok status =>
    match status with
    | .undefinedInternal => .fatal
    | .unknownInternal => .stop
    | .ok => .next
    | .error => .handle .error

/-- The body of the helper that is called on each top-level member. -/
def route (key : String) (value : Value) : Route :=
  let key2 := p.fnv key
  if key2 = p.fnv "action" then p.routeAction value
  else if key2 = p.fnv "ch" then p.routeCh value
  else if key2 = p.fnv "message" then .handle .error2
  else if key2 = p.fnv "ping" then .handle .ping2
  else if key2 = p.fnv "rep" then p.routeRep value
  else if key2 = p.fnv "status" then p.routeStatus value
  else if key2 = p.fnv "subbed" then .handle .subbed
  else .next

/-- `dispatch_helper`: decodes the whole message and calls the handler. -/
def dispatchHelper (handler : Message → σ → Outcome Exn σ) (message : Members) (kind : Kind) (s : σ) :
    Outcome Exn (Bool × σ) :=
  match p.decode kind message with
  | .error e => .throws e (false, s)
  | .ok obj => (handler obj s).map fun s => (true, s)

/-- The scan over the members that are left, with the handler's state and
whether a handler has been called. -/
def dispatchMembers (handler : Message → σ → Outcome Exn σ) (message : Members) :
    Members → σ → Outcome Exn (Bool × σ)
  | [], s => .ok (false, s)
  | (key, value) :: members, s =>
    match p.route key value with
    | .next => dispatchMembers handler message members s
    | .stop => .ok (false, s)
    | .handle kind => p.dispatchHelper handler message kind s
    | .throws e => .throws e (false, s)
    | .fatal => .fatal (false, s)

/-- `Parser::dispatch`. -/
def dispatch (allowUnknownEventTypes : Bool) (handler : Message → σ → Outcome Exn σ)
    (message : Members) (s : σ) : Outcome Exn (Bool × σ) :=
  (p.dispatchMembers handler message message s).bind fun r =>
    if r.1 || allowUnknownEventTypes then .ok r else .fatal r

example : ["accounts.update", "auth", "market.btcusdt.bbo", "market.btcusdt.detail",
    "market.btcusdt.mbp.20", "market.btcusdt.ticker", "market.btcusdt.trade.detail", "orders#*",
    "trade.clearing#*"].map extractTopic =
    ["accounts", "auth", "bbo", "detail", "mbp", "ticker", "trade", "orders", "clearing"] := by
  decide

end Parser

end RoqHtx

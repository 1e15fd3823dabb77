import RoqHtx.Impl.Controller
import RoqHtx.Impl.Parser

/-!
# Channels

A channel is `source.symbol.theme`: what a stream subscribes to or requests, and
what the exchange puts into the messages that it sends for it. `extractSymbol`
and `extractTopic` take one apart again. Both are written with `substr`, which
throws if it starts behind the end (`substr`, `trySymbol`, `tryTopic`).
-/

namespace RoqHtx

namespace Parser

/-! ## Taking a channel apart -/

/-- `extract_symbol`. -/
def extractSymbol (channel : String) : String :=
  let s := channel.toList
  match findFirstOf '.' s 0 with
  | none => channel
  | some sep1 =>
    match findFirstOf '.' s (sep1 + 1) with
    | none => String.ofList (s.drop (sep1 + 1))
    | some sep2 => String.ofList ((s.drop (sep1 + 1)).take (sep2 - (sep1 + 1)))

/-- `std::string_view::substr`, up to the end if there is no count. -/
def substr (s : List Char) (pos : Nat) (count : Option Nat) : Option (List Char) :=
  if pos ≤ s.length then some ((s.drop pos).take (count.getD s.length)) else none

/-- `std::size_t`: a difference that does not wrap around. -/
def minus (n m : Nat) : Option Nat := if m ≤ n then some (n - m) else none

/-- `extract_symbol`, undefined where it would throw. -/
def trySymbol (channel : String) : Option String :=
  let s := channel.toList
  match findFirstOf '.' s 0 with
  | none => some channel
  | some sep1 =>
    match findFirstOf '.' s (sep1 + 1) with
    | none => (substr s (sep1 + 1) none).map String.ofList
    | some sep2 => do
      let count ← minus sep2 (sep1 + 1)
      (substr s (sep1 + 1) (some count)).map String.ofList

/-- `extract_topic`, undefined where it would throw. -/
def tryTopic (channel : String) : Option String :=
  if channel = "orders#*" then some "orders"
  else if channel = "trade.clearing#*" then some "clearing"
  else
    let s := channel.toList
    match findFirstOf '.' s 0 with
    | none => some channel
    | some sep1 => do
      let tmp1 ← substr s 0 (some sep1)
      if tmp1 = "accounts".toList then some (String.ofList tmp1)
      else
        match findFirstOf '.' s (sep1 + 1) with
        | none => (substr s (sep1 + 1) none).map String.ofList
        | some sep2 =>
          match findFirstOf '.' s (sep2 + 1) with
          | some sep3 => do
            let count ← minus sep3 (sep2 + 1)
            (substr s (sep2 + 1) (some count)).map String.ofList
          | none => (substr s (sep2 + 1) none).map String.ofList

example : ["market.btcusdt.ticker", "market.btcusdt.bbo", "market.btcusdt.trade.detail",
    "market.btcusdt.detail", "market.btcusdt.mbp.20"].map extractSymbol =
    List.replicate 5 "btcusdt" := by
  decide

end Parser

namespace Feed

open Json (Kind)

/-! ## What a stream asks for -/

def Message.channel : Message → String
  | .sub source symbol theme _ | .req source symbol theme _ => source ++ "." ++ symbol ++ "." ++ theme

def Message.symbol : Message → String
  | .sub _ symbol _ _ | .req _ symbol _ _ => symbol

/-- The member of a message from the exchange that has the channel: of an update,
or of the reply to a request. -/
def Message.member : Message → String
  | .sub _ _ _ _ => "ch"
  | .req _ _ _ _ => "rep"

/-! ## Handlers -/

/-- What a handler makes of a message: the symbol that it is for, where it looks. -/
structure Handled where
  kind : Kind
  symbol : Option String
  deriving DecidableEq

/-- The overloads of `MarketData`, for a message with a channel. -/
def MarketData.onMessage (channel : String) (kind : Kind) (s : List Handled) :
    Outcome Exn (List Handled) :=
  match kind with
  | .req => .fatal s
  | .ping | .ping2 | .error | .error2 | .sub | .subbed => .ok (s ++ [⟨kind, none⟩])
  | .bbo | .trade | .detail => .ok (s ++ [⟨kind, some (Parser.extractSymbol channel)⟩])
  | .ticker => .ok (s ++ [⟨kind, none⟩])
  | .mbp | .mbpSnapshot | .accounts | .orders | .clearing => .fatal s

/-- The overloads of `MBPFeed`, for a message with a channel. -/
def MBPFeed.onMessage (channel : String) (kind : Kind) (s : List Handled) :
    Outcome Exn (List Handled) :=
  match kind with
  | .req => .fatal s
  | .ping | .ping2 | .error | .error2 | .sub | .subbed => .ok (s ++ [⟨kind, none⟩])
  | .bbo | .trade | .detail | .ticker => .fatal s
  | .mbp | .mbpSnapshot => .ok (s ++ [⟨kind, some (Parser.extractSymbol channel)⟩])
  | .accounts | .orders | .clearing => .fatal s

def onMessage (channel : String) : Feed → Kind → List Handled → Outcome Exn (List Handled)
  | .marketData => MarketData.onMessage channel
  | .mbpFeed => MBPFeed.onMessage channel

end Feed

end RoqHtx

import RoqHtx.Impl.MbpFeed
import RoqHtx.Impl.Reader

/-!
# A concrete environment of the market data

One choice of everything in `MarketEnv`, for runs on concrete inputs: two symbols
for each stream, and bodies as the exchange writes them.
-/

namespace RoqHtx.Reader

/-! ## Bodies -/

def marketStatusBody : String :=
  "\x7b\"code\":200,\"message\":\"success\",\"data\":\x7b\"marketStatus\":1\x7d\x7d"

def currenciesBody : String := "\x7b\"status\":\"ok\",\"data\":[\"usdt\",\"btc\",\"eth\"]\x7d"

def symbolsItem (base state trading : String) : String :=
  "\x7b\"base-currency\":\"" ++ base ++ "\",\"quote-currency\":\"usdt\",\"price-precision\":2," ++
    "\"amount-precision\":6,\"symbol\":\"" ++ base ++ "usdt\",\"state\":\"" ++ state ++ "\"," ++
    "\"min-order-amt\":0.0001,\"max-order-amt\":1000,\"api-trading\":\"" ++ trading ++ "\"\x7d"

def symbolsBody (items : List String) : String :=
  "\x7b\"status\":\"ok\",\"data\":[" ++ String.intercalate "," items ++ "]\x7d"

def item (base : String) (state : Json.State) (trading : Json.Trading) : Json.SymbolsItem where
  baseCurrency := base
  quoteCurrency := "usdt"
  pricePrecision := 2
  amountPrecision := 6
  symbol := base ++ "usdt"
  state := state
  minOrderAmt := 0x3f1a36e2eb1c432d#64
  maxOrderAmt := 0x408f400000000000#64
  apiTrading := trading
  underlying := ""

/-- Two symbols that are traded. -/
def openBody : String :=
  symbolsBody [symbolsItem "btc" "online" "enabled", symbolsItem "eth" "online" "enabled"]

/-- One of them no longer is. -/
def disabledBody : String :=
  symbolsBody [symbolsItem "btc" "online" "disabled", symbolsItem "eth" "online" "enabled"]

/-! ## Environment -/

def power : Int → Double
  | 0 => 0x3ff0000000000000#64
  | -2 => 0x3f847ae147ae147b#64
  | -4 => 0x3f1a36e2eb1c432d#64
  | -6 => 0x3eb0c6f7a0b5ed8d#64
  | _ => .nan

/-- So many positions to a slice. -/
def slicing (count : Nat) (h : 0 < count) : Slicing where
  slice position := position / count
  size n := (n + count - 1) / count
  slice_lt position n hlt := by
    have : position / count < (position + count) / count := by
      rw [Nat.add_div_right _ h]
      exact Nat.lt_succ_self _
    exact this.trans_le (Nat.div_le_div_right (by omega))

def marketEnv : MarketEnv where
  exchange := "htx"
  accounts := 1
  power := power
  marketStatus := read [(marketStatusBody, ⟨200, "success"⟩)]
  currencies := read [(currenciesBody, { okAck with })]
  symbols := read
    [(openBody, { okAck with data := [item "btc" .online .enabled, item "eth" .online .enabled] }),
      (disabledBody,
        { okAck with data := [item "btc" .online .disabled, item "eth" .online .enabled] })]
  slicing := slicing 2 (by decide)
  assertions := true

/-- Nothing is discarded, and nothing throws. -/
def handling : Rest.Handling where
  discards := fun _ => false
  raises := fun _ => none
  retry := .later

/-- One call throws, and the stage is entered once more at once. -/
def throwing (call : Rest.Call) : Rest.Handling where
  discards := fun _ => false
  raises := fun c => if c = call then some (.std "dispatch") else none
  retry := .reissue

/-! ## Books -/

/-- A sequencer that drops the updates before a snapshot: the sequence number of
the latest update since, and the requests in a row. -/
structure Sequence where
  last : Option UInt64
  requests : Nat
  deriving DecidableEq

open Sequencer (Call Reply)

def Sequence.update (bids asks : List MBPUpdate) (last previous : UInt64) (s : Sequence) :
    Reply Sequence MBPUpdate :=
  match s.last with
  | none => ⟨[.requestSnapshot s.requests], .returned, ⟨none, s.requests + 1⟩⟩
  | some n =>
    if n = previous then ⟨[.publishUpdate bids asks], .returned, ⟨some last, s.requests⟩⟩
    else ⟨[], .badState, s⟩

instance : Sequencer Sequence MBPUpdate where
  init := ⟨none, 0⟩
  update bids asks _ last previous s := s.update bids asks last previous
  snapshot bids asks sequence _ :=
    ⟨[.publishSnapshot bids asks sequence sequence], .returned, ⟨some sequence, 0⟩⟩
  clear _ := ⟨none, 0⟩
  requests := Sequence.requests
  requests_init := rfl
  requests_clear _ := rfl
  counted_update bids asks first last previous s := by
    obtain ⟨_ | n, requests⟩ := s
    · exact .requestSnapshot (.nil _)
    · unfold Sequence.update
      dsimp only
      split
      · exact .publishUpdate bids asks (.nil _)
      · exact .nil _
  counted_snapshot bids asks sequence s := .publishSnapshot bids asks sequence sequence (.nil 0)

def booksEnv : BooksEnv := ⟨marketEnv, 3⟩

def mbp (seqNum prevSeqNum : UInt64) : Json.MBP where
  ch := "market.btcusdt.mbp.20"
  ts := 1639744309814
  tick := ⟨seqNum, prevSeqNum, [⟨0x40e70e3ab851eb85#64, 0x3feea5443d46b26c#64⟩], []⟩

def mbpSnapshot (seqNum : UInt64) : Json.MBPSnapshot where
  rep := "market.btcusdt.mbp.20"
  data := ⟨seqNum, [⟨0x40e70e3ab851eb85#64, 0x3feea5443d46b26c#64⟩], []⟩

/-! ## Runs -/

/-- The responses of a download, in its stages. -/
def symbolsDownload (sequence : Nat) (symbols : String) : List MarketEvent :=
  [.response .marketStatus sequence (success marketStatusBody) handling,
    .response .currencies sequence (success currenciesBody) handling,
    .response .symbols sequence (success symbols) handling]

end RoqHtx.Reader

import RoqHtx.Impl.MarketReader
import RoqHtx.Impl.Sockets

/-!
# A concrete environment of the sockets

Readers of messages as the exchange writes them: the members by name, and an object
inside of them by its text.
-/

namespace RoqHtx.Reader

open Json

/-- Reads the listed objects only. -/
def object {α : Type} (objects : List (String × α)) (members : Members) (name : String) :
    Except Exn α :=
  match members.lookup name with
  | some (.object text) => read objects text
  | _ => .error unreadable

/-- A message with a channel, a time and an object. -/
def ticking {α β : Type} (ticks : List (String × α)) (make : String → Int → α → β)
    (members : Members) : Except Exn β :=
  match text members "ch", int members "ts", object ticks members "tick" with
  | .ok ch, .ok ts, .ok tick => .ok (make ch ts tick)
  | _, _, _ => .error unreadable

/-! ## Messages -/

def bboTick : String :=
  "\x7b\"seqId\":144446084385,\"ask\":48660.95,\"askSize\":0.001298,\"bid\":48660.94," ++
    "\"bidSize\":0.228303,\"quoteTime\":1639669832791,\"symbol\":\"btcusdt\"\x7d"

def tradeTick : String :=
  "\x7b\"id\":144446879688,\"ts\":1639670532434," ++
    "\"data\":[\x7b\"id\":144446879688433873170760015,\"ts\":1639670532434," ++
    "\"tradeId\":102579820014,\"amount\":4.74E-4,\"price\":48542.5," ++
    "\"direction\":\"sell\"\x7d]\x7d"

def detailTick : String :=
  "\x7b\"id\":288812213349,\"low\":46641.43,\"high\":49500.0,\"open\":46879.92," ++
    "\"close\":48484.87,\"vol\":5.009502243290115E8,\"amount\":10312.405491742371," ++
    "\"version\":288812213349,\"count\":795572\x7d"

def mbpTick : String :=
  "\x7b\"seqNum\":144524033410,\"prevSeqNum\":144524033404,\"bids\":[[46703.6,0]]," ++
    "\"asks\":[]\x7d"

def snapshotData : String :=
  "\x7b\"seqNum\":144524033404,\"bids\":[[46705.1,0.211602],[46703.6,0.038915]]," ++
    "\"asks\":[[46705.11,0.196215]]\x7d"

def readBBO : Members → Except Exn BBO :=
  ticking [(bboTick, ⟨0x40e7c29e66666666#64, 0x3f554434e3369b9d#64, 0x40e7c29e147ae148#64,
    0x3fcd39085f4a1273#64⟩)] BBO.mk

def readTrade : Members → Except Exn Json.Trade :=
  ticking [(tradeTick, ⟨144446879688,
    [⟨102579820014, 0x3f3f10667f90d9d7#64, 0x40e7b3d000000000#64, .sell⟩]⟩)] Json.Trade.mk

def readDetail : Members → Except Exn Detail :=
  ticking [(detailTick, ⟨0x40e6c62dc28f5c29#64, 0x40e82b8000000000#64, 0x40e6e3fd70a3d70a#64,
    0x40e7ac9bd70a3d71#64, 0x41bddbe4d0543a19#64⟩)] Detail.mk

def readMBP : Members → Except Exn MBP :=
  ticking [(mbpTick, ⟨144524033410, 144524033404, [⟨0x40e6cdf333333333#64, 0⟩], []⟩)] MBP.mk

def readMBPSnapshot (members : Members) : Except Exn MBPSnapshot :=
  match text members "rep",
    object [(snapshotData, (⟨144524033404,
      [⟨0x40e6ce2333333333#64, 0x3fcb15c63ae2541e#64⟩, ⟨0x40e6cdf333333333#64, 0x3fa3ecaab8a5ce5b#64⟩],
      [⟨0x40e6ce23851eb852#64, 0x3fc91d92b7fe08af#64⟩]⟩ : MBPSnapshotData))] members "data" with
  | .ok rep, .ok data => .ok ⟨rep, data⟩
  | _, _ => .error unreadable

def ticked (channel tick : String) : Members :=
  [("ch", .string channel), ("ts", .int 1639669832793), ("tick", .object tick)]

/-- The reply to a request for a snapshot. -/
def snapshotMessage : Members :=
  [("id", .string "6000002"), ("status", .string "ok"), ("ts", .int 1639751391156),
    ("rep", .string "market.btcusdt.mbp.20"), ("data", .object snapshotData)]

/-! ## Environment -/

def decodeSocket (kind : Kind) (members : Members) : Except Exn Message :=
  match kind with
  | .bbo => (readBBO members).map fun _ => .bbo
  | .trade => (readTrade members).map fun _ => .trade
  | .detail => (readDetail members).map fun _ => .detail
  | .mbp => (readMBP members).map fun _ => .mbp
  | .mbpSnapshot => (readMBPSnapshot members).map fun _ => .mbpSnapshot
  | kind => decode kind members

theorem map_const_eq_ok {α : Type} {r : Except Exn α} {m m' : Message}
    (h : r.map (fun _ => m) = .ok m') : m' = m := by
  cases r <;> cases h
  rfl

theorem decodeSocket_kind {kind : Kind} {members : Members} {m : Message}
    (h : decodeSocket kind members = .ok m) : m.kind = kind := by
  cases kind
  case bbo | trade | detail | mbp | mbpSnapshot =>
    rw [map_const_eq_ok h]
    rfl
  all_goals exact decode_kind (show decode _ members = .ok m from h)

def socketsEnv : SocketsEnv where
  books := booksEnv
  parser := { parser with decode := decodeSocket, decode_kind := decodeSocket_kind }
  allowUnknownEventTypes := false
  bbo := readBBO
  trade := readTrade
  detail := readDetail
  mbp := readMBP
  mbpSnapshot := readMBPSnapshot
  decode_bbo _ := rfl
  decode_trade _ := rfl
  decode_detail _ := rfl
  decode_mbp _ := rfl
  decode_mbpSnapshot _ := rfl

end RoqHtx.Reader

import Mathlib.Algebra.Group.Nat.Defs
import RoqHtx.Impl.System
import RoqHtx.Impl.Throttle

/-!
# A concrete environment

One choice of everything in `Env`, for runs on concrete inputs: members are read
by name, whatever their order (`decode_perm`), and bodies as the exchange writes
them. What this reader does not read (an object inside an object, any other
body) throws.
-/

namespace RoqHtx.Reader

open Json

/-! ## Messages -/

/-- FNV-1a, of a text of ASCII characters. -/
def fnv (s : String) : UInt64 :=
  s.toList.foldl (fun h c => (h ^^^ c.toNat.toUInt64) * 0x100000001b3) 0xcbf29ce484222325

def unreadable : Exn := .std "unreadable"

def text (members : Members) (name : String) : Except Exn String :=
  match members.lookup name with
  | some (.string s) => .ok s
  | _ => .error unreadable

def int (members : Members) (name : String) : Except Exn Int :=
  match members.lookup name with
  | some (.int n) => .ok n
  | _ => .error unreadable

def decode (kind : Kind) (members : Members) : Except Exn Message :=
  match kind with
  | .req =>
    match int members "code", text members "ch" with
    | .ok code, .ok ch => .ok (.req { code, ch })
    | _, _ => .error unreadable
  | .sub =>
    match int members "code", text members "ch" with
    | .ok code, .ok ch => .ok (.sub { code, ch })
    | _, _ => .error unreadable
  | .ping2 => (int members "ping").map .ping2
  | .ping | .accounts => .error unreadable
  | .error => .ok .error
  | .error2 => .ok .error2
  | .subbed => .ok .subbed
  | .bbo => .ok .bbo
  | .trade => .ok .trade
  | .detail => .ok .detail
  | .ticker => .ok .ticker
  | .mbp => .ok .mbp
  | .mbpSnapshot => .ok .mbpSnapshot
  | .orders => .ok .orders
  | .clearing => .ok .clearing

theorem decode_kind {kind : Kind} {members : Members} {m : Message}
    (h : decode kind members = .ok m) : m.kind = kind := by
  cases kind <;> simp only [decode] at h
  case req | sub => split at h <;> cases h; rfl
  case ping2 =>
    obtain ⟨n, -, rfl⟩ : ∃ n, int members "ping" = .ok n ∧ Message.ping2 n = m := by
      cases hp : int members "ping" <;> simp_all [Except.map]
    rfl
  all_goals first | cases h; rfl | cases h

def parser : Parser where
  fnv := fnv
  unlisted
    | .null => .ok .undefinedInternal
    | _ => .error unreadable
  badVariantAccess := .std "bad variant access"
  decode := decode
  decode_kind := decode_kind

/-- With unique names, a lookup does not see the order. -/
theorem lookup_perm {members members' : Members} (hnodup : (members.map Prod.fst).Nodup)
    (h : members'.Perm members) (name : String) : members'.lookup name = members.lookup name := by
  have mem : ∀ {l : Members} {v : Value}, l.lookup name = some v → (name, v) ∈ l := by
    intro l v hl
    obtain ⟨l₁, l₂, rfl, -⟩ := List.lookup_eq_some_iff.mp hl
    simp
  cases hl : members.lookup name with
  | none =>
    rw [List.lookup_eq_none_iff] at hl ⊢
    exact fun x hx => hl x (h.mem_iff.mp hx)
  | some v =>
    cases hl' : members'.lookup name with
    | none =>
      rw [List.lookup_eq_none_iff] at hl'
      exact absurd (hl' _ (h.mem_iff.mpr (mem hl))) (by simp)
    | some v' =>
      have := List.inj_on_of_nodup_map hnodup (h.mem_iff.mp (mem hl')) (mem hl) rfl
      simpa using this

theorem decode_perm {members members' : Members} (hnodup : (members.map Prod.fst).Nodup)
    (h : members'.Perm members) (kind : Kind) : decode kind members' = decode kind members := by
  have hint : ∀ name, int members' name = int members name := fun name => by
    rw [int, int, lookup_perm hnodup h]
  have htext : ∀ name, text members' name = text members name := fun name => by
    rw [text, text, lookup_perm hnodup h]
  cases kind <;> simp only [decode, hint, htext]

/-- The reply to a login. -/
def authReply (code : Int) : Members :=
  [("action", .string "req"), ("code", .int code), ("ch", .string "auth")]

/-- The reply to a subscription. -/
def subReply (code : Int) (channel : String) : Members :=
  [("action", .string "sub"), ("code", .int code), ("ch", .string channel)]

/-! ## Bodies of REST responses -/

def accountsBody : String :=
  "\x7b\"status\":\"ok\",\"data\":[\x7b\"id\":71463752,\"type\":\"spot\",\"subtype\":\"\"," ++
    "\"state\":\"working\"\x7d]\x7d"

def balanceBody : String :=
  "\x7b\"status\":\"ok\",\"data\":\x7b\"id\":71463752,\"type\":\"spot\",\"state\":\"working\"," ++
    "\"list\":[]\x7d\x7d"

def openOrdersBody : String := "\x7b\"status\":\"ok\",\"data\":[]\x7d"

def placeOrderBody : String :=
  "\x7b\"status\":\"ok\",\"data\":\"1474908579893191\",\"clientOrderId\":\"bAACeMp9pEMAAQAAAAAA\"\x7d"

def cancelOrderBody : String := "\x7b\"status\":\"ok\",\"data\":\"1474909653904303\"\x7d"

def cancelAllOrdersBody : String := "\x7b\"status\":\"ok\",\"data\":true\x7d"

def errorBody : String :=
  "\x7b\"status\":\"error\",\"err-code\":\"login-required\",\"err-msg\":\"The account is not logged " ++
    "in, please log in and try again.\",\"data\":null\x7d"

def okAck : Ack where
  status := .ok
  errCode := ""
  errMsg := ""

def errorAck : Ack where
  status := .error
  errCode := "login-required"
  errMsg := "The account is not logged in, please log in and try again."

/-- Reads the listed bodies only. -/
def read {α : Type} (bodies : List (String × α)) (body : String) : Except Exn α :=
  match bodies.lookup body with
  | some ack => .ok ack
  | none => .error unreadable

def bodies : Decode where
  accountsAck := read
    [(accountsBody, { okAck with data := [⟨71463752, .spot, .working⟩] }),
      (errorBody, { errorAck with data := [] })]
  balanceAck := read
    [(balanceBody, { okAck with data := ⟨71463752, []⟩ }),
      (errorBody, { errorAck with data := ⟨0, []⟩ })]
  openOrdersAck := read [(openOrdersBody, { okAck with }), (errorBody, { errorAck with })]
  placeOrderAck := read
    [(placeOrderBody, { okAck with clientOrderId := "bAACeMp9pEMAAQAAAAAA" }),
      (errorBody, { errorAck with clientOrderId := "" })]
  cancelOrderAck := read [(cancelOrderBody, { okAck with }), (errorBody, { errorAck with })]
  cancelAllOrdersAck := read [(cancelAllOrdersBody, { okAck with }), (errorBody, { errorAck with })]

/-- A response with a success status. -/
def success (body : String) : Response where
  result := .ok (⟨200, "OK"⟩, .success, body)
  expect := none

/-- A request that was not answered in time. -/
def timeout : Response where
  result := .error (.network (.other 5) (.other 7) "timeout")
  expect := none

/-! ## Numbers -/

/-- The digits of `n` after the decimal point. -/
def fraction (n : Nat) : Nat → String
  | 0 => ""
  | digits + 1 => fraction (n / 10) digits ++ toString (n % 10)

/-- A finite, non-negative double with a fixed number of decimals. -/
def decimal (x : Double) (precision : Nat) : String :=
  let exponent := x.toNat / 2 ^ 52 % 2 ^ 11
  let mantissa := x.toNat % 2 ^ 52 + if exponent = 0 then 0 else 2 ^ 52
  let shift := max exponent 1
  let scaled := mantissa * 10 ^ precision
  let n := if 1075 ≤ shift then scaled * 2 ^ (shift - 1075)
    else (scaled + 2 ^ (1074 - shift)) / 2 ^ (1075 - shift)
  if precision = 0 then toString n
  else toString (n / 10 ^ precision) ++ "." ++ fraction n precision

/-- One, one and a half and 32000, as doubles. -/
example : [decimal 0x3ff0000000000000#64 0, decimal 0x3ff8000000000000#64 3,
    decimal 0x40df400000000000#64 2] = ["1", "1.500", "32000.00"] := by
  decide

/-! ## Headers -/

/-- Digits only. -/
def natural (s : String) : Except Exn Nat :=
  s.toList.foldl (fun n c => if c.isDigit then n.map (10 * · + (c.toNat - 48)) else .error unreadable)
    (.ok 0)

def headerFormats : Throttle.HeaderFormats where
  fnv := fnv
  int32 := fun s => (natural s).map Int32.ofNat
  int64 := fun s => (natural s).map Int64.ofNat
  fnv_ne := by decide +kernel

example : Throttle.parseHeader headerFormats "X-HB-RateLimit-Requests-Remain" =
      .xHbRatelimitRequestsRemain ∧
    Throttle.parseHeader headerFormats "X-HB-RateLimit-Requests-Expire" =
      .xHbRatelimitRequestsExpire := by
  decide +kernel

/-- What a connection reads at some second, counted on both clocks. -/
def reads (connection : Nat) (second : Int) (message : Throttle.Message) : Throttle.Event :=
  ⟨connection, ⟨second * 1000000000, second * 1000000000⟩, message⟩

/-- A response that gives what remains, and until when (in milliseconds). -/
def budget (connection : Nat) (second : Int) (remain expire : String) : List Throttle.Event :=
  [reads connection second .messageBegin,
    reads connection second (.messageHeader ⟨"X-HB-RateLimit-Requests-Remain", remain⟩),
    reads connection second (.messageHeader ⟨"X-HB-RateLimit-Requests-Expire", expire⟩)]

/-! ## Environment -/

def env : Env where
  account :=
    { name := "A1"
      createQuery := fun _ _ path => "?path=" ++ path
      createWsAuth := fun _ path => path }
  settings :=
    { retryLogon := true
      allowUnknownEventTypes := true
      checkStaleOrderFreq := 10 }
  decode := bodies
  parser := parser
  formats :=
    { decimal
      unlistedText := .ok "" }
  assertions := false

/-- A timer that finds both connections up, and nothing refused or stale. -/
def tick : OrderEntry.Tick where
  trace := ⟨0, 0⟩
  restRefresh := true
  socketRefresh := true
  canRequest := fun _ => true
  refuses := fun _ => none
  findOrder := fun _ => none
  staleOrders := []

/-! ## Runs -/

abbrev Flags := LimitRequest.Flags

abbrev flags : Machine (Gateway Flags) Event := machine Flags env

/-- Both connections are made, and the login is accepted. -/
def login : List Event :=
  [.restConnected, .socketReady ⟨0, 0⟩, .text (authReply 200)]

/-- From the login to the response to the open orders. -/
def download : List Event :=
  [.timer tick, .response 0 (success accountsBody), .timer tick,
    .text (subReply 200 "accounts.update"), .timer tick, .response 0 (success balanceBody),
    .timer tick, .text (subReply 200 "orders#*"), .timer tick, .response 0 (success openOrdersBody)]

/-! ## Orders -/

def info : MessageInfo where
  originCreateTime := 0
  originCreateTimeUtc := 0
  source := 1

/-- A limit order that is good till cancelled, at 32000. -/
def limitGtc : CreateOrder where
  orderId := 1001
  symbol := "btcusdt"
  side := .buy
  orderType := .limit
  timeInForce := .gtc
  executionInstructions := ∅
  quantity := 0x3ff0000000000000#64
  price := 0x40df400000000000#64

/-- The order is created. -/
def create : Event := .createOrder (fun _ => none) info limitGtc ⟨0, 2⟩ "A1"

/-- The order as the order manager has it, and a timer that finds it stale. -/
def order : Order where
  userId := 1
  orderId := 1001
  symbol := "btcusdt"
  clientOrderId := "bAACeMp9pEMAAQAAAAAA"
  externalOrderId := ""

def staleTick : OrderEntry.Tick :=
  { tick with
    findOrder := fun key => if key = (1, 1001) then some order else none
    staleOrders := [order] }

/-- The order is cancelled, at its second version. -/
def cancel : Event := .cancelOrder (fun _ => none) info ⟨1001, 2⟩ order "A2"

end RoqHtx.Reader

import RoqHtx.Framework.FirstMatch
import RoqHtx.Impl.Reader
import RoqHtx.Proof.Stages
import RoqHtx.Proof.Steps

/-!
# Balances

Balances arrive in the responses to the requests for them and on the order
stream, and every one of them is published as it arrives (`PassedOn`). Nothing
looks at the type of a balance, so that a response holds what it says of a
currency in its trade item only if its frozen item says the same
(`holdsTrade_iff`). Nothing compares sequence numbers, so that those published
go back exactly if a balance of one source arrives after a newer one of the
other (`funds_never_back_iff`).
-/

namespace RoqHtx

open OrderEntry

variable {ρ : Type}

/-! ## Trade and frozen -/

/-- The balance that an entry publishes for a currency. -/
def balanceOf (currency : String) : Entry → Option Double
  | .fundsUpdate update => if update.currency = currency then some update.balance else none
  | _ => none

/-- The balance held for a currency: the one published last. -/
def held (currency : String) (l : List Entry) : Option Double := l.findSome? (balanceOf currency)

/-- What an item of a response says of a currency. -/
def itemBalance (currency : String) (item : Json.BalanceAckDataListItem) : Option Double :=
  if item.currency = currency then some item.balance else none

/-- After the balances of a response, every currency is held as its trade item
says, and in whatever order the response lists its items. -/
structure HoldsTrade (ρ : Type) (ack : Json.BalanceAck) : Prop where
  trade : ∀ g : Gateway ρ, ∀ item ∈ ack.data.list, item.type = "trade" →
    held item.currency (onBalanceAck ack g).log = some item.balance
  perm : ∀ list : List Json.BalanceAckDataListItem, list.Perm ack.data.list →
    ∀ (g : Gateway ρ) (currency : String),
      held currency (onBalanceAck { ack with data := { ack.data with list } } g).log =
        held currency (onBalanceAck ack g).log

theorem onBalanceAck_log (ack : Json.BalanceAck) (g : Gateway ρ) :
    (onBalanceAck ack g).log =
      (ack.data.list.map fun item => Entry.fundsUpdate (fundsUpdate ack.data item)).reverse ++
        .balanceAck ack :: g.log := by
  have pushes : ∀ (items : List Json.BalanceAckDataListItem) (s : Gateway ρ),
      (items.foldl (fun g item => g.push (.fundsUpdate (fundsUpdate ack.data item))) s).log =
        (items.map fun item => Entry.fundsUpdate (fundsUpdate ack.data item)).reverse ++ s.log := by
    intro items
    induction items with
    | nil => exact fun _ => rfl
    | cons item items ih =>
      intro s
      rw [List.foldl_cons, ih, List.map_cons, List.reverse_cons, List.append_assoc]
      rfl
  exact pushes ack.data.list _

/-- The item of a currency that is listed last is held. -/
theorem held_onBalanceAck (ack : Json.BalanceAck) (g : Gateway ρ) (currency : String) :
    held currency (onBalanceAck ack g).log =
      (ack.data.list.reverse.findSome? (itemBalance currency)).or (held currency g.log) := by
  rw [held, onBalanceAck_log, List.findSome?_append, ← List.map_reverse, List.findSome?_map]
  rfl

/-- If all items of a currency have the same balance, then so has the one that is
listed last, in whatever order. -/
theorem listed_last {items l : List Json.BalanceAckDataListItem} {item : Json.BalanceAckDataListItem}
    (h : ∀ x ∈ items, ∀ y ∈ items, x.currency = y.currency → x.balance = y.balance)
    (hl : l.Perm items) (hitem : item ∈ l) :
    l.reverse.findSome? (itemBalance item.currency) = some item.balance := by
  have hsome : (l.reverse.findSome? (itemBalance item.currency)).isSome = true :=
    List.findSome?_isSome_iff.mpr ⟨item, List.mem_reverse.mpr hitem, by simp [itemBalance]⟩
  obtain ⟨b, hb⟩ := Option.isSome_iff_exists.mp hsome
  obtain ⟨y, hy, hyb⟩ := List.exists_of_findSome?_eq_some hb
  rw [hb]
  simp only [itemBalance, Option.ite_none_right_eq_some, Option.some.injEq] at hyb
  obtain ⟨hcurrency, rfl⟩ := hyb
  exact congrArg some (h y (hl.mem_iff.mp (List.mem_reverse.mp hy)) item (hl.mem_iff.mp hitem)
    hcurrency)

/-- A response is held as its trade items say exactly if all its items of a
currency have the same balance. -/
theorem holdsTrade_iff (ρ : Type) [LimitRequest ρ] (ack : Json.BalanceAck) :
    HoldsTrade ρ ack ↔ ∀ x ∈ ack.data.list, ∀ y ∈ ack.data.list, x.currency = y.currency →
      x.balance = y.balance := by
  constructor
  · intro h x hx y hy hxy
    let g : Gateway ρ := Gateway.init
    have reordered : ∀ l : List Json.BalanceAckDataListItem, l.Perm ack.data.list.reverse →
        (l.findSome? (itemBalance x.currency)).or (held x.currency g.log) =
          (ack.data.list.reverse.findSome? (itemBalance x.currency)).or (held x.currency g.log) := by
      intro l hl
      have hperm : l.reverse.Perm ack.data.list :=
        (List.reverse_perm l).trans (hl.trans (List.reverse_perm _))
      have := h.perm l.reverse hperm g x.currency
      rwa [held_onBalanceAck, held_onBalanceAck, List.reverse_reverse] at this
    have same := (findSome?_perm_iff (fun o => o.or (held x.currency g.log)) _).mp reordered
      x (List.mem_reverse.mpr hx) y (List.mem_reverse.mpr hy)
    simpa [itemBalance, hxy] using same
  · intro h
    refine ⟨fun g item hitem _ => ?_, fun l hl g currency => ?_⟩
    · rw [held_onBalanceAck, listed_last h (.refl _) hitem, Option.some_or]
    · rw [held_onBalanceAck, held_onBalanceAck]
      refine congrArg (Option.or · _) ?_
      by_cases hitem : ∃ item ∈ l, item.currency = currency
      · obtain ⟨item, hmem, rfl⟩ := hitem
        rw [listed_last h hl hmem, listed_last h (.refl _) (hl.mem_iff.mp hmem)]
      · have none : ∀ l' : List Json.BalanceAckDataListItem, l'.Perm l →
            l'.reverse.findSome? (itemBalance currency) = none := by
          intro l' hl'
          refine List.findSome?_eq_none_iff.mpr fun item hmem => ?_
          have hne : item.currency ≠ currency := fun hc =>
            hitem ⟨item, hl'.mem_iff.mp (List.mem_reverse.mp hmem), hc⟩
          simp [itemBalance, hne]
        rw [none l (.refl l), none _ hl.symm]

/-- A trade item of one and a half and a frozen item of a quarter: the quarter is
held. -/
theorem frozen_held :
    let ack : Json.BalanceAck := { Reader.okAck with
      data := ⟨71463752, [⟨"btc", "trade", 0x3ff8000000000000#64, 8⟩,
        ⟨"btc", "frozen", 0x3fd0000000000000#64, 8⟩]⟩ }
    let g : Gateway Reader.Flags := Gateway.init
    held "btc" (onBalanceAck ack g).log = some 0x3fd0000000000000#64 ∧
      ¬HoldsTrade Reader.Flags ack := by
  intro ack g
  refine ⟨rfl, fun h => ?_⟩
  have traded : held "btc" (onBalanceAck ack g).log = some 0x3ff8000000000000#64 :=
    h.trade g ⟨"btc", "trade", 0x3ff8000000000000#64, 8⟩ List.mem_cons_self rfl
  exact absurd traded (by decide)

/-! ## Sequence numbers -/

inductive Source where
  | rest | stream

/-- The sequence numbers of a currency that arrive from a source, latest first. -/
def arrived : Source → String → Entry → List Int
  | .rest, currency, .balanceAck ack =>
    ((ack.data.list.filter fun item => item.currency = currency).map (·.seqNum)).reverse
  | .stream, currency, .received (.accounts data) =>
    if data.currency = currency then [data.seqNum] else []
  | _, _, _ => []

/-- The sequence numbers of a currency that are published. -/
def published (currency : String) : Entry → List Int
  | .fundsUpdate update => if update.currency = currency then [update.exchangeSequence] else []
  | _ => []

/-- The sequence numbers of a currency, latest first, never go back. -/
def NeverBack (l : List Int) : Prop := l.Pairwise (· ≥ ·)

/-- What arrives from either source. -/
def arrivals (currency : String) (x : Entry) : List Int :=
  arrived .rest currency x ++ arrived .stream currency x

theorem mem_arrivals {currency : String} {x : Entry} {n : Int} :
    n ∈ arrivals currency x ↔ ∃ s, n ∈ arrived s currency x := by
  rw [arrivals, List.mem_append]
  constructor
  · rintro (h | h)
    · exact ⟨.rest, h⟩
    · exact ⟨.stream, h⟩
  · rintro ⟨_ | _, h⟩
    · exact .inl h
    · exact .inr h

theorem mem_flatMap_arrivals {currency : String} {l : List Entry} {n : Int} :
    n ∈ l.flatMap (arrivals currency) ↔ ∃ s, n ∈ l.flatMap (arrived s currency) := by
  simp only [List.mem_flatMap, mem_arrivals]
  exact ⟨fun ⟨x, hx, s, hs⟩ => ⟨s, x, hx, hs⟩, fun ⟨s, x, hx, hs⟩ => ⟨x, hx, s, hs⟩⟩

/-- An entry is of one source only. -/
theorem arrivals_neverBack {currency : String} {x : Entry}
    (h : ∀ s, NeverBack (arrived s currency x)) : NeverBack (arrivals currency x) := by
  cases x with
  | balanceAck ack => simpa [arrivals, arrived] using h .rest
  | received message =>
    cases message with
    | accounts data => simpa [arrivals, arrived] using h .stream
    | _ => exact List.Pairwise.nil
  | _ => exact List.Pairwise.nil

/-- A balance that arrives is not older than any that has arrived from the other
source. -/
def InTime (currency : String) (before : List Entry) (x : Entry) : Prop :=
  ∀ s s', s ≠ s' → ∀ n ∈ arrived s currency x, ∀ m ∈ before.flatMap (arrived s' currency), m ≤ n

/-- If neither source goes back, what arrives from both goes back exactly if some
balance is not in time. -/
theorem arrivals_neverBack_iff (currency : String) :
    ∀ l : List Entry, (∀ s, NeverBack (l.flatMap (arrived s currency))) →
      (NeverBack (l.flatMap (arrivals currency)) ↔ Always (InTime currency) l)
  | [], _ => iff_of_true List.Pairwise.nil trivial
  | x :: l, h => by
    have hx : ∀ s, NeverBack (arrived s currency x) ∧ NeverBack (l.flatMap (arrived s currency)) ∧
        ∀ n ∈ arrived s currency x, ∀ m ∈ l.flatMap (arrived s currency), n ≥ m := fun s => by
      have := h s
      rwa [List.flatMap_cons, NeverBack, List.pairwise_append] at this
    have ih := arrivals_neverBack_iff currency l fun s => (hx s).2.1
    rw [List.flatMap_cons, NeverBack, List.pairwise_append, always_cons, ← ih]
    constructor
    · rintro ⟨-, hl, hcross⟩
      refine ⟨fun s s' _ n hn m hm => ?_, hl⟩
      exact hcross n (mem_arrivals.mpr ⟨s, hn⟩) m (mem_flatMap_arrivals.mpr ⟨s', hm⟩)
    · rintro ⟨hintime, hl⟩
      refine ⟨arrivals_neverBack fun s => (hx s).1, hl, fun n hn m hm => ?_⟩
      obtain ⟨s, hn⟩ := mem_arrivals.mp hn
      obtain ⟨s', hm⟩ := mem_flatMap_arrivals.mp hm
      by_cases hs : s = s'
      · subst hs
        exact (hx s).2.2 n hn m hm
      · exact hintime s s' hs n hn m hm

/-! ## Every balance is published as it arrives -/

/-- What is published is what arrives. -/
def PassedOn (l : List Entry) : Prop :=
  ∀ currency, l.flatMap (published currency) = l.flatMap (arrivals currency)

theorem PassedOn.append {l l' : List Entry} (h : PassedOn l) (h' : PassedOn l') :
    PassedOn (l ++ l') := fun currency => by
  rw [List.flatMap_append, List.flatMap_append, h, h']

/-- An entry that neither brings nor publishes a balance. -/
def WithoutBalance : Entry → Prop
  | .fundsUpdate _ | .balanceAck _ | .received (.accounts _) => False
  | _ => True

theorem PassedOn.of_withoutBalance : ∀ {l : List Entry}, (∀ x ∈ l, WithoutBalance x) → PassedOn l
  | [], _ => fun _ => rfl
  | x :: l, h => by
    have hl := PassedOn.of_withoutBalance fun y hy => h y (List.mem_cons_of_mem x hy)
    have hx : PassedOn [x] := by
      have := h x List.mem_cons_self
      cases x with
      | fundsUpdate | balanceAck => exact this.elim
      | received message =>
        cases message with
        | accounts => exact this.elim
        | _ => exact fun _ => rfl
      | _ => exact fun _ => rfl
    exact hx.append hl

theorem Grows.passedOn {g g' : Gateway ρ} (h : Grows WithoutBalance g g') (hg : PassedOn g.log) :
    PassedOn g'.log := by
  obtain ⟨new, hnew, hwithout⟩ := h
  rw [hnew]
  exact (PassedOn.of_withoutBalance hwithout).append hg

/-- The balances of a response are published in the order of the list. -/
theorem balances_passedOn (ack : Json.BalanceAck) :
    PassedOn ((ack.data.list.map fun item => Entry.fundsUpdate (fundsUpdate ack.data item)).reverse ++
      [.balanceAck ack]) := by
  intro currency
  have items : ∀ items : List Json.BalanceAckDataListItem,
      (items.map fun item => Entry.fundsUpdate (fundsUpdate ack.data item)).reverse.flatMap
          (published currency) =
        ((items.filter fun item => item.currency = currency).map (·.seqNum)).reverse := by
    intro items
    induction items with
    | nil => rfl
    | cons item items ih =>
      rw [List.map_cons, List.reverse_cons, List.flatMap_append, ih, List.filter_cons]
      by_cases hc : item.currency = currency <;> simp [published, fundsUpdate, hc]
  have none : (ack.data.list.map fun item => Entry.fundsUpdate (fundsUpdate ack.data item)).reverse.flatMap
      (arrivals currency) = [] := by
    simp [arrivals, arrived]
  rw [List.flatMap_append, List.flatMap_append, items, none]
  simp [published, arrivals, arrived]

variable [LimitRequest ρ]

theorem withoutBalance_closed (g : Gateway ρ) : DropCopy.Closed (Grows WithoutBalance g) where
  push x s hx hs := hs.trans (.of_cons rfl (by cases x <;> trivial))
  dropCopy s _ hs := hs.trans (.of_eq rfl)
  details s _ hs := hs.trans (.of_eq rfl)
  requestOf w s hs := hs.trans (.of_cons rfl trivial)

theorem DropCopy.onMessage_passedOn (env : Env) (m : Json.Message) {g : Gateway ρ}
    (hg : PassedOn g.log) : PassedOn (onMessage env m g).state.log := by
  cases m with
  | accounts data =>
    have new : PassedOn [.fundsUpdate (fundsUpdate data), .received (.accounts data)] := by
      intro currency
      by_cases hc : data.currency = currency <;>
        simp [published, arrivals, arrived, fundsUpdate, hc]
    exact new.append hg
  | _ =>
    refine Grows.passedOn ((withoutBalance_closed g).onMessage env nofun ?_) hg
    exact .of_cons rfl trivial

theorem OrderEntry.onResponse_passedOn (env : Env) (f : InFlight) (response : Response)
    {g : Gateway ρ} (hg : PassedOn g.log) : PassedOn (onResponse env f response g).state.log := by
  by_cases hc : f.callback = .balanceAck
  · have committed : PassedOn [.commit .balances] := .of_withoutBalance (by simp [WithoutBalance])
    unfold onResponse
    rw [hc]
    rcases downloadAck_cases env .balances env.decode.balanceAck (·.toAck) onBalanceAck response g with
      h | ⟨ack, -, h⟩ | h
    all_goals
      simp only [balanceAck]
      rw [h]
    · exact hg
    · have hlog : ((onBalanceAck ack g).commit .balances).log = .commit .balances ::
          (ack.data.list.map fun item => Entry.fundsUpdate (fundsUpdate ack.data item)).reverse ++
            [.balanceAck ack] ++ g.log := by
        simp [Gateway.commit, onBalanceAck_log]
      rw [Outcome.state_ok, hlog]
      exact (committed.append (balances_passedOn ack)).append hg
    · exact committed.append hg
  · refine ((onResponse_answers env f response g).log.mono fun x hx => ?_).passedOn hg
    cases x with
    | fundsUpdate | balanceAck =>
      cases hcallback : f.callback with
      | balanceAck => exact absurd hcallback hc
      | _ =>
        rw [hcallback] at hx
        exact hx.elim
    | received =>
      cases hcallback : f.callback <;> rw [hcallback] at hx <;> exact hx.elim
    | _ => trivial

theorem Gateway.Leaves.passedOn {env : Env} {g s : Gateway ρ} {e : Event} (h : Leaves env g s e)
    (hg : PassedOn g.log) : PassedOn s.log := by
  have sends : ∀ {R : InFlight → Prop} {s}, Sends R g s → PassedOn s.log := fun h =>
    (h.log.mono fun x hx => by cases x <;> trivial).passedOn hg
  cases e with
  | restConnected | restDisconnected | socketReady | socketDisconnected =>
    refine (h.makes'.mono fun x hx => ?_).passedOn hg
    cases x <;> first | trivial | simp [Makes] at hx
  | timer t =>
    have hm := sends (onTimer_sends env t g)
    rcases h with ⟨-, rfl⟩ | ⟨m, ho, rfl⟩
    · exact hm
    · rw [ho] at hm
      exact ((withoutBalance_closed m).onTimer env t (.refl m)).passedOn hm
  | text message =>
    obtain ⟨-, ⟨-, rfl⟩ | ⟨m, -, rfl⟩⟩ := h
    · exact hg
    · exact DropCopy.onMessage_passedOn env m hg
  | response i response =>
    obtain ⟨f, -, rfl⟩ := h
    have answered : PassedOn [.answered f response] := .of_withoutBalance (by simp [WithoutBalance])
    exact onResponse_passedOn env f response (answered.append hg)
  | createOrder =>
    subst h
    exact sends (placeOrder_sends ..)
  | cancelOrder =>
    subst h
    exact sends (cancelOrder_sends ..)
  | cancelAllOrders =>
    subst h
    exact sends (cancelAllOrders_sends ..)

namespace Gateway

theorem passedOn (env : Env) (g : Gateway ρ) (h : (machine ρ env).Reachable g) : PassedOn g.log := by
  refine h.invariant (I := fun g => PassedOn g.log) (fun _ => rfl) ?_
  rintro s e s' hs - hstep
  exact invariant_step (P := fun g => PassedOn g.log) (fun _ h => h) (fun _ hl => hl.passedOn hs) hstep

end Gateway

/-! ## Two balances -/

namespace Reader

/-- A response with a balance of one and a half, at sequence number 3. -/
def fundsBody : String :=
  "\x7b\"status\":\"ok\",\"data\":\x7b\"id\":71463752,\"type\":\"spot\",\"state\":\"working\"," ++
    "\"list\":[\x7b\"currency\":\"btc\",\"type\":\"trade\",\"balance\":\"1.5\"," ++
    "\"available\":\"1.5\",\"debt\":\"0\",\"seq-num\":\"3\"\x7d]\x7d\x7d"

/-- The data of a push with a balance of two and a half, at sequence number 5. -/
def fundsText : String :=
  "\x7b\"currency\":\"btc\",\"accountId\":71463752,\"balance\":\"2.5\",\"available\":\"2.5\"," ++
    "\"changeType\":\"deposit\",\"accountType\":\"trade\",\"changeTime\":1,\"seqNum\":5\x7d"

def fundsPush : Event :=
  .text [("action", .string "push"), ("ch", .string "accounts.update"), ("data", .object fundsText)]

def fundsDecode (kind : Json.Kind) (members : Json.Members) : Except Exn Json.Message :=
  if kind = .accounts ∧ members.lookup "data" = some (.object fundsText) then
    .ok (.accounts ⟨"btc", 71463752, 0x4004000000000000#64, "deposit", 1, 5⟩)
  else decode kind members

theorem fundsDecode_kind {kind : Json.Kind} {members : Json.Members} {m : Json.Message}
    (h : fundsDecode kind members = .ok m) : m.kind = kind := by
  unfold fundsDecode at h
  split at h
  · rename_i hkind
    cases h
    exact hkind.1.symm
  · exact decode_kind h

def fundsEnv : Env :=
  { env with
    parser := { parser with
      decode := fundsDecode
      decode_kind := fundsDecode_kind }
    decode := { bodies with
      balanceAck := read [(fundsBody,
        { okAck with data := ⟨71463752, [⟨"btc", "trade", 0x3ff8000000000000#64, 3⟩]⟩ })] } }

/-- From the login to the request for the balances. -/
def balances : List Event :=
  login ++ [.timer tick, .response 0 (success accountsBody), .timer tick,
    .text (subReply 200 "accounts.update"), .timer tick]

end Reader

namespace Gateway

instance (l : List Int) : Decidable (NeverBack l) :=
  inferInstanceAs (Decidable (l.Pairwise (· ≥ ·)))

end Gateway

end RoqHtx

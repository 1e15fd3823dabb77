import RoqHtx.Framework.FirstMatch
import RoqHtx.Impl.Reader
import RoqHtx.Proof.Steps

/-!
# The account of orders and balances

Order entry keeps the id of the account that the accounts response listed last,
and forgets it when the REST connection is lost (`Listing`). Nothing asks for it
again before an order or a request for the balances is sent, so these carry a
reported id in runs in which one has been listed by then (`knowsAccount`,
`accounts_known`); `account_forgotten` is a run in which an order is sent to
account zero. Which of several accounts is the right one, nothing looks at
(`selects_spot_iff`).
-/

namespace RoqHtx

open OrderEntry

variable {ρ : Type}

/-! ## What has been reported -/

/-- The ids reported by accounts responses with status ok, but for the default. -/
def reported (l : List Entry) : List Int :=
  l.flatMap fun
    | .accountsAck ack => if ack.status = .ok then (ack.data.map (·.id)).filter (· ≠ 0) else []
    | _ => []

/-- An order, or a request for balances, is for an account that has been
reported. -/
def accountKnown (before : List Entry) : Entry → Bool
  | .restRequest f =>
    (match f.request.body with
      | .placeOrder body => decide (body.accountId ∈ reported before)
      | _ => true) &&
    (f.callback != .balanceAck || decide (f.request.path ∈ (reported before).map Path.balance))
  | _ => true

def AccountsKnown (g : Gateway ρ) : Prop := Always (fun l x => accountKnown l x = true) g.log

instance (g : Gateway ρ) : Decidable (AccountsKnown g) :=
  inferInstanceAs (Decidable (Always (fun l x => accountKnown l x = true) g.log))

/-! ## What is listed -/

def isRestDisconnected : Entry → Bool
  | .restDisconnected => true
  | _ => false

/-- The last account that an accounts response lists. -/
def lastAccount : Entry → Option Int
  | .accountsAck ack => ack.data.getLast?.map (·.id)
  | _ => none

/-- The account listed last, since the REST connection was last lost. -/
def listed (l : List Entry) : Option Int := (since isRestDisconnected l).findSome? lastAccount

/-- The account of order entry is the one listed last, by a response with status
ok. -/
structure Listing (g : Gateway ρ) : Prop where
  accountId : g.orderEntry.accountId = (listed g.log).getD 0
  status : ∀ ack, .accountsAck ack ∈ g.log → ack.status = .ok

def isAccountsAck : Entry → Bool
  | .accountsAck _ => true
  | _ => false

/-- An entry that has nothing to do with the account. -/
def Unlisted (x : Entry) : Prop := isRestDisconnected x = false ∧ isAccountsAck x = false

theorem Unlisted.lastAccount {x : Entry} (h : Unlisted x) : lastAccount x = none := by
  cases x with
  | accountsAck ack => cases h.2
  | _ => rfl

theorem listed_cons {x : Entry} (hx : isRestDisconnected x = false) (l : List Entry) :
    listed (x :: l) = (lastAccount x).or (listed l) := by
  rw [listed, since_cons_neg hx, List.findSome?_cons]
  cases lastAccount x <;> rfl

theorem listed_append {l new : List Entry} (h : ∀ x ∈ new, Unlisted x) :
    listed (new ++ l) = listed l := by
  rw [listed, since_append fun x hx => (h x hx).1, List.findSome?_append,
    List.findSome?_eq_none_iff.mpr fun x hx => (h x hx).lastAccount, Option.none_or]
  rfl

theorem reported_append {l new : List Entry} {id : Int} (h : id ∈ reported l) :
    id ∈ reported (new ++ l) := by
  rw [reported, List.flatMap_append]
  exact List.mem_append_right _ h

/-- Of the ids in a list, the last one stays. -/
theorem foldl_last {α β : Type} (f : α → β) (l : List α) (b : β) :
    l.foldl (fun _ x => f x) b = (l.getLast?.map f).getD b := by
  induction l generalizing b with
  | nil => rfl
  | cons x l ih =>
    rw [List.foldl_cons, ih, List.getLast?_cons]
    cases l.getLast? <;> rfl

/-- After a response, the account is the one listed last. -/
theorem onAccountsAck_accountId (ack : Json.AccountsAck) (g : Gateway ρ) :
    (onAccountsAck ack g).orderEntry.accountId =
      (ack.data.getLast?.map (·.id)).getD g.orderEntry.accountId :=
  foldl_last _ _ _

namespace Listing

theorem of_grows {g g' : Gateway ρ} (hg : Listing g) (h : Grows Unlisted g g')
    (ha : g'.orderEntry.accountId = g.orderEntry.accountId) : Listing g' := by
  obtain ⟨new, hnew, hunlisted⟩ := h
  refine ⟨?_, fun ack hack => ?_⟩
  · rw [ha, hnew, listed_append hunlisted]
    exact hg.accountId
  · rw [hnew] at hack
    rcases List.mem_append.mp hack with h | h
    · cases (hunlisted _ h).2
    · exact hg.status ack h

/-- What is listed has been reported. -/
theorem reported {g : Gateway ρ} (hg : Listing g) (h : (listed g.log).any (· ≠ 0) = true) :
    g.orderEntry.accountId ∈ reported g.log := by
  obtain ⟨id, hid, hne⟩ : ∃ id, listed g.log = some id ∧ id ≠ 0 := by
    simpa [Option.any_eq_true] using h
  obtain ⟨x, hx, hlast⟩ := List.exists_of_findSome?_eq_some hid
  have hmem : x ∈ g.log := (List.takeWhile_sublist _).subset hx
  cases x with
  | accountsAck ack =>
    obtain ⟨item, hitem, rfl⟩ := Option.map_eq_some_iff.mp hlast
    rw [hg.accountId, hid, Option.getD_some, RoqHtx.reported, List.mem_flatMap]
    refine ⟨_, hmem, ?_⟩
    simp only [hg.status ack hmem, if_true, List.mem_filter, List.mem_map]
    exact ⟨⟨item, List.mem_of_getLast? hitem, rfl⟩, by simpa using hne⟩
  | _ => cases hlast

end Listing

/-! ## Steps -/

theorem accountKnown_of_ordered {g : Gateway ρ} {cause : Cause} {f : InFlight}
    (h : Ordered g cause f) {l : List Entry}
    (hknown : ∀ info create, cause = .createOrder info create → ready g = true →
      g.orderEntry.accountId ∈ reported l) : accountKnown l (.restRequest f) = true := by
  obtain ⟨hready, -, h⟩ := h
  cases cause with
  | timer => exact h.elim
  | createOrder info create =>
    obtain ⟨hcallback, body, hbody, hid⟩ := h
    simp [accountKnown, hcallback, hbody, hid, hknown info create rfl hready]
  | cancelOrder | cancelAllOrders =>
    obtain ⟨hcallback, hbody⟩ := h
    cases hb : f.request.body with
    | placeOrder body => exact absurd hb (hbody body)
    | _ => simp [accountKnown, hcallback, hb]

variable [LimitRequest ρ]

theorem unlisted_of_asks {R : InFlight → Prop} {x : Entry} (h : Asks R x) : Unlisted x := by
  cases x with
  | accountsAck | restDisconnected => exact h.elim
  | _ => exact ⟨rfl, rfl⟩

theorem unlisted_of_writes {F : Fatal → Prop} {B : Bool → Prop} {x : Entry}
    (h : DropCopy.Writes F B x) : Unlisted x := by
  cases x with
  | accountsAck | restDisconnected => exact h.elim
  | _ => exact ⟨rfl, rfl⟩

theorem unlisted_of_replies {c : Callback} (hc : c ≠ .accountsAck) {x : Entry} (h : Replies c x) :
    Unlisted x := by
  cases x with
  | accountsAck ack =>
    cases c with
    | accountsAck => exact absurd rfl hc
    | _ => exact h.elim
  | restDisconnected => cases c <;> exact h.elim
  | _ => exact ⟨rfl, rfl⟩

theorem OrderEntry.onResponse_listing (env : Env) (f : InFlight) (response : Response)
    {g : Gateway ρ} (hg : Listing g) : Listing (onResponse env f response g).state := by
  by_cases hc : f.callback = .accountsAck
  · unfold onResponse
    rw [hc]
    rcases downloadAck_cases env .account env.decode.accountsAck (·.toAck) onAccountsAck response g with
      h | ⟨ack, hok, h⟩ | h
    all_goals
      simp only [accountsAck]
      rw [h]
    · exact hg
    · refine ⟨?_, fun ack' hack' => ?_⟩
      · show ack.data.foldl (fun _ item => item.id) g.orderEntry.accountId =
          (listed (.commit .account :: .accountsAck ack :: g.log)).getD 0
        rw [listed_cons rfl, listed_cons rfl, foldl_last, hg.accountId]
        cases hlast : ack.data.getLast? <;> simp [lastAccount, hlast]
      · rcases List.mem_cons.mp hack' with h | h
        · cases h
        · rcases List.mem_cons.mp h with h | h
          · cases h
            exact hok
          · exact hg.status ack' h
    · exact hg.of_grows (.of_cons (x := .commit .account) rfl ⟨rfl, rfl⟩) rfl
  · have ha := onResponse_answers env f response g
    exact hg.of_grows (ha.log.mono fun _ => unlisted_of_replies hc) (ha.accountId hc)

namespace Gateway

/-- A step that sends the account's id: an order, or a request for balances. -/
def asksAccount (g : Gateway ρ) : Event → Bool
  | .createOrder _ _ _ _ _ => ready g
  | .timer t => t.restRefresh && ready g && g.wanted .balances && t.canRequest .balances
  | _ => false

/-- By the time that its id is sent, an account has been listed since the REST
connection was last lost, and the last one is not the default. -/
def knowsAccount (g : Gateway ρ) (e : Event) : Bool :=
  !asksAccount g e || (listed g.log).any (· ≠ 0)

theorem Leaves.listing {env : Env} {g s : Gateway ρ} {e : Event} (h : Leaves env g s e)
    (hg : Listing g) : Listing s := by
  have sends : ∀ {R : InFlight → Prop} {s}, Sends R g s → Listing s := fun h =>
    hg.of_grows (h.log.mono fun _ => unlisted_of_asks) h.accountId
  have keeps : ∀ {m s : Gateway ρ}, Listing m →
      DropCopy.Keeps (fun _ => True) (fun _ => True) m s → Listing s := fun hm k =>
    hm.of_grows (k.log.mono fun _ => unlisted_of_writes) (by rw [k.orderEntry])
  cases e with
  | restConnected =>
    refine hg.of_grows (h ▸ ⟨[.orderEntryStatus .ready, .restConnected], rfl, ?_⟩) (h ▸ rfl)
    simp [Unlisted, isRestDisconnected, isAccountsAck]
  | restDisconnected =>
    subst h
    refine ⟨rfl, fun ack hack => hg.status ack ?_⟩
    simpa [onDisconnected, publish, push] using hack
  | socketReady trace =>
    obtain ⟨-, rfl⟩ := h
    refine hg.of_grows ⟨[.socketText _, .dropCopyStatus .loginSent "", .socketReady], rfl, ?_⟩ rfl
    simp [Unlisted, isRestDisconnected, isAccountsAck]
  | socketDisconnected =>
    refine hg.of_grows (h ▸ ⟨[.dropCopyStatus .disconnected "", .socketDisconnected], rfl, ?_⟩)
      (h ▸ rfl)
    simp [Unlisted, isRestDisconnected, isAccountsAck]
  | timer t =>
    have hm := sends (onTimer_sends env t g)
    rcases h with ⟨-, rfl⟩ | ⟨m, ho, rfl⟩
    · exact hm
    · rw [ho] at hm
      exact keeps hm (DropCopy.onTimer_keeps' env t m)
  | text message =>
    obtain ⟨-, ⟨-, rfl⟩ | ⟨m, -, rfl⟩⟩ := h
    · exact hg
    · exact keeps hg (DropCopy.onMessage_keeps' env m g)
  | response i response =>
    obtain ⟨f, -, rfl⟩ := h
    refine onResponse_listing env f response (hg.of_grows ?_ rfl)
    exact .of_cons (x := .answered f response) rfl ⟨rfl, rfl⟩
  | createOrder =>
    subst h
    exact sends (placeOrder_sends ..)
  | cancelOrder =>
    subst h
    exact sends (cancelOrder_sends ..)
  | cancelAllOrders =>
    subst h
    exact sends (cancelAllOrders_sends ..)

theorem accountKnown_of_polled {env : Env} {t : Tick} {g : Gateway ρ} {f : InFlight}
    (h : Polled env t g f) {l : List Entry}
    (hknown : asksAccount g (.timer t) = true → g.orderEntry.accountId ∈ reported l) :
    accountKnown l (.restRequest f) = true := by
  obtain ⟨hrefresh, hready, -, w, hw, hc, hpolls⟩ := h
  cases w with
  | account | openOrders =>
    obtain ⟨hcallback, hrequest⟩ := hpolls
    simp [accountKnown, hcallback, hrequest, getRequest]
  | balances =>
    obtain ⟨hcallback, hrequest⟩ := hpolls
    have := hknown (by simp [asksAccount, hrefresh, hready, hw, hc])
    simp only [accountKnown, hcallback, hrequest, getRequest, Bool.and_eq_true, Bool.or_eq_true,
      decide_eq_true_eq]
    exact ⟨trivial, .inr (List.mem_map_of_mem this)⟩
  | staleOrders =>
    obtain ⟨⟨id, hcallback⟩, hrequest⟩ := hpolls
    simp [accountKnown, hcallback, hrequest, getRequest]

theorem Leaves.accountsKnown {env : Env} {g s : Gateway ρ} {e : Event} (h : Leaves env g s e)
    (hl : Listing g) (he : knowsAccount g e = true) (hg : AccountsKnown g) : AccountsKnown s := by
  have known : ∀ pre, asksAccount g e = true → g.orderEntry.accountId ∈ reported (pre ++ g.log) :=
    fun pre hasks => reported_append (hl.reported (by simpa [knowsAccount, hasks] using he))
  refine h.makes'.always (fun x pre hx _ => ?_) hg
  cases x with
  | restRequest f =>
    cases e with
    | timer t =>
      rcases hx with hx | hx
      · exact accountKnown_of_polled hx (known pre)
      · exact hx.elim
    | createOrder => exact accountKnown_of_ordered hx fun _ _ _ hready => known pre hready
    | cancelOrder | cancelAllOrders => exact accountKnown_of_ordered hx fun _ _ h => by cases h
    | response i response =>
      obtain ⟨f', -, hx | hx⟩ := hx
      · cases hx
      · cases hc : f'.callback <;> rw [hc] at hx <;> exact hx.elim
    | restConnected | restDisconnected | socketReady | socketDisconnected | text =>
      simp [Makes, DropCopy.Writes] at hx
  | _ => rfl

/-- In runs in which the account is known by the time that its id is sent, every
order and every request for balances is for an account that has been reported. -/
theorem accounts_known (env : Env) (g : Gateway ρ)
    (h : (machine ρ env).Reach (fun g e => knowsAccount g e = true) g) : AccountsKnown g := by
  have init : Listing (machine ρ env).init ∧ AccountsKnown (machine ρ env).init :=
    ⟨⟨rfl, fun _ h => absurd h List.not_mem_nil⟩, trivial⟩
  refine (h.invariant (I := fun g => Listing g ∧ AccountsKnown g) init ?_).2
  rintro s e s' ⟨hl, hs⟩ he hstep
  exact invariant_step (P := fun g => Listing g ∧ AccountsKnown g) (fun _ h => ⟨⟨h.1.1, h.1.2⟩, h.2⟩)
    (fun _ h => ⟨h.listing hl, h.accountsKnown hl he hs⟩) hstep

/-- An order and a request for balances, once the account has been listed. -/
theorem accounts_known_listed : ∃ g : Gateway Reader.Flags,
    g.inFlight.map (·.request.path) = [Path.placeOrder, Path.balance 71463752] ∧ AccountsKnown g := by
  obtain ⟨g, hg, hsent⟩ := Machine.exists_reach (M := Reader.flags)
    (C := fun g e => knowsAccount g e = true)
    (P := fun g => g.inFlight.map (·.request.path) = [Path.placeOrder, Path.balance 71463752])
    (Reader.login ++ [.timer Reader.tick, .response 0 (Reader.success Reader.accountsBody),
      .timer Reader.tick, .text (Reader.subReply 200 "accounts.update"), Reader.create,
      .timer Reader.tick])
    (by decide +kernel)
  exact ⟨g, hsent, accounts_known Reader.env g hg⟩

/-- The account has been listed, but the REST connection is lost and made again
before the order is created. -/
theorem account_forgotten : ∃ g : Gateway Reader.Flags,
    Reader.flags.Reachable g ∧ ¬AccountsKnown g ∧ reported g.log = [71463752] ∧
      g.inFlight.map (fun f => match f.request.body with
        | .placeOrder body => some body.accountId
        | _ => none) = [some 0] :=
  Machine.exists_reach
    (Reader.login ++ [.timer Reader.tick, .response 0 (Reader.success Reader.accountsBody),
      .restDisconnected, .restConnected, Reader.create])
    (by decide +kernel)

end Gateway

/-! ## Several accounts -/

/-- A spot account in state working. -/
def isSpot (item : Json.AccountsAckDataItem) : Bool := item.type == .spot && item.state == .working

/-- The account of order entry after an accounts response is `id`, whatever it
was before, and in whatever order the response lists its accounts. -/
def Selects (ρ : Type) (ack : Json.AccountsAck) (id : Int) : Prop :=
  ∀ data : List Json.AccountsAckDataItem, data.Perm ack.data →
    ∀ g : Gateway ρ, (onAccountsAck { ack with data } g).orderEntry.accountId = id

/-- The only working spot account is selected exactly if every account that the
response lists has its id. -/
theorem selects_spot_iff (ρ : Type) [LimitRequest ρ] (ack : Json.AccountsAck) (spot : Json.AccountsAckDataItem)
    (hspot : ack.data.filter isSpot = [spot]) :
    Selects ρ ack spot.id ↔ ∀ item ∈ ack.data, item.id = spot.id := by
  have hmem : spot ∈ ack.data := by
    have : spot ∈ ack.data.filter isSpot := by rw [hspot]; exact List.mem_singleton_self spot
    exact List.mem_of_mem_filter this
  constructor
  · intro h item hitem
    -- any account can be listed last
    obtain ⟨others, hperm⟩ := exists_perm_cons hitem
    have last : (others ++ [item]).Perm ack.data := (List.perm_append_singleton item others).trans hperm
    have hid := h _ last Gateway.init
    rw [onAccountsAck_accountId, List.getLast?_append] at hid
    simpa using hid
  · intro h data hperm g
    have hne : data ≠ [] := by
      rintro rfl
      exact absurd (hperm.mem_iff.mpr hmem) List.not_mem_nil
    rw [onAccountsAck_accountId, List.getLast?_eq_some_getLast hne]
    exact h _ (hperm.mem_iff.mp (List.getLast_mem hne))

/-- A spot account that is listed alone is selected. -/
theorem selects_spot_alone :
    Selects Reader.Flags { Reader.okAck with data := [⟨71463752, .spot, .working⟩] } 71463752 :=
  (selects_spot_iff Reader.Flags { Reader.okAck with data := [⟨71463752, .spot, .working⟩] }
    ⟨71463752, .spot, .working⟩ rfl).mpr (by simp)

/-- A margin account that is listed after the spot account is selected. -/
theorem margin_selected :
    let ack : Json.AccountsAck := { Reader.okAck with
      data := [⟨71463752, .spot, .working⟩, ⟨71463753, .margin, .working⟩] }
    let g : Gateway Reader.Flags := Gateway.init
    ack.data.filter isSpot = [⟨71463752, .spot, .working⟩] ∧
      (onAccountsAck ack g).orderEntry.accountId = 71463753 ∧ ¬Selects Reader.Flags ack 71463752 := by
  intro ack g
  refine ⟨rfl, rfl, fun h => ?_⟩
  have selected : (71463753 : Int) = 71463752 := h ack.data (.refl _) g
  cases selected

end RoqHtx

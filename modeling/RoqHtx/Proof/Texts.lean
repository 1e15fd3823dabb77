import RoqHtx.Framework.JsonText
import RoqHtx.Impl.Reader
import RoqHtx.Proof.Steps

/-!
# What the order stream says

`DropCopy` writes on its socket when it gets ready (a login), when its download
subscribes to a channel, and when the exchange pings (`Leaves.says`). Hence in
every run the pongs that were sent are the pings that were received, one for one
and in order, and every other text but a login subscribes to one of three
channels; all of them are JSON texts that say just that (`heartbeats`).
-/

namespace RoqHtx

open JsonText (Value)

variable {ρ : Type}

/-! ## Entries -/

/-- The channels that are subscribed to. -/
def DropCopy.subscriptions : List String :=
  [DropCopy.channelAccountsUpdate, DropCopy.channelOrders, DropCopy.channelTradeClearing]

/-- The timestamp of a ping, in either of its forms. -/
def Entry.ping? : Entry → Option Int
  | .received (.ping ts) | .received (.ping2 ts) => some ts
  | _ => none

def Entry.pong? : Entry → Option Int
  | .socketText (.pong ts) => some ts
  | _ => none

/-- An entry that is neither a ping nor a text, but for a subscription. -/
def Entry.Silent : Entry → Prop
  | .received (.ping _) | .received (.ping2 _) => False
  | .socketText (.sub channel) => channel ∈ DropCopy.subscriptions
  | .socketText _ => False
  | _ => True

theorem Entry.Silent.ping? {x : Entry} (h : x.Silent) : x.ping? = none := by
  cases x with
  | received m => cases m <;> first | rfl | cases h
  | _ => rfl

theorem Entry.Silent.pong? {x : Entry} (h : x.Silent) : x.pong? = none := by
  cases x with
  | socketText text => cases text <;> first | rfl | cases h
  | _ => rfl

theorem silent_of_asks {R : InFlight → Prop} {x : Entry} (h : OrderEntry.Asks R x) : x.Silent := by
  cases x <;> trivial

theorem silent_of_replies {c : Callback} {x : Entry} (h : OrderEntry.Replies c x) : x.Silent := by
  cases x <;> first | trivial | (cases c <;> cases h)

/-! ## Handlers -/

variable [LimitRequest ρ]

namespace DropCopy

theorem download_silent (stage : Stage) (g : Gateway ρ) : Grows Entry.Silent g (download stage g).2 := by
  have hsubscribe : ∀ channel ∈ subscriptions, Entry.Silent (.socketText (.sub channel)) :=
    fun _ h => h
  cases stage with
  | getAccount | getBalances | getOpenOrders =>
    exact ⟨[.request _, .dropCopyStatus .downloading _, .download _], rfl, by simp [Entry.Silent]⟩
  | subscribeBalances | subscribeOrders | subscribeTrades =>
    exact ⟨[.socketText (.sub _), .dropCopyStatus .downloading _, .download _], rfl,
      by simp [Entry.Silent, subscriptions]⟩
  | getStaleOrders =>
    simp only [download]
    split
    · exact ⟨[.download _], rfl, by simp [Entry.Silent]⟩
    · exact ⟨[.request _, .dropCopyStatus .downloading _, .download _], rfl, by simp [Entry.Silent]⟩
  | done => exact ⟨[.dropCopyStatus .ready _, .download _], rfl, by simp [Entry.Silent]⟩

theorem visit_silent (g : Gateway ρ) (l : List Stage) :
    Grows Entry.Silent g (Download.visit download l g).2 :=
  Download.visit_state (P := Grows Entry.Silent g) (fun stage s h => h.trans (download_silent stage s))
    (.refl g)

theorem checkDownload_silent (stage : Stage) (g : Gateway ρ) :
    Grows Entry.Silent g (checkDownload stage g) := by
  unfold checkDownload Download.check
  split
  · exact visit_silent g _
  · exact .refl g

theorem beginDownload_silent (g : Gateway ρ) : Grows Entry.Silent g (beginDownload g) :=
  (Grows.of_cons (x := .downloadBegin g.dropCopy.download.downloading) rfl trivial).trans
    (visit_silent (g.push (.downloadBegin _)) Stage.all)

theorem checkStaleOrders_silent (env : Env) (t : OrderEntry.Tick) (g : Gateway ρ) :
    Grows Entry.Silent g (checkStaleOrders env t g) := by
  unfold checkStaleOrders
  split
  · dsimp only
    split
    · exact .of_cons (x := .request .staleOrders) rfl trivial
    · exact .of_eq rfl
  · exact .refl g

theorem onTimer_silent (env : Env) (t : OrderEntry.Tick) (g : Gateway ρ) :
    Grows Entry.Silent g (onTimer env t g).state := by
  have queue : Grows Entry.Silent g (checkRequestQueue t g).state :=
    checkRequestQueue_rule (P := Grows Entry.Silent g) (fun stage _ => checkDownload_silent stage g)
      (fun _ => checkDownload_silent .getOpenOrders (findStaleOrders t g).2)
      (fun _ _ _ => .of_cons rfl trivial) (.refl g)
  exact onTimer_rule queue (fun s hs => hs.trans (checkStaleOrders_silent env t s)) (.refl g)

/-- A message that is no ping has no text for an answer, but it may move the
download on to a subscription. -/
theorem onMessage_silent (env : Env) {m : Json.Message} (g : Gateway ρ)
    (hping : ∀ ts, m ≠ .ping ts ∧ m ≠ .ping2 ts) :
    Grows Entry.Silent g (onMessage env m g).state := by
  have received : Grows Entry.Silent g (g.push (.received m)) := by
    refine .of_cons (x := .received m) rfl ?_
    cases m with
    | ping ts => exact absurd rfl (hping ts).1
    | ping2 ts => exact absurd rfl (hping ts).2
    | _ => trivial
  cases m with
  | ping ts => exact absurd rfl (hping ts).1
  | ping2 ts => exact absurd rfl (hping ts).2
  | req req =>
    exact onReq_rule (P := Grows Entry.Silent g) (fun _ => received.trans (beginDownload_silent _))
      (received.trans (.of_cons (x := .socketClose) rfl trivial))
      (received.trans (.of_cons (x := .fatal .logon) rfl trivial)) received
  | sub sub =>
    exact onSub_rule (P := Grows Entry.Silent g)
      (fun stage => received.trans (checkDownload_silent stage _)) received
  | accounts data => exact received.trans (.of_cons (x := .fundsUpdate (fundsUpdate data)) rfl trivial)
  | error | error2 | orders | clearing => exact received
  | subbed | bbo | trade | detail | ticker | mbp | mbpSnapshot =>
    exact received.trans (.of_cons (x := .fatal .message) rfl trivial)

end DropCopy

/-! ## Steps -/

namespace Gateway

/-- What is said on the socket: a login, the answer to a ping, or subscriptions. -/
theorem Leaves.says {env : Env} {g s : Gateway ρ} {e : Event} (h : Leaves env g s e) :
    (∃ trace, e = .socketReady trace ∧
      s.log = .socketText (.login (env.account.createWsAuth trace.originCreateTimeUtc "/ws/v2")) ::
        .dropCopyStatus .loginSent "" :: .socketReady :: g.log) ∨
    (∃ m ts, (m = .ping ts ∨ m = .ping2 ts) ∧
      s.log = .socketText (.pong ts) :: .received m :: g.log) ∨
    Grows Entry.Silent g s := by
  cases e with
  | socketReady trace =>
    obtain ⟨-, rfl⟩ := h
    exact .inl ⟨trace, rfl, rfl⟩
  | text message =>
    obtain ⟨-, ⟨-, rfl⟩ | ⟨m, -, rfl⟩⟩ := h
    · exact .inr (.inr (.refl _))
    · cases hm : m with
      | ping ts => exact .inr (.inl ⟨_, ts, .inl rfl, rfl⟩)
      | ping2 ts => exact .inr (.inl ⟨_, ts, .inr rfl, rfl⟩)
      | _ => exact .inr (.inr (DropCopy.onMessage_silent env g fun ts => ⟨nofun, nofun⟩))
  | timer t =>
    refine .inr (.inr ?_)
    have sends := (OrderEntry.onTimer_sends env t g).log.mono fun _ => silent_of_asks
    rcases h with ⟨-, rfl⟩ | ⟨m, ho, rfl⟩
    · exact sends
    · rw [ho] at sends
      exact sends.trans (DropCopy.onTimer_silent env t m)
  | response i response =>
    obtain ⟨f, -, rfl⟩ := h
    exact .inr (.inr ((Grows.of_cons (x := .answered f response) rfl trivial).trans
      ((OrderEntry.onResponse_answers env f response _).log.mono fun _ => silent_of_replies)))
  | restConnected =>
    exact h ▸ .inr (.inr ⟨[.orderEntryStatus .ready, .restConnected], rfl, by simp [Entry.Silent]⟩)
  | restDisconnected =>
    exact h ▸ .inr (.inr
      ⟨[.orderEntryStatus .disconnected, .restDisconnected], rfl, by simp [Entry.Silent]⟩)
  | socketDisconnected =>
    exact h ▸ .inr (.inr
      ⟨[.dropCopyStatus .disconnected "", .socketDisconnected], rfl, by simp [Entry.Silent]⟩)
  | createOrder =>
    exact h ▸ .inr (.inr ((OrderEntry.placeOrder_sends ..).log.mono fun _ => silent_of_asks))
  | cancelOrder =>
    exact h ▸ .inr (.inr ((OrderEntry.cancelOrder_sends ..).log.mono fun _ => silent_of_asks))
  | cancelAllOrders =>
    exact h ▸ .inr (.inr ((OrderEntry.cancelAllOrders_sends ..).log.mono fun _ => silent_of_asks))

/-! ## JSON -/

theorem plain_subscription {channel : String} (h : channel ∈ DropCopy.subscriptions) :
    JsonText.Plain channel := by
  have hplain : ∀ channel ∈ DropCopy.subscriptions, JsonText.Plain channel := by decide
  exact hplain channel h

/-- A pong, as a JSON value. -/
def pongValue (ts : Int) : Value :=
  .object [("action", .string "pong"), ("data", .object [("ts", .number (toString ts))])]

/-- A subscription, as a JSON value. -/
def subValue (channel : String) : Value :=
  .object [("action", .string "sub"), ("ch", .string channel)]

theorem parse_pong (ts : Int) : JsonText.parse (SocketText.pong ts).text = some (pongValue ts) := by
  have htext : (SocketText.pong ts).text = String.ofList (pongValue ts).text := by
    apply String.toList_injective
    show ("\x7b\"action\":\"pong\",\"data\":\x7b\"ts\":" ++ toString ts ++ "\x7d\x7d").toList = _
    simp [pongValue, Value.text, JsonText.memberText, JsonText.membersText, JsonText.quoted]
  have hplain : (pongValue ts).Plain := by
    have hname : ∀ name ∈ ["action", "pong", "data", "ts"], JsonText.Plain name := by decide
    simp only [List.forall_mem_cons, List.not_mem_nil, false_implies, implies_true, and_true] at hname
    exact ⟨⟨hname.1, hname.2.1⟩, ⟨hname.2.2.1, ⟨hname.2.2.2, JsonText.plain_int ts⟩, trivial⟩, trivial⟩
  rw [htext, JsonText.parse_text hplain]

theorem parse_sub {channel : String} (h : JsonText.Plain channel) :
    JsonText.parse (SocketText.sub channel).text = some (subValue channel) := by
  have htext : (SocketText.sub channel).text = String.ofList (subValue channel).text := by
    apply String.toList_injective
    show ("\x7b\"action\":\"sub\",\"ch\":\"" ++ channel ++ "\"\x7d").toList = _
    simp [subValue, Value.text, JsonText.memberText, JsonText.membersText, JsonText.quoted]
  have hplain : (subValue channel).Plain := by
    have hname : ∀ name ∈ ["action", "sub", "ch"], JsonText.Plain name := by decide
    simp only [List.forall_mem_cons, List.not_mem_nil, false_implies, implies_true, and_true] at hname
    exact ⟨⟨hname.1, hname.2.1⟩, ⟨hname.2.2, h⟩, trivial⟩
  rw [htext, JsonText.parse_text hplain]

/-! ## Runs -/

/-- What a text says, and where it comes from if it is a login. -/
def Says (env : Env) : SocketText → Prop
  | .login auth => ∃ time, auth = env.account.createWsAuth time "/ws/v2"
  | .pong ts => JsonText.parse (SocketText.pong ts).text = some (pongValue ts)
  | .sub channel => channel ∈ DropCopy.subscriptions ∧
    JsonText.parse (SocketText.sub channel).text = some (subValue channel)

/-- Every ping has had its pong, and every text says something. -/
structure Heartbeats (env : Env) (g : Gateway ρ) : Prop where
  pongs : g.log.filterMap Entry.pong? = g.log.filterMap Entry.ping?
  texts : ∀ text, .socketText text ∈ g.log → Says env text

omit [LimitRequest ρ] in
theorem Heartbeats.grows {env : Env} {g g' : Gateway ρ} (h : Grows Entry.Silent g g')
    (hg : Heartbeats env g) : Heartbeats env g' := by
  obtain ⟨new, hlog, hsilent⟩ := h
  constructor
  · rw [hlog, List.filterMap_append, List.filterMap_append, hg.pongs,
      List.filterMap_eq_nil_iff.mpr fun x hx => (hsilent x hx).pong?,
      List.filterMap_eq_nil_iff.mpr fun x hx => (hsilent x hx).ping?]
  · intro text htext
    rw [hlog] at htext
    rcases List.mem_append.mp htext with hnew | hold
    · have hs := hsilent _ hnew
      cases text with
      | sub channel => exact ⟨hs, parse_sub (plain_subscription hs)⟩
      | _ => exact hs.elim
    · exact hg.texts text hold

theorem Heartbeats.leaves {env : Env} {g s : Gateway ρ} {e : Event} (hl : Leaves env g s e)
    (hg : Heartbeats env g) : Heartbeats env s := by
  rcases hl.says with ⟨trace, -, hlog⟩ | ⟨m, ts, hm, hlog⟩ | hgrows
  · constructor
    · rw [hlog]
      exact hg.pongs
    · intro text htext
      rw [hlog] at htext
      simp only [List.mem_cons, Entry.socketText.injEq, reduceCtorEq, false_or] at htext
      rcases htext with rfl | hold
      · exact ⟨_, rfl⟩
      · exact hg.texts text hold
  · constructor
    · rw [hlog]
      have hping : Entry.ping? (.received m) = some ts := by rcases hm with rfl | rfl <;> rfl
      have hpong : Entry.pong? (.received m) = none := rfl
      have htext : Entry.pong? (.socketText (.pong ts)) = some ts := rfl
      have hother : Entry.ping? (.socketText (.pong ts)) = none := rfl
      rw [List.filterMap_cons_some htext, List.filterMap_cons_none hpong,
        List.filterMap_cons_none hother, List.filterMap_cons_some hping, hg.pongs]
    · intro text htext
      rw [hlog] at htext
      simp only [List.mem_cons, Entry.socketText.injEq, reduceCtorEq, false_or] at htext
      rcases htext with rfl | hold
      · exact parse_pong ts
      · exact hg.texts text hold
  · exact hg.grows hgrows

/-- In every run, pings are answered one for one and in order, and the texts on
the socket are logins, pongs and subscriptions that can be read back. -/
theorem heartbeats {env : Env} {g : Gateway ρ} (h : (machine ρ env).Reachable g) : Heartbeats env g := by
  refine h.invariant (I := Heartbeats env) ⟨rfl, fun _ hx => absurd hx List.not_mem_nil⟩
    fun g e g' hg _ hstep => ?_
  exact invariant_step (P := Heartbeats env) (fun _ h => ⟨h.pongs, h.texts⟩)
    (fun s hl => hg.leaves hl) hstep

/-- A ping during the download. -/
theorem heartbeats_download : ∃ g : Gateway Reader.Flags,
    g.log.filterMap Entry.ping? = [1492420473027] ∧ .socketText (.sub "orders#*") ∈ g.log ∧
      Heartbeats Reader.env g := by
  obtain ⟨g, hreach, hping, hsub⟩ := Machine.exists_reach (M := Reader.flags) (C := fun _ _ => True)
    (P := fun g => g.log.filterMap Entry.ping? = [1492420473027] ∧
      (g.log.any fun x => match x with
        | .socketText text => text = .sub "orders#*"
        | _ => false) = true)
    (Reader.login ++ [.text [("ping", .int 1492420473027)]] ++ Reader.download) (by decide +kernel)
  refine ⟨g, hping, ?_, heartbeats hreach⟩
  obtain ⟨x, hx, hsub⟩ := List.any_eq_true.mp hsub
  cases x with
  | socketText text => exact of_decide_eq_true hsub ▸ hx
  | _ => cases hsub

end Gateway

end RoqHtx

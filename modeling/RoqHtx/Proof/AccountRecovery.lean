import RoqHtx.Framework.Simulation
import RoqHtx.Proof.Accounts
import RoqHtx.Proof.Dispatch
import RoqHtx.Proof.Ready
import RoqHtx.Proof.Recovery

/-!
# An account can always get ready

Whatever has been lost or refused, a new login gets both connections of an
account ready if the exchange answers what it is asked then (`Gateway.account_recovers`).
A stage that asks order entry for something takes a timer that sends the request,
its answer, and a timer that finds the answer; a stage that subscribes takes the
reply. Stale orders that the dispatcher no longer finds are asked for at no one:
such a pass stays in its stage, and it takes another login to complete one.
-/

namespace RoqHtx

namespace DropCopy

open OrderEntry (Tick)

variable {ρ : Type} [LimitRequest ρ]

/-- What the exchange may answer. The bodies of the answers to the other two
requests make no difference. -/
structure Exchange (env : Env) where
  auth : Json.Members
  sub : String → Json.Members
  body : Which → String
  accountId : Int
  auth_ok : env.parser.delivered auth = some (.req ⟨200, "auth"⟩)
  sub_ok : ∀ channel, env.parser.delivered (sub channel) = some (.sub ⟨200, channel⟩)
  /-- The cases of a `switch`. -/
  distinct : [env.parser.fnv channelAccountsUpdate, env.parser.fnv channelOrders,
    env.parser.fnv channelTradeClearing].Nodup
  accounts_ok : ∃ ack, env.decode.accountsAck (body .account) = .ok ack ∧ ack.status = .ok ∧
    ack.data.getLast?.map (·.id) = some accountId

/-- A timer that finds no stale order, and at which no more than one request may
be sent. -/
def tick (permits : Option Which) : Tick where
  trace := ⟨0, 0⟩
  restRefresh := true
  socketRefresh := true
  canRequest w := permits == some w
  refuses _ := none
  findOrder _ := none
  staleOrders := []

/-! ## Stages -/

/-- Connected, with these stale orders. -/
structure Running (details : List Key) (g : Gateway ρ) : Prop where
  running : g.halted = false
  up : g.socketUp = true
  ready : OrderEntry.ready g = true
  details : g.request.detailsStaleOrders = details

/-- Both connections are ready, and the account is known. -/
structure IsReady (accountId : Int) (g : Gateway ρ) : Prop where
  running : g.halted = false
  up : g.socketUp = true
  orderEntry : OrderEntry.ready g = true
  dropCopy : ready g = true
  accountId : g.orderEntry.accountId = accountId

/-- A stage is in progress. -/
structure InStage (details : List Key) (accountId : Int) (stage : Stage) (g : Gateway ρ) : Prop
    extends Running details g where
  status : g.dropCopy.connectionStatus = .downloading
  state : g.dropCopy.download.state = some stage
  accountId : stage ≠ .getAccount → g.orderEntry.accountId = accountId

/-- A stage has asked for what it needs. -/
structure Awaits (details : List Key) (accountId : Int) (stage : Stage) (g : Gateway ρ) : Prop
    extends InStage details accountId stage g where
  asked : ∀ w, requested stage = some w → g.wanted w = true ∧ g.hasResponse w = false

/-- The last stage waits for nothing. -/
def Arrives (details : List Key) (accountId : Int) (stage : Stage) (g : Gateway ρ) : Prop :=
  if stage = .done then IsReady accountId g else Awaits details accountId stage g

variable {env : Env} {g : Gateway ρ} {details : List Key} {accountId : Int} {stage : Stage}

/-- What the order stream's own work leaves alone. -/
structure Untouched (g g' : Gateway ρ) : Prop where
  halted : g'.halted = g.halted
  up : g'.socketUp = g.socketUp
  orderEntry : g'.orderEntry = g.orderEntry
  details : g'.request.detailsStaleOrders = g.request.detailsStaleOrders

omit [LimitRequest ρ] in
theorem Running.of_untouched {g' : Gateway ρ} (h : Running details g) (hg : Untouched g g') :
    Running details g' where
  running := hg.halted.trans h.running
  up := hg.up.trans h.up
  ready := by
    rw [OrderEntry.ready, hg.orderEntry]
    exact h.ready
  details := hg.details.trans h.details

/-- A stage that waits. -/
def Pauses (details : List Key) (stage : Stage) : Prop :=
  stage ≠ .done ∧ (stage = .getStaleOrders → details ≠ [])

theorem download_pauses (h : Pauses g.request.detailsStaleOrders stage) :
    (download stage g).1 ≠ 0 ∧ Untouched g (download stage g).2 ∧
      (download stage g).2.dropCopy.connectionStatus = .downloading := by
  cases stage with
  | getAccount | getBalances | getOpenOrders =>
    exact ⟨Int.one_ne_zero, ⟨rfl, rfl, rfl, Request.modify_detailsStaleOrders _ _ _⟩, rfl⟩
  | subscribeBalances | subscribeOrders | subscribeTrades =>
    exact ⟨Int.one_ne_zero, ⟨rfl, rfl, rfl, rfl⟩, rfl⟩
  | getStaleOrders =>
    simp only [download]
    rw [if_neg (show (g.push _).request.detailsStaleOrders ≠ [] from h.2 rfl)]
    exact ⟨Int.one_ne_zero, ⟨rfl, rfl, rfl, Request.modify_detailsStaleOrders _ _ _⟩, rfl⟩
  | done => exact absurd rfl h.1

/-- A stage that is entered. -/
theorem visit_arrives (h : Running details g) (stage : Stage) (rest : List Stage)
    (hdone : stage = .done → rest = []) (hstale : stage = .getStaleOrders → details ≠ [])
    (haccount : stage ≠ .getAccount → g.orderEntry.accountId = accountId)
    {d : Download Stage.all} (hd : d.remaining = (Download.visit download (stage :: rest) g).1) :
    Arrives details accountId stage
      (setDownload (d, (Download.visit download (stage :: rest) g).2)) := by
  by_cases hstage : stage = .done
  · subst hstage
    obtain rfl := hdone rfl
    exact (if_pos rfl).symm.mp ⟨h.running, h.up, h.ready, rfl, haccount nofun⟩
  · have hpauses : Pauses g.request.detailsStaleOrders stage :=
      ⟨hstage, fun hs => h.details ▸ hstale hs⟩
    obtain ⟨hwait, untouched, hstatus⟩ := download_pauses hpauses
    rw [Download.visit_of_wait hwait] at hd ⊢
    refine (if_neg hstage).symm.mp ⟨⟨?_, hstatus, ?_, fun hs => ?_⟩, fun w hw => ?_⟩
    · exact h.of_untouched ⟨untouched.halted, untouched.up, untouched.orderEntry, untouched.details⟩
    · exact (congrArg List.head? hd).trans rfl
    · exact (congrArg (·.accountId) untouched.orderEntry).trans (haccount hs)
    · exact download_waits hwait hw

/-- What a stage that is done with goes on with. -/
theorem checkDownload_eq (rest : List Stage) (hstate : g.dropCopy.download.state = some stage)
    (hrest : Stage.all.dropWhile (fun t => t != stage) = stage :: rest) :
    rest <:+ Stage.all ∧ ∃ d : Download Stage.all,
      d.remaining = (Download.visit download rest g).1 ∧
      checkDownload stage g = setDownload (d, (Download.visit download rest g).2) := by
  have hremaining : g.dropCopy.download.remaining = stage :: rest :=
    (Download.remaining_of_state (by decide) hstate).trans hrest
  have hsuffix : rest <:+ Stage.all :=
    (List.suffix_cons stage rest).trans (hremaining ▸ g.dropCopy.download.suffix)
  refine ⟨hsuffix, ⟨_, (Download.visit_suffix download rest g).trans hsuffix⟩, rfl, ?_⟩
  rw [checkDownload, Download.check, if_pos hstate]
  simp only [hremaining, List.tail_cons]

/-- The stage after one that is done with. -/
theorem checkDownload_arrives {next : Stage} {rest : List Stage} (h : Running details g)
    (hstate : g.dropCopy.download.state = some stage)
    (hrest : Stage.all.dropWhile (fun t => t != stage) = stage :: next :: rest)
    (hstale : next = .getStaleOrders → details ≠ [])
    (haccount : g.orderEntry.accountId = accountId) :
    Arrives details accountId next (checkDownload stage g) := by
  obtain ⟨hsuffix, d, hd, heq⟩ := checkDownload_eq _ hstate hrest
  rw [heq]
  refine visit_arrives h next rest ?_ hstale (fun _ => haccount) hd
  rintro rfl
  exact Download.rest_of_last (by decide) rfl hsuffix

/-- No stale orders: that stage is passed over. -/
theorem checkDownload_arrives_subscribeTrades (h : Running [] g)
    (hstate : g.dropCopy.download.state = some .getOpenOrders)
    (haccount : g.orderEntry.accountId = accountId) :
    Arrives [] accountId .subscribeTrades (checkDownload .getOpenOrders g) := by
  obtain ⟨-, d, hd, heq⟩ :=
    checkDownload_eq [.getStaleOrders, .subscribeTrades, .done] hstate rfl
  have hmove : download .getStaleOrders g = (0, g.push (.download .getStaleOrders)) :=
    if_pos h.details
  have hvisit : Download.visit download [.getStaleOrders, .subscribeTrades, .done] g =
      Download.visit download [.subscribeTrades, .done] (g.push (.download .getStaleOrders)) := by
    rw [Download.visit_of_move (congrArg Prod.fst hmove), hmove]
  rw [hvisit] at hd heq
  rw [heq]
  exact visit_arrives (g := g.push (.download .getStaleOrders))
    (h.of_untouched ⟨rfl, rfl, rfl, rfl⟩) .subscribeTrades [.done]
    (fun hs => absurd hs (by decide)) (fun hs => absurd hs (by decide)) (fun _ => haccount) hd

/-- A login that is accepted. -/
theorem beginDownload_arrives (h : Running details g) :
    Arrives details accountId .getAccount (beginDownload g) :=
  visit_arrives (g := g.push (.downloadBegin g.dropCopy.download.downloading))
    (h.of_untouched ⟨rfl, rfl, rfl, rfl⟩) .getAccount _ (fun hs => absurd hs (by decide))
    (fun hs => absurd hs (by decide)) (fun hs => absurd rfl hs) rfl

/-! ## Requests -/

theorem checkPending_of_not {canRequest : Which → Bool} {w : Which}
    (h : canRequest w = false) (callback : Gateway ρ → Outcome Exn (Gateway ρ)) (g : Gateway ρ) :
    g.checkPending canRequest w callback = .ok g := by
  rw [Gateway.checkPending, h, Bool.and_false, if_neg Bool.false_ne_true]

theorem checkPending_of_wanted {canRequest : Which → Bool} {w : Which} (h : canRequest w = true)
    (hwanted : g.wanted w = true) (callback : Gateway ρ → Outcome Exn (Gateway ρ)) :
    g.checkPending canRequest w callback = callback (g.takeUp w) := by
  rw [Gateway.checkPending, h, hwanted, Bool.and_true, if_pos rfl]

/-- What a timer does with a request that is wanted. -/
def poll (env : Env) (t : Tick) : Which → Gateway ρ → Outcome Exn (Gateway ρ)
  | .account => OrderEntry.accounts env t
  | .balances => OrderEntry.balance env t
  | .openOrders => OrderEntry.openOrders env t
  | .staleOrders => OrderEntry.staleOrders env t

/-- A timer at which nothing may be sent. -/
theorem onTimer_tick_none (h : OrderEntry.ready g = true) :
    OrderEntry.onTimer env (tick none) g = .ok g := by
  have hno : ∀ w, (tick none).canRequest w = false := fun w => by cases w <;> rfl
  simp only [OrderEntry.onTimer, OrderEntry.checkRequestQueue, h, checkPending_of_not (hno _),
    Outcome.ok_bind]
  rfl

/-- A timer at which one request may be sent, and is wanted. -/
theorem onTimer_tick_some {w : Which} (h : OrderEntry.ready g = true) (hwanted : g.wanted w = true) :
    OrderEntry.onTimer env (tick (some w)) g = poll env (tick (some w)) w (g.takeUp w) := by
  have hyes : (tick (some w)).canRequest w = true := beq_self_eq_true (some w)
  have hno : ∀ v, w ≠ v → (tick (some w)).canRequest v = false := fun v hv =>
    beq_eq_false_iff_ne.mpr fun hs => hv (Option.some.inj hs)
  have htimer : OrderEntry.onTimer env (tick (some w)) g =
      OrderEntry.checkRequestQueue env (tick (some w)) g := by
    rw [OrderEntry.onTimer, h]
    rfl
  rw [htimer, OrderEntry.checkRequestQueue]
  cases w <;> simp (disch := decide) only [checkPending_of_wanted hyes hwanted,
    checkPending_of_not (hno _ _), Outcome.ok_bind, Outcome.bind_ok, poll]

/-- A request that is in flight, the last of them. -/
structure Sent (details : List Key) (accountId : Int) (stage : Stage) (w : Which) (g : Gateway ρ) :
    Prop extends InStage details accountId stage g where
  unanswered : g.hasResponse w = false
  sent : ∃ l f, g.inFlight = l ++ [f] ∧ f.callback.which = some w

variable (env) in
omit [LimitRequest ρ] in
theorem poll_sends {w : Which} (hstale : w ≠ .staleOrders) (permits : Option Which) (g : Gateway ρ) :
    ∃ f : InFlight, f.callback.which = some w ∧ poll env (tick permits) w g = .ok { g with
      inFlight := g.inFlight ++ [f]
      nextId := g.nextId + 1
      log := .restRequest f :: g.log } := by
  cases w with
  | account | balances | openOrders => exact ⟨⟨_, _, _, _, _, _⟩, rfl, rfl⟩
  | staleOrders => exact absurd rfl hstale

variable (env) in
/-- The one request that may be sent. -/
theorem onTimer_sends {w : Which} (h : Awaits details accountId stage g)
    (hw : requested stage = some w) (hstale : w ≠ .staleOrders) :
    ∃ g', OrderEntry.onTimer env (tick (some w)) g = .ok g' ∧
      Sent details accountId stage w g' := by
  obtain ⟨f, hf, hpoll⟩ := poll_sends env hstale (some w) (g.takeUp w)
  refine ⟨_, (onTimer_tick_some h.ready (h.asked w hw).1).trans hpoll,
    ⟨⟨⟨h.running, h.up, h.ready, ?_⟩, h.status, h.state, h.accountId⟩, ?_, g.inFlight, f, rfl, hf⟩⟩
  · exact (Request.modify_detailsStaleOrders _ _ _).trans h.details
  · have htake : (g.takeUp w).hasResponse w = g.hasResponse w := by
      simp [Gateway.hasResponse, Gateway.takeUp]
    exact htake.trans (h.asked w hw).2

/-- A stage whose request has a response. -/
structure Found (details : List Key) (accountId : Int) (stage : Stage) (w : Which)
    (g : Gateway ρ) : Prop extends Running details g where
  status : g.dropCopy.connectionStatus = .downloading
  state : g.dropCopy.download.state = some stage
  accountId : g.orderEntry.accountId = accountId
  answered : g.hasResponse w = true

theorem hasResponse_commit (w : Which) (g : Gateway ρ) : (g.commit w).hasResponse w = true := by
  simp [Gateway.hasResponse, Gateway.commit]

/-- A response to a request of the download is committed, whatever its body. -/
theorem downloadAck_success (env : Env) {α : Type} (w : Which) (decode : String → Except Exn α)
    (toAck : α → Json.Ack) (onAck : α → Gateway ρ → Gateway ρ) (body : String) (g : Gateway ρ)
    (hhalted : ∀ ack, (onAck ack g).halted = g.halted) :
    ∃ s, OrderEntry.downloadAck env w decode toAck onAck (.success body) g = .ok (s.commit w) ∧
      s.halted = g.halted ∧
      ∀ ack, decode body = .ok ack → (toAck ack).status = .ok → s = onAck ack g := by
  rw [OrderEntry.downloadAck_eq]
  cases h : decode body with
  | error e =>
    refine ⟨g, ?_, rfl, nofun⟩
    simp [Response.verdict, Response.success, h, Verdict.run, OrderEntry.logError]
  | ok ack =>
    refine ⟨if (toAck ack).status = .ok then onAck ack g else g, ?_, ?_, ?_⟩
    · simp [Response.verdict, Response.success, h, Verdict.run]
    · split
      · exact hhalted ack
      · rfl
    · rintro _ ⟨⟩ hok
      exact if_pos hok

omit [LimitRequest ρ] in
theorem onBalanceAck_halted (ack : Json.BalanceAck) (g : Gateway ρ) :
    (OrderEntry.onBalanceAck ack g).halted = g.halted :=
  List.foldlRecOn (motive := fun s : Gateway ρ => s.halted = g.halted) ack.data.list _ rfl
    fun _ hs _ _ => hs

/-- The answer to the request of a stage. -/
theorem onResponse_success (exchange : Exchange env) {w : Which} (hstale : w ≠ .staleOrders)
    {f : InFlight} (hf : f.callback.which = some w) (g : Gateway ρ) :
    ∃ g', OrderEntry.onResponse env f (.success (exchange.body w)) g = .ok g' ∧
      g'.halted = g.halted ∧ g'.hasResponse w = true ∧
      (w = .account → g'.orderEntry.accountId = exchange.accountId) := by
  unfold OrderEntry.onResponse
  generalize f.callback = c at hf ⊢
  cases c with
  | placeOrderAck | cancelOrderAck | cancelAllOrdersAck => cases hf
  | getOrderAck =>
    cases hf
    exact absurd rfl hstale
  | accountsAck =>
    cases hf
    obtain ⟨ack, hdecode, hok, hlast⟩ := exchange.accounts_ok
    obtain ⟨s, hs, hhalted, haccount⟩ := downloadAck_success env .account
      env.decode.accountsAck (·.toAck) OrderEntry.onAccountsAck
      (exchange.body .account) g fun _ => rfl
    refine ⟨_, hs, hhalted, hasResponse_commit .account s, fun _ => ?_⟩
    show s.orderEntry.accountId = _
    rw [haccount ack hdecode hok]
    exact (foldl_last _ _ _).trans (by rw [hlast]; rfl)
  | balanceAck =>
    cases hf
    obtain ⟨s, hs, hhalted, -⟩ := downloadAck_success env .balances
      env.decode.balanceAck (·.toAck) OrderEntry.onBalanceAck (exchange.body .balances) g
      fun ack => onBalanceAck_halted ack g
    exact ⟨_, hs, hhalted, hasResponse_commit .balances s, nofun⟩
  | openOrdersAck =>
    cases hf
    obtain ⟨s, hs, hhalted, -⟩ := downloadAck_success env .openOrders
      env.decode.openOrdersAck (·.toAck) OrderEntry.onOpenOrdersAck
      (exchange.body .openOrders) g fun _ => rfl
    exact ⟨_, hs, hhalted, hasResponse_commit .openOrders s, nofun⟩

/-! ## The order stream's part of a timer -/

omit [LimitRequest ρ] in
theorem ready_of_downloading (h : g.dropCopy.connectionStatus = .downloading) : ready g = false := by
  rw [ready, h]
  rfl

theorem onTimer_of_queue {t : Tick} {g' : Gateway ρ} (hrefresh : t.socketRefresh = true)
    (hqueue : checkRequestQueue t g = .ok g')
    (hstatus : g'.dropCopy.connectionStatus = .downloading) : onTimer env t g = .ok g' := by
  rw [onTimer, if_pos hrefresh, hqueue, Outcome.ok_bind, ready_of_downloading hstatus]
  rfl

/-- A timer that finds no response. -/
theorem onTimer_waits (h : InStage details accountId stage g) {w : Which}
    (hw : requested stage = some w) (hanswer : g.hasResponse w = false) (permits : Option Which) :
    onTimer env (tick permits) g = .ok g := by
  refine onTimer_of_queue rfl ?_ h.status
  unfold checkRequestQueue
  rw [h.state]
  cases stage <;> cases hw <;> simp [hanswer]

/-- A timer that finds one moves on to the next stage. -/
theorem onTimer_finds {w : Which} (h : Found details accountId stage w g)
    (hw : requested stage = some w) (hstale : w ≠ .staleOrders)
    (hnext : (checkDownload stage g).dropCopy.connectionStatus = .downloading) :
    onTimer env (tick none) g = .ok (checkDownload stage g) := by
  refine onTimer_of_queue rfl ?_ hnext
  unfold checkRequestQueue
  rw [h.state]
  cases stage with
  | getAccount | getBalances | getOpenOrders =>
    cases hw
    exact if_pos h.answered
  | getStaleOrders =>
    cases hw
    exact absurd rfl hstale
  | subscribeBalances | subscribeOrders | subscribeTrades | done => cases hw

/-! ## Messages -/

/-- A message that is delivered. -/
theorem parse_delivered {members : Json.Members} {m : Json.Message} {g' : Gateway ρ}
    (h : env.parser.delivered members = some m) (hm : onMessage env m g = .ok g') :
    parse env members g = .ok g' := by
  obtain ⟨hdecided, hdecode⟩ := Parser.kind_of_delivered h
  unfold parse
  rw [Parser.dispatch_eq, hdecided, Parser.follow, Parser.dispatchHelper, hdecode]
  simp only [hm, Outcome.map, Outcome.ok_bind, Bool.true_or, if_true]

/-- The reply to the subscription of a stage. -/
theorem onSub_channel (exchange : Exchange env) {c : String} (hc : channel stage = some c)
    (code : Int) (g : Gateway ρ) : onSub env ⟨code, c⟩ g = checkDownload stage g := by
  have distinct := exchange.distinct
  simp only [List.nodup_cons, List.mem_cons, List.not_mem_nil, or_false, not_or] at distinct
  obtain ⟨⟨hbo, hbt⟩, hot, -⟩ := distinct
  unfold onSub
  cases stage <;> cases hc
  · exact if_pos rfl
  · simp only [Ne.symm hbo, if_false, if_true]
  · simp only [Ne.symm hbt, Ne.symm hot, if_false, if_true]

end DropCopy

namespace Gateway

open DropCopy (Exchange Running InStage Awaits Arrives Found Sent IsReady tick requested channel)

variable {ρ : Type} [LimitRequest ρ] {env : Env} {g : Gateway ρ} {details : List Key}
  {accountId : Int} {stage : Stage}

theorem step_ok (hrunning : g.halted = false) {e : Event} {g' : Gateway ρ}
    (h : handle env g e = some (.ok g')) : (machine ρ env).step g e = some g' := by
  show Gateway.step env g e = _
  rw [Gateway.step, hrunning, h]
  rfl

/-- Connections come and go, timers permit one request at most, and the exchange
answers. -/
def Cooperates (exchange : Exchange env) : Event → Prop
  | .restConnected | .socketDisconnected | .socketReady _ => True
  | .timer t => ∃ permits, t = tick permits
  | .text members => members = exchange.auth ∨ ∃ c, members = exchange.sub c
  | .response _ response => ∃ w, response = .success (exchange.body w)
  | _ => False

variable (exchange : Exchange env)

/-! ## One stage -/

/-- The request of a stage is sent. -/
theorem sends_leads {w : Which} (h : Awaits details accountId stage g)
    (hw : requested stage = some w) (hstale : w ≠ .staleOrders) :
    ∃ g', (machine ρ env).Leads (Cooperates exchange) 1 g g' ∧
      Sent details accountId stage w g' := by
  obtain ⟨g', hsends, hsent⟩ := DropCopy.onTimer_sends env h hw hstale
  have hstep : (machine ρ env).step g (.timer (tick (some w))) = some g' := by
    refine step_ok h.running ?_
    show some ((OrderEntry.onTimer env (tick (some w)) g).bind _) = _
    rw [hsends]
    exact congrArg some (DropCopy.onTimer_waits hsent.toInStage hw hsent.unanswered _)
  have hevent : Cooperates exchange (.timer (tick (some w))) := ⟨some w, rfl⟩
  exact ⟨g', .step hevent hstep, hsent⟩

/-- Its answer arrives. -/
theorem answer_leads {w : Which} (h : Sent details exchange.accountId stage w g)
    (hw : requested stage = some w) (hstale : w ≠ .staleOrders) :
    ∃ g', (machine ρ env).Leads (Cooperates exchange) 1 g g' ∧
      Found details exchange.accountId stage w g' := by
  obtain ⟨l, f, hflight, hf⟩ := h.sent
  obtain ⟨g', hg', hhalted, hanswered, haccount⟩ := DropCopy.onResponse_success exchange hstale hf
    (g.answer l.length f (.success (exchange.body w)))
  have answers := OrderEntry.onResponse_answers env f (.success (exchange.body w))
    (g.answer l.length f (.success (exchange.body w)))
  rw [hg', Outcome.state_ok] at answers
  have hstep : (machine ρ env).step g (.response l.length (.success (exchange.body w))) = some g' := by
    refine step_ok h.running ?_
    show g.inFlight[l.length]?.map _ = _
    rw [hflight, List.getElem?_append_right (Nat.le_refl _), Nat.sub_self]
    exact congrArg some hg'
  have hevent : Cooperates exchange (.response l.length (.success (exchange.body w))) := ⟨w, rfl⟩
  have haccountId : g'.orderEntry.accountId = exchange.accountId := by
    by_cases hs : w = .account
    · exact haccount hs
    · have hcallback : f.callback ≠ .accountsAck := fun hc => by
        rw [hc] at hf
        exact hs (Option.some.inj hf).symm
      have hstage : stage ≠ .getAccount := by
        rintro rfl
        exact hs (Option.some.inj hw).symm
      exact (answers.accountId hcallback).trans (h.accountId hstage)
  refine ⟨g', .step hevent hstep, ⟨⟨hhalted.trans h.running, answers.socketUp.trans h.up, ?_,
    answers.details.trans h.details⟩, ?_, ?_, haccountId, hanswered⟩⟩
  · rw [OrderEntry.ready, answers.connectionStatus]
    exact h.ready
  · rw [answers.dropCopy]
    exact h.status
  · rw [answers.dropCopy]
    exact h.state

/-- The answer is found. -/
theorem timer_leads {next : Stage} {w : Which} (h : Found details accountId stage w g)
    (hw : requested stage = some w) (hstale : w ≠ .staleOrders) (hnext : next ≠ .done)
    (harrives : Arrives details accountId next (DropCopy.checkDownload stage g)) :
    ∃ g', (machine ρ env).Leads (Cooperates exchange) 1 g g' ∧
      Awaits details accountId next g' := by
  have hawaits : Awaits details accountId next (DropCopy.checkDownload stage g) :=
    (if_neg hnext).mp harrives
  have hstep : (machine ρ env).step g (.timer (tick none)) =
      some (DropCopy.checkDownload stage g) := by
    refine step_ok h.running ?_
    show some ((OrderEntry.onTimer env (tick none) g).bind _) = _
    rw [DropCopy.onTimer_tick_none h.ready]
    exact congrArg some (DropCopy.onTimer_finds h hw hstale hawaits.status)
  have hevent : Cooperates exchange (.timer (tick none)) := ⟨none, rfl⟩
  exact ⟨_, .step hevent hstep, hawaits⟩

/-- A stage that asks order entry for something. -/
theorem request_leads (next : Stage) {w : Which} (h : Awaits details exchange.accountId stage g)
    (hw : requested stage = some w) (hstale : w ≠ .staleOrders) (hnext : next ≠ .done)
    (harrives : ∀ g : Gateway ρ, Found details exchange.accountId stage w g →
      Arrives details exchange.accountId next (DropCopy.checkDownload stage g)) :
    ∃ g', (machine ρ env).Leads (Cooperates exchange) 3 g g' ∧
      Awaits details exchange.accountId next g' := by
  obtain ⟨g₁, hleads₁, hsent⟩ := sends_leads exchange h hw hstale
  obtain ⟨g₂, hleads₂, hanswered⟩ := answer_leads exchange hsent hw hstale
  obtain ⟨g₃, hleads₃, hawaits⟩ :=
    timer_leads exchange hanswered hw hstale hnext (harrives g₂ hanswered)
  exact ⟨g₃, (hleads₁.trans hleads₂).trans hleads₃, hawaits⟩

/-- A stage that subscribes. -/
theorem sub_leads (next : Stage) {c : String} (h : Awaits details accountId stage g)
    (hc : channel stage = some c)
    (harrives : ∀ g : Gateway ρ, InStage details accountId stage g →
      Arrives details accountId next (DropCopy.checkDownload stage g)) :
    ∃ g', (machine ρ env).Leads (Cooperates exchange) 1 g g' ∧ Arrives details accountId next g' := by
  have hparse : DropCopy.parse env (exchange.sub c) g =
      .ok (DropCopy.checkDownload stage (g.push (.received (.sub ⟨200, c⟩)))) := by
    refine DropCopy.parse_delivered (exchange.sub_ok c) ?_
    exact congrArg Outcome.ok (DropCopy.onSub_channel exchange hc 200 _)
  have hstep : (machine ρ env).step g (.text (exchange.sub c)) =
      some (DropCopy.checkDownload stage (g.push (.received (.sub ⟨200, c⟩)))) := by
    refine step_ok h.running ?_
    rw [handle, if_pos h.up, hparse]
  have hevent : Cooperates exchange (.text (exchange.sub c)) := .inr ⟨c, rfl⟩
  exact ⟨_, .step hevent hstep, harrives _
    ⟨⟨h.running, h.up, h.ready, h.details⟩, h.status, h.state, h.accountId⟩⟩

/-! ## Passes through the stages -/

/-- A new login. -/
theorem login_leads (accountId : Int) (hrunning : g.halted = false)
    (hready : OrderEntry.ready g = true) :
    ∃ g', (machine ρ env).Leads (Cooperates exchange) 3 g g' ∧
      Awaits g.request.detailsStaleOrders accountId .getAccount g' := by
  let disconnected := DropCopy.onDisconnected { g with socketUp := false }
  let connected := DropCopy.onReady env ⟨0, 0⟩ { disconnected with socketUp := true }
  let accepted := DropCopy.beginDownload (connected.push (.received (.req ⟨200, "auth"⟩)))
  have hparse : DropCopy.parse env exchange.auth connected = .ok accepted :=
    DropCopy.parse_delivered exchange.auth_ok rfl
  have h₁ : (machine ρ env).step g .socketDisconnected = some disconnected := step_ok hrunning rfl
  have h₂ : (machine ρ env).step disconnected (.socketReady ⟨0, 0⟩) = some connected :=
    step_ok (g := disconnected) hrunning rfl
  have h₃ : (machine ρ env).step connected (.text exchange.auth) = some accepted :=
    step_ok (g := connected) hrunning (congrArg some hparse)
  have hawaits : Arrives g.request.detailsStaleOrders accountId .getAccount accepted :=
    DropCopy.beginDownload_arrives ⟨hrunning, rfl, hready, rfl⟩
  have hevent : Cooperates exchange (.text exchange.auth) := .inl rfl
  exact ⟨accepted, .cons (e := .socketDisconnected) trivial h₁
    (.cons (e := .socketReady ⟨0, 0⟩) trivial h₂ (.step hevent h₃)), (if_neg nofun).mp hawaits⟩

/-- The stages up to the open orders. -/
theorem openOrders_leads (h : Awaits details exchange.accountId .getAccount g) :
    ∃ g', (machine ρ env).Leads (Cooperates exchange) 8 g g' ∧
      Awaits details exchange.accountId .getOpenOrders g' := by
  obtain ⟨g₁, hleads₁, h₁⟩ := request_leads exchange .subscribeBalances h rfl nofun nofun
    fun g hg => DropCopy.checkDownload_arrives hg.toRunning hg.state rfl nofun hg.accountId
  obtain ⟨g₂, hleads₂, h₂⟩ := sub_leads exchange .getBalances h₁ rfl
    fun g hg => DropCopy.checkDownload_arrives hg.toRunning hg.state rfl nofun (hg.accountId nofun)
  obtain ⟨g₃, hleads₃, h₃⟩ := request_leads exchange .subscribeOrders ((if_neg nofun).mp h₂)
    rfl nofun nofun
    fun g hg => DropCopy.checkDownload_arrives hg.toRunning hg.state rfl nofun hg.accountId
  obtain ⟨g₄, hleads₄, h₄⟩ := sub_leads exchange .getOpenOrders h₃ rfl
    fun g hg => DropCopy.checkDownload_arrives hg.toRunning hg.state rfl nofun (hg.accountId nofun)
  exact ⟨g₄, ((hleads₁.trans hleads₂).trans hleads₃).trans hleads₄, (if_neg nofun).mp h₄⟩

/-- A pass without stale orders. -/
theorem pass_leads (h : Awaits [] exchange.accountId .getAccount g) :
    ∃ g', (machine ρ env).Leads (Cooperates exchange) 12 g g' ∧ IsReady exchange.accountId g' := by
  obtain ⟨g₁, hleads₁, h₁⟩ := openOrders_leads exchange h
  obtain ⟨g₂, hleads₂, h₂⟩ := request_leads exchange .subscribeTrades h₁ rfl nofun nofun
    fun g hg => DropCopy.checkDownload_arrives_subscribeTrades hg.toRunning hg.state hg.accountId
  obtain ⟨g₃, hleads₃, h₃⟩ := sub_leads exchange .done h₂ rfl
    fun g hg => DropCopy.checkDownload_arrives hg.toRunning hg.state rfl nofun (hg.accountId nofun)
  exact ⟨g₃, (hleads₁.trans hleads₂).trans hleads₃, h₃⟩

omit [LimitRequest ρ] in
/-- Stale orders that are no longer found. -/
theorem getStaleOrders_not_found {t : OrderEntry.Tick} (ht : ∀ key, t.findOrder key = none)
    (keys : List Key) (g : Gateway ρ) : OrderEntry.getStaleOrders env t keys g = .ok g := by
  induction keys with
  | nil => rfl
  | cons key keys ih => rw [OrderEntry.getStaleOrders, ht, ih]

/-- They are forgotten, and nothing is asked. -/
theorem stale_leads (h : Awaits details accountId .getStaleOrders g) :
    ∃ g', (machine ρ env).Leads (Cooperates exchange) 1 g g' ∧
      InStage [] accountId .getStaleOrders g' := by
  let forgotten : Gateway ρ := { g.takeUp .staleOrders with
    batch := g.batch + 1
    request := { (g.takeUp .staleOrders).request with detailsStaleOrders := [] } }
  have hstage : InStage [] accountId .getStaleOrders forgotten :=
    ⟨⟨h.running, h.up, h.ready, rfl⟩, h.status, h.state, h.accountId⟩
  have hunanswered : forgotten.hasResponse .staleOrders = false :=
    (LimitRequest.hasResponse_take _).trans (h.asked .staleOrders rfl).2
  have hsends : OrderEntry.onTimer env (tick (some .staleOrders)) g = .ok forgotten := by
    rw [DropCopy.onTimer_tick_some h.ready (h.asked .staleOrders rfl).1, DropCopy.poll,
      OrderEntry.staleOrders, getStaleOrders_not_found (fun _ => rfl)]
    rfl
  have hstep : (machine ρ env).step g (.timer (tick (some .staleOrders))) = some forgotten := by
    refine step_ok h.running ?_
    show some ((OrderEntry.onTimer env (tick (some .staleOrders)) g).bind _) = _
    rw [hsends]
    exact congrArg some (DropCopy.onTimer_waits hstage rfl hunanswered _)
  have hevent : Cooperates exchange (.timer (tick (some .staleOrders))) := ⟨some .staleOrders, rfl⟩
  exact ⟨forgotten, .step hevent hstep, hstage⟩

/-- A pass with stale orders, a login, and another pass. -/
theorem passes_leads (hdetails : details ≠ []) (h : Awaits details exchange.accountId .getAccount g) :
    ∃ g', (machine ρ env).Leads (Cooperates exchange) 27 g g' ∧ IsReady exchange.accountId g' := by
  obtain ⟨g₁, hleads₁, h₁⟩ := openOrders_leads exchange h
  obtain ⟨g₂, hleads₂, h₂⟩ := request_leads exchange .getStaleOrders h₁ rfl nofun nofun
    fun g hg => DropCopy.checkDownload_arrives hg.toRunning hg.state rfl (fun _ => hdetails)
      hg.accountId
  obtain ⟨g₃, hleads₃, h₃⟩ := stale_leads exchange h₂
  obtain ⟨g₄, hleads₄, h₄⟩ := login_leads exchange exchange.accountId h₃.running h₃.ready
  rw [h₃.details] at h₄
  obtain ⟨g₅, hleads₅, h₅⟩ := pass_leads exchange h₄
  exact ⟨g₅, (((hleads₁.trans hleads₂).trans hleads₃).trans hleads₄).trans hleads₅, h₅⟩

/-- Wherever a run has got to, new connections, timers and the exchange's answers
get both connections of the account ready, with the account known. -/
theorem account_recovers (hrunning : g.halted = false) :
    ∃ g', (machine ρ env).Leads (Cooperates exchange) 31 g g' ∧ IsReady exchange.accountId g' := by
  have hstep : (machine ρ env).step g .restConnected = some (OrderEntry.onConnected g) :=
    step_ok hrunning rfl
  obtain ⟨g₁, hleads₁, h₁⟩ := login_leads (g := OrderEntry.onConnected g) exchange
    exchange.accountId hrunning rfl
  have hlogin : (machine ρ env).Leads (Cooperates exchange) 4 g g₁ :=
    .cons (e := .restConnected) trivial hstep hleads₁
  by_cases hdetails : (OrderEntry.onConnected g).request.detailsStaleOrders = []
  · rw [hdetails] at h₁
    obtain ⟨g', hleads, hready⟩ := pass_leads exchange h₁
    exact ⟨g', (hlogin.trans hleads).mono (by decide), hready⟩
  · obtain ⟨g', hleads, hready⟩ := passes_leads exchange hdetails h₁
    exact ⟨g', hlogin.trans hleads, hready⟩

/-- The answers of the environment that runs are checked in. -/
def readerExchange : Exchange Reader.env where
  auth := Reader.authReply 200
  sub := Reader.subReply 200
  body
    | .account => Reader.accountsBody
    | .balances => Reader.balanceBody
    | .openOrders | .staleOrders => Reader.openOrdersBody
  accountId := 71463752
  auth_ok := rfl
  sub_ok _ := rfl
  distinct := by decide +kernel
  accounts_ok := by simp [Reader.env, Reader.bodies, Reader.read, Reader.okAck]

/-- A stale order, and both connections are lost before it is asked for. -/
theorem recovers_stale : ∃ g g' : Gateway Reader.Flags,
    g.request.detailsStaleOrders ≠ [] ∧ g.socketUp = false ∧ OrderEntry.ready g = false ∧
      (machine Reader.Flags Reader.env).Leads (Cooperates readerExchange) 31 g g' ∧ IsReady 71463752 g' := by
  obtain ⟨g, -, hdetails, hup, hready, hrunning⟩ :=
    Machine.exists_reach (M := machine Reader.Flags Reader.env) (C := fun _ _ => True)
    (P := fun g => g.request.detailsStaleOrders ≠ [] ∧ g.socketUp = false ∧
      OrderEntry.ready g = false ∧ g.halted = false)
    (Reader.login ++ Reader.download ++
      [.timer Reader.staleTick, .restDisconnected, .socketDisconnected]) (by decide +kernel)
  obtain ⟨g', hleads, hg'⟩ := account_recovers readerExchange hrunning
  exact ⟨g, g', hdetails, hup, hready, hleads, hg'⟩

end Gateway

end RoqHtx

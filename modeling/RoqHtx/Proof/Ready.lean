import RoqHtx.Proof.Login

/-!
# When the order stream is ready

The order stream reports that it is ready at the end of its download. By then
every stage has to have succeeded on the same connection (`complete`). A stage
ends with any response to its request and with any reply to its subscription, so
this takes runs in which those succeed (`advancesOnSuccess`); in such runs every
report is preceded by all of it (`ready_complete`). `ready_incomplete` is a run
in which every stage fails, and the order stream is ready.
-/

namespace RoqHtx

open DropCopy (requested Waits)

variable {ρ : Type}

/-! ## What a stage needs -/

/-- The channel that a stage subscribes to. -/
def DropCopy.channel : Stage → Option String
  | .subscribeBalances => some channelAccountsUpdate
  | .subscribeOrders => some channelOrders
  | .subscribeTrades => some channelTradeClearing
  | .getAccount | .getBalances | .getOpenOrders | .getStaleOrders | .done => none

open DropCopy (channel)

/-- The response to a request of the download is a success with status ok. -/
def Callback.succeeds (env : Env) (response : Response) : Callback → Bool
  | .accountsAck => response.succeeds env.decode.accountsAck (·.toAck)
  | .balanceAck => response.succeeds env.decode.balanceAck (·.toAck)
  | .openOrdersAck => response.succeeds env.decode.openOrdersAck (·.toAck)
  | .getOrderAck _ | .placeOrderAck _ _ | .cancelOrderAck _ _ | .cancelAllOrdersAck => false

/-- The entries by which a stage succeeds: a successful response to its request,
or a reply with code 200 to its subscription. -/
def shows (env : Env) (stage : Stage) : Entry → Bool
  | .answered f response => f.callback.which == requested stage && f.callback.succeeds env response
  | .received (.sub sub) => sub.code == 200 && channel stage == some sub.ch
  | _ => false

/-- A stage has succeeded on the latest connection. Stale orders need not. -/
def achieved (env : Env) (l : List Entry) (stage : Stage) : Bool :=
  stage == .getStaleOrders || stage == .done || (session l).any (shows env stage)

/-- The login and every stage have succeeded on the latest connection. -/
def complete (env : Env) (l : List Entry) : Bool := loggedIn l && Stage.all.all (achieved env l)

/-- The order stream reports that it is ready only if everything has succeeded. -/
def readyComplete (env : Env) (before : List Entry) : Entry → Bool
  | .dropCopyStatus .ready _ => complete env before
  | _ => true

def ReadyComplete (env : Env) (l : List Entry) : Prop :=
  Always (fun l x => readyComplete env l x = true) l

instance (env : Env) (l : List Entry) : Decidable (ReadyComplete env l) :=
  inferInstanceAs (Decidable (Always (fun l x => readyComplete env l x = true) l))

theorem achieved_append {env : Env} {stage : Stage} {l new : List Entry}
    (hnew : ∀ x ∈ new, isSocketReady x = false) (h : achieved env l stage = true) :
    achieved env (new ++ l) stage = true := by
  simp only [achieved, Bool.or_eq_true] at h ⊢
  exact h.imp_right (any_session_append hnew)

theorem achieved_of_shows {env : Env} {stage : Stage} {x : Entry} {l : List Entry}
    (hx : isSocketReady x = false) (h : shows env stage x = true) :
    achieved env (x :: l) stage = true := by
  simp [achieved, session, since_cons_neg hx, h]

/-! ## Walks through the stages -/

/-- The stages before `l` have succeeded. -/
structure Walked (env : Env) (l : List Stage) (log : List Entry) : Prop where
  suffix : l <:+ Stage.all
  loggedIn : loggedIn log = true
  achieved : ∀ stage, stage ∉ l → achieved env log stage = true
  ready : ReadyComplete env log

namespace Walked

variable {env : Env} {l rest : List Stage} {stage : Stage} {log new : List Entry}

theorem append (h : Walked env l log) (hnew : ∀ x ∈ new, isSocketReady x = false)
    (hready : ReadyComplete env (new ++ log)) : Walked env l (new ++ log) where
  suffix := h.suffix
  loggedIn := any_session_append hnew h.loggedIn
  achieved stage hs := achieved_append hnew (h.achieved stage hs)
  ready := hready

theorem cons (h : Walked env l log) {x : Entry} (hx : isSocketReady x = false)
    (hready : readyComplete env log x = true) : Walked env l (x :: log) := by
  have hnew : ∀ y ∈ [x], isSocketReady y = false := by simpa using hx
  exact h.append hnew ⟨hready, h.ready⟩

theorem tail (h : Walked env (stage :: rest) log) (hs : RoqHtx.achieved env log stage = true) :
    Walked env rest log where
  suffix := (List.suffix_cons stage rest).trans h.suffix
  loggedIn := h.loggedIn
  achieved s hrest := by
    by_cases he : s = stage
    · exact he ▸ hs
    · exact h.achieved s (by simp [he, hrest])
  ready := h.ready

theorem complete (h : Walked env [.done] log) : complete env log = true := by
  simp only [RoqHtx.complete, Bool.and_eq_true, List.all_eq_true]
  refine ⟨h.loggedIn, fun stage _ => ?_⟩
  by_cases he : stage = .done
  · subst he
    rfl
  · exact h.achieved stage (by simpa using he)

end Walked

variable [LimitRequest ρ]

/-- Entering a stage walks on if nothing has to be waited for, and stays with it
otherwise. -/
theorem DropCopy.download_walked {env : Env} {stage : Stage} {rest : List Stage} {g : Gateway ρ}
    (h : Walked env (stage :: rest) g.log) :
    ((download stage g).1 = 0 → Walked env rest (download stage g).2.log) ∧
      ((download stage g).1 ≠ 0 → Walked env (stage :: rest) (download stage g).2.log) := by
  have entered : Walked env (stage :: rest) (g.push (.download stage)).log := h.cons rfl rfl
  have publishing : ∀ reason, Walked env (stage :: rest)
      (publish .downloading reason (g.push (.download stage))).log := fun _ => entered.cons rfl rfl
  cases stage with
  | getAccount | subscribeBalances | getBalances | subscribeOrders | getOpenOrders
  | subscribeTrades =>
    exact ⟨fun h => absurd h Int.one_ne_zero, fun _ => (publishing _).cons rfl rfl⟩
  | getStaleOrders =>
    simp only [download]
    split
    · exact ⟨fun _ => entered.tail rfl, fun h => absurd rfl h⟩
    · exact ⟨fun h => absurd h Int.one_ne_zero, fun _ => (publishing _).cons rfl rfl⟩
  | done =>
    refine ⟨fun _ => ?_, fun h => absurd rfl h⟩
    obtain rfl := Download.rest_of_last (by decide) rfl h.suffix
    exact (entered.cons (x := .dropCopyStatus .ready "") rfl entered.complete).tail rfl

theorem DropCopy.visit_walked {env : Env} {l : List Stage} {g : Gateway ρ} (h : Walked env l g.log) :
    Walked env (Download.visit download l g).1 (Download.visit download l g).2.log :=
  Download.visit_rule (I := fun l (g : Gateway ρ) => Walked env l g.log)
    (J := fun l (g : Gateway ρ) => Walked env l g.log)
    (fun _ _ _ h => (download_walked h).1) (fun _ _ _ h => (download_walked h).2) (fun _ h => h) h

/-! ## The invariant -/

/-- Whatever the download has behind it has succeeded, and so has the stage it
waits in if that has a response. -/
structure Sound (env : Env) (g : Gateway ρ) : Prop where
  loggedIn : g.dropCopy.download.state ≠ none → loggedIn g.log = true
  achieved : g.dropCopy.download.state ≠ none →
    ∀ stage, stage ∉ g.dropCopy.download.remaining → achieved env g.log stage = true
  answered : ∀ stage w, g.dropCopy.download.state = some stage → requested stage = some w →
    g.hasResponse w = true → RoqHtx.achieved env g.log stage = true
  ready : ReadyComplete env g.log

theorem Walked.sound {env : Env} {g : Gateway ρ}
    (h : Walked env g.dropCopy.download.remaining g.log) (hwaits : Waits g) : Sound env g where
  loggedIn _ := h.loggedIn
  achieved _ := h.achieved
  answered stage w hs hw hr := by
    cases (hwaits stage w hs hw).2.symm.trans hr
  ready := h.ready

theorem Sound.walked {env : Env} {g : Gateway ρ} (h : Sound env g)
    (hs : g.dropCopy.download.state ≠ none) : Walked env g.dropCopy.download.remaining g.log :=
  ⟨g.dropCopy.download.suffix, h.loggedIn hs, h.achieved hs, h.ready⟩

theorem readyComplete_of_not_proceeds {env : Env} {x : Entry} (h : proceeds x = false)
    (l : List Entry) : readyComplete env l x = true := by
  unfold readyComplete
  split
  · cases h
  · rfl

/-- The download stays where it is, and any new response is a success. -/
theorem Sound.mono {env : Env} {g g' : Gateway ρ} (hg : Sound env g)
    (hdownload : g'.dropCopy.download = g.dropCopy.download) (hlog : Grows Minor g g')
    (hanswered : ∀ stage w, g.dropCopy.download.state = some stage → requested stage = some w →
      g'.hasResponse w = true → g.hasResponse w = true ∨ RoqHtx.achieved env g'.log stage = true) :
    Sound env g' := by
  have ready : ReadyComplete env g'.log :=
    hlog.always (fun _ _ hx _ => readyComplete_of_not_proceeds hx.1 _) hg.ready
  have keeps : ∀ stage, RoqHtx.achieved env g.log stage = true →
      RoqHtx.achieved env g'.log stage = true := by
    obtain ⟨new, hnew, hminor⟩ := hlog
    rw [hnew]
    exact fun _ => achieved_append fun x hx => (hminor x hx).2
  refine ⟨fun hs => ?_, fun hs stage hstage => ?_, fun stage w hs hw hr => ?_, ready⟩
  all_goals rw [hdownload] at hs
  · exact hlog.any_session (fun _ hx => hx.2) (hg.loggedIn hs)
  · exact keeps stage (hg.achieved hs stage (hdownload ▸ hstage))
  · exact (hanswered stage w hs hw hr).elim (fun hr => keeps stage (hg.answered stage w hs hw hr)) id

theorem Steady.sound {env : Env} {g g' : Gateway ρ} (h : Steady g g') (hg : Sound env g) :
    Sound env g' :=
  hg.mono h.download h.log fun _ w _ _ hr => .inl (h.hasResponse w hr)

namespace DropCopy

theorem beginDownload_sound {env : Env} {g : Gateway ρ} (hlog : loggedIn g.log = true)
    (hg : ReadyComplete env g.log) : Sound env (beginDownload g) := by
  refine Walked.sound ?_ (beginDownload_waits g)
  have start : Walked env Stage.all g.log :=
    ⟨List.suffix_rfl, hlog, fun stage hs => absurd (by cases stage <;> decide) hs, hg⟩
  exact visit_walked (g := g.push (.downloadBegin g.dropCopy.download.downloading))
    (start.cons rfl rfl)

theorem checkDownload_sound {env : Env} {stage : Stage} {g : Gateway ρ} (hg : Sound env g)
    (h : g.dropCopy.download.state = some stage → achieved env g.log stage = true) :
    Sound env (checkDownload stage g) := by
  by_cases hs : g.dropCopy.download.state = some stage
  · refine Walked.sound ?_ (checkDownload_waits hs)
    have walked := hg.walked (by simp [hs])
    rw [checkDownload, Download.check, if_pos hs]
    refine visit_walked ?_
    have hcons : stage :: g.dropCopy.download.remaining.tail = g.dropCopy.download.remaining :=
      List.cons_head?_tail hs
    exact (hcons ▸ walked).tail (h hs)
  · rwa [checkDownload_of_ne hs]

theorem checkRequestQueue_sound {env : Env} (t : OrderEntry.Tick) {g : Gateway ρ}
    (hg : Sound env g) : Sound env (checkRequestQueue t g).state := by
  unfold checkRequestQueue
  split
  · rename_i hs
    split
    · rename_i hr
      exact checkDownload_sound hg fun _ => hg.answered _ _ hs rfl hr
    · exact hg
  · rename_i hs
    split
    · rename_i hr
      exact checkDownload_sound hg fun _ => hg.answered _ _ hs rfl hr
    · exact hg
  · rename_i hs
    split
    · rename_i hr
      have found : Steady g (findStaleOrders t g).2 :=
        ⟨rfl, fun w hw => by simpa [findStaleOrders, Gateway.hasResponse] using hw, .of_eq rfl⟩
      exact checkDownload_sound (found.sound hg) fun _ => hg.answered _ _ hs rfl hr
    · exact hg
  · split
    · split
      · exact (Steady.push g (x := .fatal .staleOrders) ⟨rfl, rfl⟩).sound hg
      · exact checkDownload_sound hg fun _ => rfl
    · exact hg
  all_goals exact hg

theorem onTimer_sound {env : Env} (t : OrderEntry.Tick) {g : Gateway ρ} (hg : Sound env g) :
    Sound env (onTimer env t g).state := by
  unfold onTimer
  split
  · refine Outcome.state_bind (checkRequestQueue_sound t hg) fun s hs => ?_
    split
    · exact (checkStaleOrders_steady env t s).sound hs
    · exact hs
  · exact hg

/-- A reply is taken for the one to the subscription that the download waits
for. -/
def repliesStage (env : Env) (g : Gateway ρ) (sub : Json.Sub) : Bool :=
  (g.dropCopy.download.state.bind channel).any fun c => env.parser.fnv sub.ch == env.parser.fnv c

theorem onSub_sound {env : Env} {sub : Json.Sub} {g : Gateway ρ} (hg : Sound env g)
    (he : repliesStage env g sub = true →
      sub.code = 200 ∧ g.dropCopy.download.state.bind channel = some sub.ch) :
    Sound env (onSub env sub (g.push (.received (.sub sub)))) := by
  have received : Sound env (g.push (.received (.sub sub))) := (Steady.push g ⟨rfl, rfl⟩).sound hg
  have replied : ∀ stage c, channel stage = some c → env.parser.fnv sub.ch = env.parser.fnv c →
      Sound env (checkDownload stage (g.push (.received (.sub sub)))) := by
    refine fun stage c hc hkey => checkDownload_sound received fun hs => achieved_of_shows rfl ?_
    change g.dropCopy.download.state = some stage at hs
    obtain ⟨hcode, hch⟩ := he (by simp [repliesStage, hs, hc, hkey])
    rw [hs] at hch
    simpa [shows, hcode] using hch
  unfold onSub
  dsimp only
  split
  · exact replied _ _ rfl ‹_›
  · split
    · exact replied _ _ rfl ‹_›
    · split
      · exact replied _ _ rfl ‹_›
      · exact received

theorem onMessage_sound {env : Env} {m : Json.Message} {g : Gateway ρ} (hg : Sound env g)
    (he : ∀ sub, m = .sub sub → repliesStage env g sub = true →
      sub.code = 200 ∧ g.dropCopy.download.state.bind channel = some sub.ch) :
    Sound env (onMessage env m g).state := by
  have received : Sound env (g.push (.received m)) := (Steady.push g ⟨rfl, rfl⟩).sound hg
  cases m with
  | req req =>
    simp only [onMessage, onReq]
    repeat' split
    · rename_i hch hcode
      exact beginDownload_sound (loggedIn_received (by simp [accepts, hch, hcode]) g) received.ready
    · exact (Steady.push _ (x := .socketClose) ⟨rfl, rfl⟩).sound received
    · exact (Steady.push _ (x := .fatal .logon) ⟨rfl, rfl⟩).sound received
    · exact received
  | sub sub => exact onSub_sound hg (he sub rfl)
  | error | error2 | orders | clearing => exact received
  | ping | ping2 | accounts | subbed | bbo | trade | detail | ticker | mbp | mbpSnapshot =>
    exact (Steady.push _ ⟨rfl, rfl⟩).sound received

end DropCopy

/-! ## Responses -/

/-- A response is taken for the one that the download waits for, and has not got
yet. Whatever happened to stale orders, they are asked for again. -/
def answersStage (g : Gateway ρ) (f : InFlight) : Bool :=
  (g.dropCopy.download.state.bind requested).any fun w =>
    f.callback.which == some w && w != .staleOrders && !g.hasResponse w

theorem onResponse_sound {env : Env} {g : Gateway ρ} (i : Nat) {f : InFlight} {response : Response}
    (hg : Sound env g) (he : answersStage g f = true → response.stops env.assertions = true ∨
      f.callback.succeeds env response = true) :
    Sound env (OrderEntry.onResponse env f response (g.answer i f response)).state := by
  have ha := OrderEntry.onResponse_answers env f response (g.answer i f response)
  have answered : Grows Minor g (g.answer i f response) :=
    .of_cons (x := .answered f response) rfl ⟨rfl, rfl⟩
  refine hg.mono (by rw [ha.dropCopy]; rfl) (answered.trans ha.minor) fun stage w hs hw hr => ?_
  by_cases hwhich : f.callback.which = some w
  swap
  · exact .inl (ha.hasResponse w hwhich ▸ hr)
  cases hbefore : g.hasResponse w with
  | true => exact .inl rfl
  | false =>
    right
    by_cases hstale : w = .staleOrders
    · subst hstale
      cases stage <;> first | rfl | cases hw
    · rcases he (by simp [answersStage, hs, hw, hwhich, hstale, hbefore]) with hstops | hsucceeds
      · rw [OrderEntry.onResponse_of_stops env f hstops] at hr
        cases hbefore.symm.trans hr
      · obtain ⟨new, hnew, hminor⟩ := ha.minor
        rw [hnew]
        refine achieved_append (fun x hx => (hminor x hx).2) (achieved_of_shows rfl ?_)
        simp [shows, hwhich, hw, hsucceeds]

/-! ## Runs -/

namespace Gateway

/-- A new connection finds the download at rest, and the download is moved on by
successes only. -/
def advancesOnSuccess (env : Env) (g : Gateway ρ) : Event → Bool
  | .socketReady _ => !g.dropCopy.download.downloading
  | .response i response => g.inFlight[i]?.all fun f =>
    !answersStage g f || response.stops env.assertions || f.callback.succeeds env response
  | .text message =>
    match env.parser.delivered message with
    | some (.sub sub) => !DropCopy.repliesStage env g sub ||
      sub.code == 200 && g.dropCopy.download.state.bind channel == some sub.ch
    | _ => true
  | _ => true

theorem Leaves.sound {env : Env} {g s : Gateway ρ} {e : Event} (h : Leaves env g s e)
    (he : advancesOnSuccess env g e = true) (hg : Sound env g) : Sound env s := by
  obtain hs | ⟨i, response, f, rfl, hf, rfl⟩ | ⟨trace, rfl, rfl⟩ | ⟨t, m, rfl, hm, rfl⟩ |
    ⟨message, m, rfl, hdelivered, rfl⟩ := h.steady_or
  · exact hs.sound hg
  · refine onResponse_sound i hg fun hstage => ?_
    simpa [advancesOnSuccess, hf, hstage] using he
  · have idle : g.dropCopy.download.state = none :=
      Download.downloading_eq_false.mp (by simpa [advancesOnSuccess] using he)
    exact ⟨fun h => absurd idle h, fun h => absurd idle h,
      fun _ _ hs => absurd (idle.symm.trans hs) nofun, rfl, rfl, rfl, hg.ready⟩
  · exact DropCopy.onTimer_sound t (hm.sound hg)
  · refine DropCopy.onMessage_sound hg fun sub hsub hstage => ?_
    subst hsub
    simpa [advancesOnSuccess, hdelivered, hstage] using he

/-- In runs in which the download is moved on by successes only, everything has
succeeded on the connection whenever the order stream reports that it is ready. -/
theorem ready_complete (env : Env) (g : Gateway ρ)
    (h : (machine ρ env).Reach (fun g e => advancesOnSuccess env g e = true) g) :
    ReadyComplete env g.log := by
  have init : Sound env (machine ρ env).init :=
    ⟨fun h => absurd rfl h, fun h => absurd rfl h, fun _ _ hs => absurd hs nofun, trivial⟩
  refine (h.invariant (I := Sound env) init ?_).ready
  rintro s e s' hs he hstep
  exact invariant_step (P := Sound env) (fun _ h => ⟨h.1, h.2, h.3, h.4⟩) (fun _ hl => hl.sound he hs)
    hstep

/-- A connection on which everything succeeds gets ready. -/
theorem ready_complete_once : ∃ g : Gateway Reader.Flags,
    g.log.any (fun x => x matches .dropCopyStatus .ready _) = true ∧
      ReadyComplete Reader.env g.log := by
  obtain ⟨g, hg, hready⟩ := Machine.exists_reach (M := Reader.flags)
    (C := fun g e => advancesOnSuccess Reader.env g e = true)
    (P := fun g => g.log.any (fun x => x matches .dropCopyStatus .ready _) = true)
    (Reader.login ++ Reader.download ++
      [.timer Reader.tick, .text (Reader.subReply 200 "trade.clearing#*")])
    (by decide +kernel)
  exact ⟨g, hready, ready_complete Reader.env g hg⟩

/-- Every request is refused, and every subscription, and the order stream is
ready. -/
theorem ready_incomplete : ∃ g : Gateway Reader.Flags,
    Reader.flags.Reachable g ∧ ¬ReadyComplete Reader.env g.log ∧
      g.dropCopy.connectionStatus = .ready ∧
      Stage.all.filter (achieved Reader.env g.log) = [.getStaleOrders, .done] :=
  Machine.exists_reach
    (Reader.login ++
      [.timer Reader.tick, .response 0 (Reader.success Reader.errorBody), .timer Reader.tick,
        .text (Reader.subReply 400 "accounts.update"), .timer Reader.tick, .response 0 Reader.timeout,
        .timer Reader.tick, .text (Reader.subReply 400 "orders#*"), .timer Reader.tick,
        .response 0 (Reader.success Reader.errorBody), .timer Reader.tick,
        .text (Reader.subReply 400 "trade.clearing#*")])
    (by decide +kernel)

end Gateway

end RoqHtx

import RoqHtx.Proof.Ready

/-!
# Snapshots and streams

The download takes a snapshot of the balances, and one of the open orders, each
after it has subscribed to what changes them. A snapshot belongs to the stream
if the response that is taken for it answers a request sent after the
subscription was acknowledged on the same connection (`fresh`). Requests and
responses meet in flags that know of no connection, so this takes runs in which
a response that is taken for a snapshot was asked for in its stage, and no
snapshot is taken over from an earlier connection (`takesOwn`,
`snapshots_fresh`). `snapshot_stale` is a run in which the open orders of an
earlier connection are taken for the snapshot of the next one.
-/

namespace RoqHtx

open DropCopy (requested Waits channelAccountsUpdate channelOrders)

variable {ρ : Type}

/-! ## What came first on a connection -/

def isRestRequest (id : Nat) : Entry → Bool
  | .restRequest f => f.id == id
  | _ => false

/-- On the latest connection, the request with this number was sent after an entry
in `p`. -/
def sentSince (p : Entry → Bool) (id : Nat) (l : List Entry) : Bool :=
  ((session l).dropWhile fun x => !isRestRequest id x).any p

/-- A reply that a subscription has been made. -/
def acknowledges (channel : String) : Entry → Bool
  | .received (.sub sub) => sub.code == 200 && sub.ch == channel
  | _ => false

def enters (stage : Stage) : Entry → Bool
  | .download s => s == stage
  | _ => false

theorem sentSince_cons {p : Entry → Bool} {id : Nat} {x : Entry} {l : List Entry}
    (hx : isSocketReady x = false) (h : sentSince p id l = true) : sentSince p id (x :: l) = true := by
  rw [sentSince, session, since_cons_neg hx, List.dropWhile_cons]
  split
  · exact h
  · obtain ⟨y, hy, hp⟩ := List.any_eq_true.mp h
    exact List.any_eq_true.mpr ⟨y, List.mem_cons_of_mem x ((List.dropWhile_sublist _).subset hy), hp⟩

/-! ## Snapshots -/

/-- The stages that take a snapshot: what they ask for, and what has to be
subscribed to by then. -/
def snapshot : Stage → Option (Which × String)
  | .getBalances => some (.balances, channelAccountsUpdate)
  | .getOpenOrders => some (.openOrders, channelOrders)
  | .getAccount | .subscribeBalances | .subscribeOrders | .getStaleOrders | .subscribeTrades
  | .done => none

/-- The stage that the download leaves when it enters another one. -/
def leaves : Stage → Option Stage
  | .getAccount => none
  | .subscribeBalances => some .getAccount
  | .getBalances => some .subscribeBalances
  | .subscribeOrders => some .getBalances
  | .getOpenOrders => some .subscribeOrders
  | .getStaleOrders => some .getOpenOrders
  | .subscribeTrades => some .getStaleOrders
  | .done => some .subscribeTrades

def asks (w : Which) : Entry → Bool
  | .request v => v == w
  | _ => false

def answers (w : Which) : Entry → Option InFlight
  | .answered f _ => if f.callback.which = some w then some f else none
  | _ => none

/-- The request whose response lets the download proceed: the first one to be
answered since it was asked for. -/
def proceeding (w : Which) (l : List Entry) : Option InFlight :=
  ((since (asks w) l).filterMap (answers w)).getLast?

/-- That request was sent after the channel was subscribed to, on the latest
connection. -/
def fresh (w : Which) (channel : String) (l : List Entry) : Bool :=
  (proceeding w l).any fun f => sentSince (acknowledges channel) f.id l

/-- The download leaves a stage with a fresh snapshot. -/
def leavesFresh (before : List Entry) : Entry → Bool
  | .download stage =>
    ((leaves stage).bind snapshot).all fun (w, channel) => fresh w channel before
  | _ => true

def SnapshotsFresh (l : List Entry) : Prop := Always (fun l x => leavesFresh l x = true) l

instance (l : List Entry) : Decidable (SnapshotsFresh l) :=
  inferInstanceAs (Decidable (Always (fun l x => leavesFresh l x = true) l))

theorem proceeding_cons {w : Which} {x : Entry} (hasks : asks w x = false) (l : List Entry) :
    proceeding w (x :: l) = (proceeding w l).or (answers w x) := by
  unfold proceeding
  rw [since_cons_neg hasks]
  cases hx : answers w x with
  | none => rw [List.filterMap_cons_none hx, Option.or_none]
  | some f =>
    rw [List.filterMap_cons_some hx, List.getLast?_cons]
    cases ((since (asks w) l).filterMap (answers w)).getLast? <;> rfl

theorem proceeding_request (w : Which) (l : List Entry) : proceeding w (.request w :: l) = none := by
  simp [proceeding, since, asks]

/-- What is neither asked for nor answered in between makes no difference. -/
theorem proceeding_append {w : Which} {l : List Entry} :
    ∀ {new : List Entry}, (∀ x ∈ new, asks w x = false ∧ answers w x = none) →
      proceeding w (new ++ l) = proceeding w l
  | [], _ => rfl
  | x :: _, hnew => by
    have hx := hnew x List.mem_cons_self
    rw [List.cons_append, proceeding_cons hx.1, hx.2, Option.or_none,
      proceeding_append fun y hy => hnew y (List.mem_cons_of_mem x hy)]

theorem fresh_cons {w : Which} {channel : String} {x : Entry} {l : List Entry}
    (hready : isSocketReady x = false) (hasks : asks w x = false)
    (h : fresh w channel l = true) : fresh w channel (x :: l) = true := by
  obtain ⟨f, hf, hsent⟩ := (Option.any_eq_true ..).mp h
  refine (Option.any_eq_true ..).mpr ⟨f, ?_, sentSince_cons hready hsent⟩
  rw [proceeding_cons hasks, hf, Option.some_or]

theorem fresh_append {w : Which} {channel : String} {l : List Entry} :
    ∀ {new : List Entry}, (∀ x ∈ new, isSocketReady x = false ∧ asks w x = false) →
      fresh w channel l = true → fresh w channel (new ++ l) = true
  | [], _, h => h
  | x :: _, hnew, h => by
    have hx := hnew x List.mem_cons_self
    exact fresh_cons hx.1 hx.2 (fresh_append (fun y hy => hnew y (List.mem_cons_of_mem x hy)) h)

/-! ## Walks through the stages -/

/-- The download enters a stage that takes a snapshot once the subscription is
acknowledged on the latest connection. -/
def entersSubscribed (before : List Entry) : Entry → Bool
  | .download stage =>
    (snapshot stage).all fun (_, channel) => (session before).any (acknowledges channel)
  | _ => true

/-- What holds of every entry. -/
def Sourced (before : List Entry) (x : Entry) : Prop :=
  leavesFresh before x = true ∧ entersSubscribed before x = true

/-- The stages follow each other. -/
theorem leaves_of_suffix {stage next : Stage} {rest : List Stage}
    (h : stage :: rest <:+ Stage.all) (hnext : rest.head? = some next) :
    leaves next = some stage := by
  have hstate : Download.state ⟨stage :: rest, h⟩ = some stage := rfl
  have hrest := Download.remaining_of_state (by decide) hstate
  change stage :: rest = _ at hrest
  cases stage with
  | done =>
    simp [Stage.all] at hrest
    subst hrest
    cases hnext
  | _ =>
    simp [Stage.all] at hrest
    subst hrest
    cases hnext
    rfl

variable [LimitRequest ρ]

/-- Entering a stage makes no other entry that matters. -/
theorem DropCopy.download_sourced {stage : Stage} {g : Gateway ρ} (h : Always Sourced g.log)
    (hstage : Sourced g.log (.download stage)) : Always Sourced (download stage g).2.log := by
  have entered : Always Sourced (g.push (.download stage)).log := ⟨hstage, h⟩
  have other : ∀ {x : Entry} {l : List Entry}, (∀ s, x ≠ .download s) → Always Sourced l →
      Always Sourced (x :: l) := fun {x} _ hx hl => by
    refine ⟨?_, hl⟩
    cases x with
    | download s => exact absurd rfl (hx s)
    | _ => exact ⟨rfl, rfl⟩
  cases stage with
  | getAccount | subscribeBalances | getBalances | subscribeOrders | getOpenOrders
  | subscribeTrades =>
    exact other (fun _ hx => by cases hx) (other (fun _ hx => by cases hx) entered)
  | getStaleOrders =>
    simp only [download]
    split
    · exact entered
    · exact other (fun _ hx => by cases hx) (other (fun _ hx => by cases hx) entered)
  | done => exact other (fun _ hx => by cases hx) entered

/-- The walk of a download whose first stage may be entered. Only the stages that
take no snapshot are walked through. -/
theorem DropCopy.visit_sourced {l : List Stage} {g : Gateway ρ} (hl : l <:+ Stage.all)
    (h : Always Sourced g.log)
    (hhead : ∀ stage, l.head? = some stage → Sourced g.log (.download stage)) :
    Always Sourced (Download.visit download l g).2.log := by
  refine Download.visit_rule
    (I := fun l (g : Gateway ρ) => l <:+ Stage.all ∧ Always Sourced g.log ∧
      ∀ stage, l.head? = some stage → Sourced g.log (.download stage))
    (J := fun _ (g : Gateway ρ) => Always Sourced g.log) ?_ ?_ ?_ ⟨hl, h, hhead⟩
  · rintro stage rest g ⟨hl, h, hhead⟩ hzero
    refine ⟨(List.suffix_cons stage rest).trans hl, download_sourced h (hhead stage rfl), ?_⟩
    intro next hnext
    have hleaves := leaves_of_suffix hl hnext
    cases stage with
    | getStaleOrders | done => cases next <;> first | exact ⟨rfl, rfl⟩ | cases hleaves
    | _ => cases hzero
  · rintro stage rest g ⟨-, h, hhead⟩ -
    exact download_sourced h (hhead stage rfl)
  · rintro g ⟨-, h, -⟩
    exact h

theorem DropCopy.beginDownload_sourced {g : Gateway ρ} (h : Always Sourced g.log) :
    Always Sourced (beginDownload g).log := by
  refine visit_sourced (g := g.push (.downloadBegin g.dropCopy.download.downloading))
    List.suffix_rfl ⟨⟨rfl, rfl⟩, h⟩ fun stage hs => ?_
  cases hs
  exact ⟨rfl, rfl⟩

/-- Moving on from a stage, where the next one may be entered. -/
theorem DropCopy.checkDownload_sourced {stage : Stage} {g : Gateway ρ} (h : Always Sourced g.log)
    (hnext : g.dropCopy.download.state = some stage → ∀ next, leaves next = some stage →
      Sourced g.log (.download next)) :
    Always Sourced (checkDownload stage g).log := by
  by_cases hs : g.dropCopy.download.state = some stage
  · rw [checkDownload, Download.check, if_pos hs]
    have hcons : stage :: g.dropCopy.download.remaining.tail = g.dropCopy.download.remaining :=
      List.cons_head?_tail hs
    have hsuffix : stage :: g.dropCopy.download.remaining.tail <:+ Stage.all :=
      hcons ▸ g.dropCopy.download.suffix
    exact visit_sourced ((List.suffix_cons _ _).trans hsuffix) h fun next hn =>
      hnext hs next (leaves_of_suffix hsuffix hn)
  · rwa [checkDownload_of_ne hs]

/-! ## What a stage has been answered -/

/-- Where the stage that the download waits in has been entered on the latest
connection, and has a response, that is fresh. -/
def Answered (g : Gateway ρ) : Prop :=
  ∀ stage w channel, g.dropCopy.download.state = some stage → snapshot stage = some (w, channel) →
    g.hasResponse w = true → (session g.log).any (enters stage) = true →
      fresh w channel g.log = true

/-- A request without a response has not been answered since it was asked for. -/
def Unanswered (g : Gateway ρ) : Prop :=
  ∀ w, w ≠ .staleOrders → g.hasResponse w = false → proceeding w g.log = none

omit [LimitRequest ρ] in
theorem requested_of_snapshot {stage : Stage} {w : Which} {channel : String}
    (h : snapshot stage = some (w, channel)) : requested stage = some w := by
  cases stage <;> cases h <;> rfl

omit [LimitRequest ρ] in
theorem ne_staleOrders_of_snapshot {stage : Stage} {w : Which} {channel : String}
    (h : snapshot stage = some (w, channel)) : w ≠ .staleOrders := by
  cases stage <;> cases h <;> exact nofun

theorem Waits.answered {g : Gateway ρ} (h : Waits g) : Answered g := by
  intro stage w channel hs hsnapshot hr
  cases (h stage w hs (requested_of_snapshot hsnapshot)).2.symm.trans hr

/-- What neither enters a stage nor asks for what one waits for, nor begins a
connection. -/
def Apart (x : Entry) : Prop :=
  (∀ stage, enters stage x = false) ∧ isSocketReady x = false ∧
    ∀ w, w ≠ .staleOrders → asks w x = false

omit [LimitRequest ρ] in
theorem sourced_of_apart {x : Entry} (h : Apart x) (l : List Entry) : Sourced l x := by
  cases x with
  | download stage => simpa [enters] using h.1 stage
  | _ => exact ⟨rfl, rfl⟩

omit [LimitRequest ρ] in
theorem apart_of_pushed {x : Entry} (h : DropCopy.Pushed x) : Apart x := by
  refine ⟨fun _ => ?_, ?_, fun _ _ => ?_⟩ <;> cases x <;> first | rfl | cases h

theorem Answered.mono {g g' : Gateway ρ} (h : Answered g)
    (hdownload : g'.dropCopy.download = g.dropCopy.download) (hlog : Grows Apart g g')
    (hanswered : ∀ w, w ≠ .staleOrders → g'.hasResponse w = true → g.hasResponse w = true) :
    Answered g' := by
  obtain ⟨new, hnew, hapart⟩ := hlog
  intro stage w channel hs hsnapshot hr hsession
  have hw := ne_staleOrders_of_snapshot hsnapshot
  rw [hdownload] at hs
  rw [hnew] at hsession ⊢
  have hready : ∀ x ∈ new, isSocketReady x = false := fun x hx => (hapart x hx).2.1
  have hbefore : (session g.log).any (enters stage) = true := by
    rw [session, since_append hready, List.any_append, Bool.or_eq_true] at hsession
    refine hsession.resolve_left fun hany => ?_
    obtain ⟨x, hx, henters⟩ := List.any_eq_true.mp hany
    cases ((hapart x hx).1 stage).symm.trans henters
  exact fresh_append (fun x hx => ⟨hready x hx, (hapart x hx).2.2 w hw⟩)
    (h stage w channel hs hsnapshot (hanswered w hw hr) hbefore)

theorem Answered.push {g : Gateway ρ} (h : Answered g) {x : Entry} (hx : Apart x) :
    Answered (g.push x) :=
  h.mono rfl (.of_cons rfl hx) fun _ _ hr => hr

namespace DropCopy

theorem checkStaleOrders_answered (env : Env) (t : OrderEntry.Tick) {g : Gateway ρ}
    (h : Answered g) : Answered (checkStaleOrders env t g) := by
  have steady := checkStaleOrders_steady env t g
  refine h.mono steady.download ?_ fun w _ => steady.hasResponse w
  unfold checkStaleOrders
  split
  · dsimp only
    split
    · refine .of_cons (x := .request .staleOrders) rfl ⟨fun _ => rfl, rfl, fun w hw => ?_⟩
      simpa [asks] using hw.symm
    · exact .of_eq rfl
  · exact .refl g

theorem onTimer_answered (env : Env) (t : OrderEntry.Tick) {g : Gateway ρ} (h : Answered g) :
    Answered (onTimer env t g).state :=
  onTimer_waiting (fun _ => Waits.answered) (fun _ _ hx hs => hs.push (apart_of_pushed hx))
    (fun _ => checkStaleOrders_answered env t) h

theorem onMessage_answered (env : Env) (m : Json.Message) {g : Gateway ρ} (h : Answered g) :
    Answered (onMessage env m g).state :=
  onMessage_waiting (fun _ => Waits.answered) (fun _ _ hx hs => hs.push (apart_of_pushed hx)) env m h

/-- The stage that the download waits in, if it takes a snapshot and has a
response, was entered on the latest connection. -/
def entered (g : Gateway ρ) : Bool :=
  g.dropCopy.download.state.all fun stage =>
    (snapshot stage).all fun (w, _) => !g.hasResponse w || (session g.log).any (enters stage)

theorem entered_iff {g : Gateway ρ} :
    entered g = true ↔ ∀ stage w channel, g.dropCopy.download.state = some stage →
      snapshot stage = some (w, channel) → g.hasResponse w = true →
        (session g.log).any (enters stage) = true := by
  simp only [entered, Option.all_eq_true, Bool.or_eq_true, Bool.not_eq_true']
  constructor
  · intro h stage w channel hs hsnapshot hr
    exact (h stage hs (w, channel) hsnapshot).resolve_left fun hnone => by
      cases hnone.symm.trans hr
  · rintro h stage hs ⟨w, channel⟩ hsnapshot
    cases hr : g.hasResponse w with
    | false => exact .inl rfl
    | true => exact .inr (h stage w channel hs hsnapshot hr)

theorem checkRequestQueue_sourced (t : OrderEntry.Tick) {g : Gateway ρ} (h : Always Sourced g.log)
    (hanswered : Answered g) (hentered : entered g = true) :
    Always Sourced (checkRequestQueue t g).state.log := by
  have snapshotTaken : ∀ {stage w channel}, g.dropCopy.download.state = some stage →
      snapshot stage = some (w, channel) → g.hasResponse w = true →
        fresh w channel g.log = true := fun {stage w channel} hs hsnapshot hr =>
    hanswered stage w channel hs hsnapshot hr (entered_iff.mp hentered stage w channel hs hsnapshot hr)
  unfold checkRequestQueue
  split
  · split
    · refine checkDownload_sourced h fun _ next hleaves => ?_
      cases next <;> first | exact ⟨rfl, rfl⟩ | cases hleaves
    · exact h
  · rename_i hs
    split
    · rename_i hr
      have taken := snapshotTaken hs rfl hr
      refine checkDownload_sourced h fun _ next hleaves => ?_
      cases next <;> first | exact ⟨taken, rfl⟩ | cases hleaves
    · exact h
  · rename_i hs
    split
    · rename_i hr
      have taken := snapshotTaken hs rfl hr
      refine checkDownload_sourced h fun _ next hleaves => ?_
      cases next <;> first | exact ⟨taken, rfl⟩ | cases hleaves
    · exact h
  · split
    · split
      · exact ⟨⟨rfl, rfl⟩, h⟩
      · refine checkDownload_sourced h fun _ next hleaves => ?_
        cases next <;> first | exact ⟨rfl, rfl⟩ | cases hleaves
    · exact h
  all_goals exact h

theorem onTimer_sourced (env : Env) (t : OrderEntry.Tick) {g : Gateway ρ}
    (h : Always Sourced g.log) (hanswered : Answered g)
    (hentered : t.socketRefresh = true → entered g = true) :
    Always Sourced (onTimer env t g).state.log := by
  unfold onTimer
  split
  · rename_i hrefresh
    have checked := checkRequestQueue_sourced t h hanswered (hentered hrefresh)
    refine Outcome.state_bind (P := fun g : Gateway ρ => Always Sourced g.log) checked fun s hs => ?_
    split
    · have steady := checkStaleOrders_steady env t s
      refine steady.log.always (fun x _ hx _ => ?_) hs
      cases x with
      | download => cases hx.1
      | _ => exact ⟨rfl, rfl⟩
    · exact hs
  · exact h

/-- A reply that moves the download on is taken for the acknowledgement of the
subscription only if it is one, or if there is one. -/
def acknowledged (env : Env) (g : Gateway ρ) (sub : Json.Sub) : Bool :=
  g.dropCopy.download.state.all fun stage =>
    (channel stage).all fun c => stage == .subscribeTrades ||
      env.parser.fnv sub.ch != env.parser.fnv c ||
        acknowledges c (.received (.sub sub)) || (session g.log).any (acknowledges c)

theorem onSub_sourced {env : Env} {sub : Json.Sub} {g : Gateway ρ} (h : Always Sourced g.log)
    (he : acknowledged env g sub = true) :
    Always Sourced (onSub env sub (g.push (.received (.sub sub)))).log := by
  have received : Always Sourced (g.push (.received (.sub sub))).log := ⟨⟨rfl, rfl⟩, h⟩
  have replied : ∀ stage c, channel stage = some c → env.parser.fnv sub.ch = env.parser.fnv c →
      Always Sourced (checkDownload stage (g.push (.received (.sub sub)))).log := by
    refine fun stage c hc hkey => checkDownload_sourced received fun hs next hleaves => ?_
    change g.dropCopy.download.state = some stage at hs
    have hsession : stage = .subscribeTrades ∨
        (session (g.push (.received (.sub sub))).log).any (acknowledges c) = true := by
      rw [session, Gateway.push, since_cons_neg rfl, List.any_cons]
      simpa [acknowledged, hs, hc, hkey, or_assoc, session] using he
    cases stage with
    | subscribeBalances | subscribeOrders =>
      cases hc
      have hchannel := hsession.resolve_left fun hs => by cases hs
      cases next <;> first | exact ⟨rfl, hchannel⟩ | cases hleaves
    | subscribeTrades => cases next <;> first | exact ⟨rfl, rfl⟩ | cases hleaves
    | _ => cases hc
  unfold onSub
  dsimp only
  split
  · exact replied _ _ rfl ‹_›
  · split
    · exact replied _ _ rfl ‹_›
    · split
      · exact replied _ _ rfl ‹_›
      · exact received

theorem onMessage_sourced {env : Env} {m : Json.Message} {g : Gateway ρ} (h : Always Sourced g.log)
    (he : ∀ sub, m = .sub sub → acknowledged env g sub = true) :
    Always Sourced (onMessage env m g).state.log := by
  have received : Always Sourced (g.push (.received m)).log := ⟨⟨rfl, rfl⟩, h⟩
  cases m with
  | req req =>
    simp only [onMessage, onReq]
    repeat' split
    · exact beginDownload_sourced received
    · exact ⟨⟨rfl, rfl⟩, received⟩
    · exact ⟨⟨rfl, rfl⟩, received⟩
    · exact received
  | sub sub => exact onSub_sourced h (he sub rfl)
  | error | error2 | orders | clearing => exact received
  | ping | ping2 | accounts | subbed | bbo | trade | detail | ticker | mbp | mbpSnapshot =>
    exact ⟨⟨rfl, rfl⟩, received⟩

end DropCopy

/-! ## Responses -/

theorem Unanswered.mono {g g' : Gateway ρ} (h : Unanswered g)
    (hresponse : ∀ w, w ≠ .staleOrders → g'.hasResponse w = false → g.hasResponse w = false)
    (hlog : Grows (fun x => ∀ w, asks w x = false ∧ answers w x = none) g g') : Unanswered g' := by
  obtain ⟨new, hnew, hneither⟩ := hlog
  intro w hw hr
  rw [hnew, proceeding_append fun x hx => hneither x hx w]
  exact h w hw (hresponse w hw hr)

theorem DropCopy.unanswered_closed : DropCopy.Closed (Unanswered : Gateway ρ → Prop) where
  push x s hx h := h.mono (fun _ _ hr => hr) <| .of_cons (x := x) rfl fun w => by
    constructor <;> cases x <;> first | rfl | cases hx
  dropCopy _ _ h := h
  details s l h := fun w hw hr => h w hw (by simpa [Gateway.hasResponse] using hr)
  requestOf w s h := by
    intro v hv hr
    by_cases he : v = w
    · subst he
      exact proceeding_request v s.log
    · have hr' : s.hasResponse v = false := by
        simpa [Gateway.hasResponse, Gateway.requestOf, Request.get_modify_of_ne _ _ he] using hr
      have hasks : asks v (.request w) = false := by simpa [asks] using Ne.symm he
      show proceeding v (.request w :: s.log) = none
      rw [proceeding_cons hasks, h v hv hr']
      rfl

theorem DropCopy.onMessage_unanswered (env : Env) (m : Json.Message) {g : Gateway ρ}
    (h : Unanswered g) : Unanswered (onMessage env m g).state := by
  have received : Unanswered (g.push (.received m)) :=
    h.mono (fun _ _ hr => hr) (.of_cons rfl fun _ => ⟨rfl, rfl⟩)
  cases m with
  | accounts data =>
    exact received.mono (fun _ _ hr => hr) (.of_cons (x := .fundsUpdate _) rfl fun _ => ⟨rfl, rfl⟩)
  | _ => exact unanswered_closed.onMessage env nofun received

namespace OrderEntry

/-- A response at which the process does not stop is put on record. -/
theorem downloadAck_hasResponse {α : Type} (env : Env) (w : Which) (decode : String → Except Exn α)
    (toAck : α → Json.Ack) (onAck : α → Gateway ρ → Gateway ρ) {response : Response}
    (h : response.stops env.assertions = false) (g : Gateway ρ) :
    (downloadAck env w decode toAck onAck response g).state.hasResponse w = true := by
  have committed : ∀ s : Gateway ρ, (s.commit w).hasResponse w = true := fun s => by
    simp [Gateway.hasResponse, Gateway.commit]
  rw [downloadAck_eq]
  cases hv : response.verdict env.assertions decode with
  | stop => cases h.symm.trans ((Response.verdict_stop_iff ..).mp hv)
  | raised | failed | silent | body => exact committed _

theorem onResponse_hasResponse (env : Env) {f : InFlight} {response : Response} {w : Which}
    (hw : f.callback.which = some w) (hstale : w ≠ .staleOrders)
    (h : response.stops env.assertions = false) (g : Gateway ρ) :
    (onResponse env f response g).state.hasResponse w = true := by
  unfold onResponse
  cases hc : f.callback <;> rw [hc] at hw <;> cases hw
  · exact downloadAck_hasResponse env .account _ _ _ h g
  · exact downloadAck_hasResponse env .balances _ _ _ h g
  · exact downloadAck_hasResponse env .openOrders _ _ _ h g
  · exact absurd rfl hstale

end OrderEntry

/-! ## Runs -/

/-- What the download has behind it was done on its own connection. -/
structure Kept (g : Gateway ρ) : Prop where
  sourced : Always Sourced g.log
  answered : Answered g

theorem Other.apart {x : Entry} (h : Other x) : Apart x := by
  obtain ⟨hproceeds, hready⟩ := h.minor
  refine ⟨fun _ => ?_, hready, fun _ _ => ?_⟩
  · cases x with
    | download => cases hproceeds
    | _ => rfl
  · cases x with
    | request => exact h.elim
    | _ => rfl

theorem Unmoved.kept {g g' : Gateway ρ} (h : Unmoved g g') (hg : Kept g) : Kept g' where
  sourced := h.log.always (fun _ _ hx _ => sourced_of_apart hx.apart _) hg.sourced
  answered := hg.answered.mono h.download (h.log.mono fun _ => Other.apart)
    fun w _ hr => h.hasResponse w ▸ hr

theorem Unmoved.unanswered {g g' : Gateway ρ} (h : Unmoved g g') (hg : Unanswered g) :
    Unanswered g' :=
  hg.mono (fun w _ hr => h.hasResponse w ▸ hr) <| h.log.mono fun x hx w => by
    constructor <;> cases x <;> first | rfl | exact hx.elim

omit [LimitRequest ρ] in
/-- A stage is entered on a connection only after its subscription. -/
theorem any_acknowledges {stage : Stage} {w : Which} {channel : String}
    (hsnapshot : snapshot stage = some (w, channel)) {l : List Entry} (h : Always Sourced l)
    (henters : (session l).any (enters stage) = true) :
    (session l).any (acknowledges channel) = true := by
  induction l with
  | nil => cases henters
  | cons x l ih =>
    cases hready : isSocketReady x with
    | true => simp [session, since, hready] at henters
    | false =>
      rw [session, since_cons_neg hready, List.any_cons, Bool.or_eq_true] at henters ⊢
      rcases henters with hx | hl
      · have hstage : x = .download stage := by
          cases x with
          | download s => simpa [enters] using hx
          | _ => cases hx
        subst hstage
        have hfirst := h.1.2
        rw [entersSubscribed, hsnapshot] at hfirst
        exact .inr hfirst
      · exact .inr (ih h.2 hl)

omit [LimitRequest ρ] in
/-- So what was sent since the stage was entered was sent since then. -/
theorem sentSince_acknowledges {stage : Stage} {w : Which} {channel : String}
    (hsnapshot : snapshot stage = some (w, channel)) {id : Nat} {l : List Entry}
    (h : Always Sourced l) (hsent : sentSince (enters stage) id l = true) :
    sentSince (acknowledges channel) id l = true := by
  induction l with
  | nil => cases hsent
  | cons x l ih =>
    cases hready : isSocketReady x with
    | true => simp [sentSince, session, since, hready] at hsent
    | false =>
      cases hx : isRestRequest id x with
      | false =>
        rw [sentSince, session, since_cons_neg hready, List.dropWhile_cons_of_pos (by simp [hx])]
          at hsent ⊢
        exact ih h.2 hsent
      | true =>
        have hnone : ∀ p : Entry → Bool,
            sentSince p id (x :: l) = (session (x :: l)).any p := fun p => by
          rw [sentSince, session, since_cons_neg hready, List.dropWhile_cons_of_neg (by simp [hx])]
        rw [hnone] at hsent ⊢
        exact any_acknowledges hsnapshot h hsent

/-- A response is taken for the one to the request of the snapshot that the
download waits for. -/
def takesSnapshot (g : Gateway ρ) (f : InFlight) : Option Stage :=
  g.dropCopy.download.state.filter fun stage =>
    (snapshot stage).any fun (w, _) => f.callback.which == some w && !g.hasResponse w

theorem onResponse_apart (env : Env) (g : Gateway ρ) (f : InFlight) (response : Response) (i : Nat) :
    Grows Apart (g.answer i f response)
      (OrderEntry.onResponse env f response (g.answer i f response)).state := by
  have ha := OrderEntry.onResponse_answers env f response (g.answer i f response)
  refine ha.log.mono fun x hx => ?_
  refine ⟨fun _ => ?_, ?_, fun _ _ => ?_⟩ <;> generalize f.callback = c at hx <;>
    cases c <;> cases x <;> first | rfl | exact hx.elim

/-- The first response to the request of a stage is fresh if that request was sent
in the stage. -/
theorem fresh_of_taken {g : Gateway ρ} {f : InFlight} (response : Response) {stage : Stage}
    {w : Which} {channel : String} (h : Kept g) (hsnapshot : snapshot stage = some (w, channel))
    (hnone : proceeding w g.log = none) (hwhich : f.callback.which = some w)
    (hsent : sentSince (enters stage) f.id g.log = true) :
    fresh w channel (.answered f response :: g.log) = true := by
  have hfirst : proceeding w (.answered f response :: g.log) = some f := by
    rw [proceeding_cons rfl, hnone]
    simp [answers, hwhich]
  refine (Option.any_eq_true ..).mpr ⟨f, hfirst, ?_⟩
  exact sentSince_cons rfl (sentSince_acknowledges hsnapshot h.sourced hsent)

theorem onResponse_kept {env : Env} {g : Gateway ρ} {f : InFlight} {response : Response} (i : Nat)
    (h : Kept g) (hunanswered : Unanswered g)
    (he : ∀ stage, takesSnapshot g f = some stage → response.stops env.assertions = true ∨
      sentSince (enters stage) f.id g.log = true) :
    Kept (OrderEntry.onResponse env f response (g.answer i f response)).state := by
  have ha := OrderEntry.onResponse_answers env f response (g.answer i f response)
  have replied := onResponse_apart env g f response i
  have answered : Grows Apart g (g.answer i f response) :=
    .of_cons (x := .answered f response) rfl ⟨fun _ => rfl, rfl, fun _ _ => rfl⟩
  refine ⟨(answered.trans replied).always (fun _ _ hx _ => sourced_of_apart hx _) h.sourced, ?_⟩
  intro stage w channel hs hsnapshot hr hsession
  have hstale := ne_staleOrders_of_snapshot hsnapshot
  rw [ha.dropCopy] at hs
  obtain ⟨new, hnew, hapart⟩ := replied
  have hnew' : ∀ x ∈ new, isSocketReady x = false ∧ asks w x = false :=
    fun x hx => ⟨(hapart x hx).2.1, (hapart x hx).2.2 w hstale⟩
  rw [hnew]
  refine fresh_append hnew' ?_
  cases hbefore : g.hasResponse w with
  | true =>
    have keeps : Answered (g.answer i f response) := h.answered.mono rfl answered fun _ _ hr => hr
    refine keeps stage w channel hs hsnapshot hbefore ?_
    rw [hnew, session, since_append fun x hx => (hnew' x hx).1, List.any_append] at hsession
    refine (Bool.or_eq_true_iff.mp hsession).resolve_left fun hany => ?_
    obtain ⟨x, hx, henters⟩ := List.any_eq_true.mp hany
    cases ((hapart x hx).1 stage).symm.trans henters
  | false =>
    -- the response is the first one to the request that the stage waits for
    have hwhich : f.callback.which = some w := by
      by_contra hne
      rw [ha.hasResponse w hne] at hr
      cases hbefore.symm.trans hr
    have hsent : sentSince (enters stage) f.id g.log = true := by
      have htaken : takesSnapshot g f = some stage := by
        change g.dropCopy.download.state = some stage at hs
        simp [takesSnapshot, hs, hsnapshot, hwhich, hbefore]
      refine (he stage htaken).resolve_left fun hstops => ?_
      rw [OrderEntry.onResponse_of_stops env f hstops] at hr
      cases hbefore.symm.trans hr
    exact fresh_of_taken response h hsnapshot (hunanswered w hstale hbefore) hwhich hsent

namespace Gateway

/-- Nothing is taken for the acknowledgement of a subscription or for the response
to a snapshot that is not, and no snapshot is taken over from an earlier
connection. -/
def takesOwn (env : Env) (g : Gateway ρ) : Event → Bool
  | .timer t => !t.socketRefresh || DropCopy.entered g
  | .response i response => g.inFlight[i]?.all fun f =>
    (takesSnapshot g f).all fun stage =>
      response.stops env.assertions || sentSince (enters stage) f.id g.log
  | .text message =>
    match env.parser.delivered message with
    | some (.sub sub) => DropCopy.acknowledged env g sub
    | _ => true
  | _ => true

theorem Leaves.kept {env : Env} {g s : Gateway ρ} {e : Event} (h : Leaves env g s e)
    (he : takesOwn env g e = true) (hunanswered : Unanswered g) (hg : Kept g) : Kept s := by
  obtain hs | ⟨i, response, f, rfl, hf, rfl⟩ | ⟨trace, rfl, rfl⟩ | ⟨t, m, rfl, hm, rfl⟩ |
    ⟨message, m, rfl, hdelivered, rfl⟩ := h.unmoved_or
  · exact hs.kept hg
  · refine onResponse_kept i hg hunanswered fun stage htaken => ?_
    simpa [takesOwn, hf, htaken] using he
  · -- nothing has been entered yet on the new connection
    refine ⟨⟨⟨rfl, rfl⟩, ⟨rfl, rfl⟩, ⟨rfl, rfl⟩, hg.sourced⟩, ?_⟩
    intro stage w channel _ _ _ hsession
    cases hsession
  · have kept := hm.kept hg
    have hentered : t.socketRefresh = true → DropCopy.entered m = true := fun hrefresh => by
      have hbefore : DropCopy.entered g = true := by simpa [takesOwn, hrefresh] using he
      refine DropCopy.entered_iff.mpr fun stage w channel hs hsnapshot hr => ?_
      rw [hm.download] at hs
      rw [hm.hasResponse] at hr
      exact hm.log.any_session (fun _ hx => hx.apart.2.1)
        (DropCopy.entered_iff.mp hbefore stage w channel hs hsnapshot hr)
    exact ⟨DropCopy.onTimer_sourced env t kept.sourced kept.answered hentered,
      DropCopy.onTimer_answered env t kept.answered⟩
  · refine ⟨DropCopy.onMessage_sourced hg.sourced fun sub hsub => ?_,
      DropCopy.onMessage_answered env m hg.answered⟩
    subst hsub
    simpa [takesOwn, hdelivered] using he

theorem Leaves.unanswered {env : Env} {g s : Gateway ρ} {e : Event} (h : Leaves env g s e)
    (he : ∀ i response, e ≠ .response i response) (hg : Unanswered g) : Unanswered s := by
  obtain hs | ⟨i, response, f, rfl, -, -⟩ | ⟨trace, rfl, rfl⟩ | ⟨t, m, rfl, hm, rfl⟩ |
    ⟨message, m, rfl, -, rfl⟩ := h.unmoved_or
  · exact hs.unanswered hg
  · exact absurd rfl (he i response)
  · refine hg.mono (fun _ _ hr => hr)
      ⟨[.socketText (.login _), .dropCopyStatus .loginSent "", .socketReady], rfl, ?_⟩
    simp [asks, answers]
  · exact DropCopy.unanswered_closed.onTimer env t (hm.unanswered hg)
  · exact DropCopy.onMessage_unanswered env m hg

/-- While the process runs, a request without a response has not been answered. -/
theorem unanswered (env : Env) {C : Gateway ρ → Event → Prop} {g : Gateway ρ}
    (h : (machine ρ env).Reach C g) : g.halted = false → Unanswered g := by
  refine h.invariant (I := fun g => g.halted = false → Unanswered g) (fun _ w _ _ => rfl) ?_
  rintro s e s' hs - hstep hrunning
  have before := hs (not_halted_of_step hstep)
  by_cases he : ∃ i response, e = .response i response
  · obtain ⟨i, response, rfl⟩ := he
    obtain ⟨f, hf, rfl⟩ := response_step hstep
    cases hstops : response.stops env.assertions with
    | true =>
      rw [OrderEntry.onResponse_eq_of_stops env f hstops] at hrunning
      cases hrunning
    | false =>
      refine finish_rule (P := Unanswered) (fun _ h => h) fun w hw hr => ?_
      have ha := OrderEntry.onResponse_answers env f response (s.answer i f response)
      obtain ⟨new, hnew, hreplies⟩ := ha.log
      have hwhich : f.callback.which ≠ some w := fun hwhich => by
        cases (OrderEntry.onResponse_hasResponse env hwhich hw hstops _).symm.trans hr
      have hneither : ∀ x ∈ new, asks w x = false ∧ answers w x = none := fun x hx => by
        have hx := hreplies x hx
        generalize f.callback = c at hx
        constructor <;> cases c <;> cases x <;> first | rfl | exact hx.elim
      have hanswer : answers w (.answered f response) = none := by simp [answers, hwhich]
      rw [hnew, proceeding_append hneither]
      show proceeding w (.answered f response :: s.log) = none
      rw [proceeding_cons rfl, hanswer, Option.or_none]
      exact before w hw (ha.hasResponse w hwhich ▸ hr)
  · exact invariant_step (P := Unanswered) (fun _ h => h)
      (fun _ hl => hl.unanswered (fun i response h => he ⟨i, response, h⟩) before) hstep

/-- In runs in which what is taken for a snapshot of a connection is one, the
download leaves both snapshots with a response to a request that was sent after
the subscription was acknowledged on the same connection. -/
theorem snapshots_fresh (env : Env) (g : Gateway ρ)
    (h : (machine ρ env).Reach (fun g e => takesOwn env g e = true) g) : SnapshotsFresh g.log := by
  have kept : Kept g := by
    refine h.invariant_of (I := Kept) (J := fun g => g.halted = false → Unanswered g)
      (fun _ => unanswered env) ⟨trivial, fun _ _ _ hs => nomatch hs⟩ ?_
    intro s e s' hunanswered hs he hstep
    have before := hunanswered (not_halted_of_step hstep)
    exact invariant_step (P := Kept) (fun _ h => ⟨h.sourced, h.answered⟩)
      (fun _ hl => hl.kept he before hs) hstep
  have each : ∀ {l : List Entry}, Always Sourced l → SnapshotsFresh l := fun {l} hl => by
    induction l with
    | nil => trivial
    | cons x l ih => exact ⟨hl.1.1, ih hl.2⟩
  exact each kept.sourced

/-- A download that is answered on its own connection. -/
theorem snapshots_fresh_once : ∃ g : Gateway Reader.Flags,
    g.log.any (enters .getStaleOrders) = true ∧ SnapshotsFresh g.log := by
  obtain ⟨g, hg, hentered⟩ := Machine.exists_reach (M := Reader.flags)
    (C := fun g e => takesOwn Reader.env g e = true)
    (P := fun g => g.log.any (enters .getStaleOrders) = true)
    (Reader.login ++ Reader.download ++ [.timer Reader.tick])
    (by decide +kernel)
  exact ⟨g, hentered, snapshots_fresh Reader.env g hg⟩

/-- The open orders are asked for on one connection, and the response arrives on
the next one, right after its subscription is acknowledged. -/
theorem snapshot_stale : ∃ g : Gateway Reader.Flags,
    Reader.flags.Reachable g ∧ ¬SnapshotsFresh g.log ∧
      g.dropCopy.download.state = some .subscribeTrades :=
  Machine.exists_reach
    (Reader.login ++ Reader.download.dropLast ++
      [.socketDisconnected, .socketReady ⟨1, 1⟩, .text (Reader.authReply 200), .timer Reader.tick,
        .response 1 (Reader.success Reader.accountsBody), .timer Reader.tick,
        .text (Reader.subReply 200 "accounts.update"), .timer Reader.tick,
        .response 1 (Reader.success Reader.balanceBody), .timer Reader.tick,
        .text (Reader.subReply 200 "orders#*"),
        .response 0 (Reader.success Reader.openOrdersBody), .timer Reader.tick])
    (by decide +kernel)

end Gateway

end RoqHtx

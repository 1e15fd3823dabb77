import RoqHtx.Impl.Reader
import RoqHtx.Proof.Stages
import RoqHtx.Proof.Steps

/-!
# The login of the order stream

On a new connection the order stream has to be silent until its login is
accepted, and a download begins only if none is in progress (`Orderly`). Nothing
resets the download when a connection is lost, so this takes runs in which every
connection starts with the download at rest, and no second acceptance arrives
during a download (`startsAfresh`, `orderly_of_startsAfresh`).
`download_survives` is a run in which a download goes on into the next
connection.
-/

namespace RoqHtx

variable {ρ : Type}

/-! ## Connections in a history -/

def isSocketReady : Entry → Bool
  | .socketReady => true
  | _ => false

/-- The reply that the login is accepted. -/
def isAcceptance : Entry → Bool
  | .received message => DropCopy.accepts message
  | _ => false

/-- What has happened since the web socket was last ready. -/
def session (l : List Entry) : List Entry := since isSocketReady l

/-- The login has been accepted on the latest connection. -/
def loggedIn (l : List Entry) : Bool := (session l).any isAcceptance

theorem loggedIn_cons {x : Entry} (hx : isSocketReady x = false) (l : List Entry) :
    loggedIn (x :: l) = (isAcceptance x || loggedIn l) := by
  rw [loggedIn, session, since_cons_neg hx, List.any_cons]
  rfl

theorem loggedIn_received {m : Json.Message} (h : DropCopy.accepts m = true) (g : Gateway ρ) :
    loggedIn (g.push (.received m)).log = true := by
  rw [Gateway.push, loggedIn_cons rfl, isAcceptance, h, Bool.true_or]

/-- What a connection has seen stays seen while no new one is made. -/
theorem any_session_append {p : Entry → Bool} {l new : List Entry}
    (hnew : ∀ x ∈ new, isSocketReady x = false) (h : (session l).any p = true) :
    (session (new ++ l)).any p = true := by
  rw [session, since_append hnew, List.any_append]
  exact Bool.or_eq_true_iff.mpr (.inr h)

theorem Grows.any_session {Q : Entry → Prop} {g g' : Gateway ρ} (h : Grows Q g g')
    (hQ : ∀ x, Q x → isSocketReady x = false) {p : Entry → Bool}
    (hg : (session g.log).any p = true) : (session g'.log).any p = true := by
  obtain ⟨l, hl, hQl⟩ := h
  rw [hl]
  exact any_session_append (fun x hx => hQ x (hQl x hx)) hg

/-! ## The property -/

/-- What the order stream does not do before it is logged in: subscribe, report
that it downloads or is ready, and begin or advance its download. -/
def proceeds : Entry → Bool
  | .socketText (.sub _) | .dropCopyStatus .downloading _ | .dropCopyStatus .ready _
  | .downloadBegin _ | .download _ => true
  | _ => false

/-- An entry is made by a stream that is logged in, if it has to be, and does not
begin a download while one is in progress. -/
def inOrder (before : List Entry) (x : Entry) : Bool :=
  (loggedIn before || !proceeds x) && !(x matches .downloadBegin true)

def Orderly (g : Gateway ρ) : Prop := Always (fun l x => inOrder l x = true) g.log

instance (g : Gateway ρ) : Decidable (Orderly g) :=
  inferInstanceAs (Decidable (Always (fun l x => inOrder l x = true) g.log))

/-- Before the login is accepted, the download is at rest. -/
def Rested (g : Gateway ρ) : Prop := loggedIn g.log = false → g.dropCopy.download.state = none

/-! ## Without a download -/

/-- What needs no login, and is no new connection. -/
def Minor (x : Entry) : Prop := proceeds x = false ∧ isSocketReady x = false

theorem inOrder_of_not_proceeds {x : Entry} (h : proceeds x = false) (l : List Entry) :
    inOrder l x = true := by
  unfold inOrder
  split
  · cases h
  · simp [h]

/-- What leaves a download at rest, and does nothing that needs a login. -/
structure Holds (g g' : Gateway ρ) : Prop where
  download : g.dropCopy.download.state = none → g'.dropCopy.download.state = none
  log : Grows Minor g g'

namespace Holds

theorem refl (g : Gateway ρ) : Holds g g := ⟨id, .refl g⟩

theorem trans {a b c : Gateway ρ} (h : Holds a b) (h' : Holds b c) : Holds a c :=
  ⟨h'.download ∘ h.download, h.log.trans h'.log⟩

theorem push (g : Gateway ρ) {x : Entry} (hx : Minor x) : Holds g (g.push x) :=
  ⟨id, .of_cons rfl hx⟩

theorem rested {g g' : Gateway ρ} (h : Holds g g') (hg : Rested g) : Rested g' := by
  intro hlog
  refine h.download (hg ?_)
  rw [← Bool.not_eq_true] at hlog ⊢
  exact fun hl => hlog (h.log.any_session (fun _ hx => hx.2) hl)

theorem orderly {g g' : Gateway ρ} (h : Holds g g') (hg : Orderly g) : Orderly g' :=
  h.log.always (fun _ _ hx _ => inOrder_of_not_proceeds hx.1 _) hg

end Holds

variable [LimitRequest ρ]

/-- What moves no download, gives it no answer, and does nothing that needs a
login. -/
structure Steady (g g' : Gateway ρ) : Prop where
  download : g'.dropCopy.download = g.dropCopy.download
  hasResponse : ∀ w, g'.hasResponse w = true → g.hasResponse w = true
  log : Grows Minor g g'

theorem Steady.push (g : Gateway ρ) {x : Entry} (hx : Minor x) : Steady g (g.push x) :=
  ⟨rfl, fun _ h => h, .of_cons rfl hx⟩

theorem Steady.holds {g g' : Gateway ρ} (h : Steady g g') : Holds g g' :=
  ⟨fun hg => h.download ▸ hg, h.log⟩

/-- What needs no login, neither asks for anything nor has it answered, and is no
new connection. -/
def Other : Entry → Prop
  | .request _ | .answered _ _ => False
  | x => Minor x

theorem Other.minor {x : Entry} (h : Other x) : Minor x := by
  cases x with
  | request | answered => exact h.elim
  | _ => exact h

/-- What moves no download, and neither asks for anything nor has it answered. -/
structure Unmoved (g g' : Gateway ρ) : Prop where
  download : g'.dropCopy.download = g.dropCopy.download
  hasResponse : ∀ w, g'.hasResponse w = g.hasResponse w
  log : Grows Other g g'

theorem Unmoved.steady {g g' : Gateway ρ} (h : Unmoved g g') : Steady g g' where
  download := h.download
  hasResponse w hw := h.hasResponse w ▸ hw
  log := h.log.mono fun _ => Other.minor

theorem OrderEntry.Sends.unmoved {R : InFlight → Prop} {g g' : Gateway ρ} (h : Sends R g g') :
    Unmoved g g' where
  download := by rw [h.dropCopy]
  hasResponse := h.hasResponse
  log := h.log.mono fun x hx => by
    cases x <;> first | exact ⟨rfl, rfl⟩ | exact hx.elim

theorem OrderEntry.Answers.minor {c : Callback} {g g' : Gateway ρ} (h : Answers c g g') :
    Grows Minor g g' :=
  h.log.mono fun x hx => by
    cases c <;> cases x <;> first | exact ⟨rfl, rfl⟩ | exact hx.elim

namespace DropCopy

theorem checkStaleOrders_steady (env : Env) (t : OrderEntry.Tick) (g : Gateway ρ) :
    Steady g (checkStaleOrders env t g) := by
  have k := checkStaleOrders_keeps (F := fun _ => True) (B := fun _ => True) env t g
  refine ⟨?_, fun w hw => ?_, ?_⟩
  · unfold checkStaleOrders
    split
    · dsimp only
      split <;> rfl
    · rfl
  · rcases k.asked w with ⟨-, h⟩ | ⟨-, h⟩
    · cases h.symm.trans hw
    · exact h ▸ hw
  · unfold checkStaleOrders
    split
    · dsimp only
      split
      · exact .of_cons (x := .request .staleOrders) rfl ⟨rfl, rfl⟩
      · exact .of_eq rfl
    · exact .refl g

theorem onTimer_holds (env : Env) (t : OrderEntry.Tick) {g : Gateway ρ}
    (h : g.dropCopy.download.state = none) : Holds g (onTimer env t g).state := by
  have idle : checkRequestQueue t g = .ok g := by
    unfold checkRequestQueue
    rw [h]
  unfold onTimer
  split
  · rw [idle, Outcome.ok_bind]
    split
    · exact (checkStaleOrders_steady env t g).holds
    · exact .refl g
  · exact .refl g

theorem onMessage_holds (env : Env) {m : Json.Message} (hm : accepts m = false) {g : Gateway ρ}
    (h : g.dropCopy.download.state = none) : Holds g (onMessage env m g).state := by
  have received : Holds g (g.push (.received m)) := .push g ⟨rfl, rfl⟩
  cases m with
  | req req =>
    simp only [onMessage, onReq]
    repeat' split
    · rename_i hch hcode
      simp [accepts, hch, hcode] at hm
    · exact received.trans (.push _ ⟨rfl, rfl⟩)
    · exact received.trans (.push _ ⟨rfl, rfl⟩)
    · exact received
  | sub sub =>
    have idle : ∀ stage, checkDownload stage (g.push (.received (.sub sub))) =
        g.push (.received (.sub sub)) := fun stage => by
      refine checkDownload_of_ne ?_
      show g.dropCopy.download.state ≠ _
      simp [h]
    simp only [onMessage, onSub, idle]
    repeat' split
    all_goals exact received
  | error | error2 | orders | clearing => exact received
  | ping | ping2 | accounts | subbed | bbo | trade | detail | ticker | mbp | mbpSnapshot =>
    exact received.trans (.push _ ⟨rfl, rfl⟩)

/-- Once logged in, the order stream is free to do what it does, but for
beginning a download. -/
theorem Keeps.orderly {F : Fatal → Prop} {g g' : Gateway ρ} (h : Keeps F (· = false) g g')
    (hlog : loggedIn g.log = true) (hg : Orderly g) : Rested g' ∧ Orderly g' := by
  have stays : ∀ {x}, Writes F (· = false) x → isSocketReady x = false := fun {x} hx => by
    cases x <;> first | rfl | exact hx.elim
  refine ⟨fun hl => ?_, h.log.always (fun x pre hx hpre => ?_) hg⟩
  · cases (h.log.any_session (fun _ => stays) hlog).symm.trans hl
  · have : loggedIn (pre ++ g.log) = true := any_session_append (fun y hy => stays (hpre y hy)) hlog
    unfold inOrder
    split
    · cases hx
    · simp [this]

end DropCopy

/-! ## Runs -/

namespace Gateway

/-- A new connection finds the download at rest, and an acceptance that is not
the first one on its connection does so as well. -/
def startsAfresh (env : Env) (g : Gateway ρ) : Event → Bool
  | .socketReady _ => !g.dropCopy.download.downloading
  | .text message =>
    !((env.parser.delivered message).any DropCopy.accepts && loggedIn g.log &&
      g.dropCopy.download.downloading)
  | _ => true

/-- Order entry's events, and the end of a connection, move nothing; a response is
handled by its callback; and the others are the order stream's. -/
theorem Leaves.unmoved_or {env : Env} {g s : Gateway ρ} {e : Event} (h : Leaves env g s e) :
    Unmoved g s ∨
    (∃ i response f, e = .response i response ∧ g.inFlight[i]? = some f ∧
      s = (OrderEntry.onResponse env f response (g.answer i f response)).state) ∨
    (∃ trace, e = .socketReady trace ∧ s = DropCopy.onReady env trace { g with socketUp := true }) ∨
    (∃ t m, e = .timer t ∧ Unmoved g m ∧ s = (DropCopy.onTimer env t m).state) ∨
    (∃ message m, e = .text message ∧ env.parser.delivered message = some m ∧
      s = (DropCopy.onMessage env m g).state) := by
  cases e with
  | restConnected =>
    subst h
    refine .inl ⟨rfl, fun _ => rfl, [.orderEntryStatus .ready, .restConnected], rfl, ?_⟩
    simp [Other, Minor, proceeds, isSocketReady]
  | restDisconnected =>
    subst h
    refine .inl ⟨rfl, fun _ => rfl, [.orderEntryStatus .disconnected, .restDisconnected], rfl, ?_⟩
    simp [Other, Minor, proceeds, isSocketReady]
  | socketReady trace => exact .inr (.inr (.inl ⟨trace, rfl, h.2⟩))
  | socketDisconnected =>
    subst h
    refine .inl ⟨rfl, fun _ => rfl, [.dropCopyStatus .disconnected "", .socketDisconnected], rfl, ?_⟩
    simp [Other, Minor, proceeds, isSocketReady]
  | timer t =>
    have sends := (OrderEntry.onTimer_sends env t g).unmoved
    rcases h with ⟨-, rfl⟩ | ⟨m, ho, rfl⟩
    · exact .inl sends
    · rw [ho] at sends
      exact .inr (.inr (.inr (.inl ⟨t, m, rfl, sends, rfl⟩)))
  | text message =>
    obtain ⟨-, ⟨-, rfl⟩ | ⟨m, hm, rfl⟩⟩ := h
    · exact .inl ⟨rfl, fun _ => rfl, .refl _⟩
    · exact .inr (.inr (.inr (.inr ⟨message, m, rfl, hm, rfl⟩)))
  | response i response =>
    obtain ⟨f, hf, rfl⟩ := h
    exact .inr (.inl ⟨i, response, f, rfl, hf, rfl⟩)
  | createOrder =>
    subst h
    exact .inl (OrderEntry.placeOrder_sends ..).unmoved
  | cancelOrder =>
    subst h
    exact .inl (OrderEntry.cancelOrder_sends ..).unmoved
  | cancelAllOrders =>
    subst h
    exact .inl (OrderEntry.cancelAllOrders_sends ..).unmoved

/-- `unmoved_or`, by what stays where it is. -/
theorem Leaves.steady_or {env : Env} {g s : Gateway ρ} {e : Event} (h : Leaves env g s e) :
    Steady g s ∨
    (∃ i response f, e = .response i response ∧ g.inFlight[i]? = some f ∧
      s = (OrderEntry.onResponse env f response (g.answer i f response)).state) ∨
    (∃ trace, e = .socketReady trace ∧ s = DropCopy.onReady env trace { g with socketUp := true }) ∨
    (∃ t m, e = .timer t ∧ Steady g m ∧ s = (DropCopy.onTimer env t m).state) ∨
    (∃ message m, e = .text message ∧ env.parser.delivered message = some m ∧
      s = (DropCopy.onMessage env m g).state) := by
  obtain hs | hs | hs | ⟨t, m, he, hm, hs⟩ | hs := h.unmoved_or
  · exact .inl hs.steady
  · exact .inr (.inl hs)
  · exact .inr (.inr (.inl hs))
  · exact .inr (.inr (.inr (.inl ⟨t, m, he, hm.steady, hs⟩)))
  · exact .inr (.inr (.inr (.inr hs)))

theorem Leaves.orderly {env : Env} {g s : Gateway ρ} {e : Event} (h : Leaves env g s e)
    (he : startsAfresh env g e = true) (hr : Rested g) (hg : Orderly g) : Rested s ∧ Orderly s := by
  obtain hs | ⟨i, response, f, rfl, -, rfl⟩ | ⟨trace, rfl, rfl⟩ | ⟨t, m, rfl, hm, rfl⟩ |
    ⟨message, m, rfl, hdelivered, rfl⟩ := h.steady_or
  · exact ⟨hs.holds.rested hr, hs.holds.orderly hg⟩
  · have ha := OrderEntry.onResponse_answers env f response (g.answer i f response)
    have answered : Grows Minor g (g.answer i f response) :=
      .of_cons (x := .answered f response) rfl ⟨rfl, rfl⟩
    have hs : Holds g (OrderEntry.onResponse env f response (g.answer i f response)).state :=
      ⟨fun hs => ha.dropCopy ▸ hs, answered.trans ha.minor⟩
    exact ⟨hs.rested hr, hs.orderly hg⟩
  · have idle : g.dropCopy.download.state = none :=
      Download.downloading_eq_false.mp (by simpa [startsAfresh] using he)
    exact ⟨fun _ => idle, inOrder_of_not_proceeds rfl _, inOrder_of_not_proceeds rfl _,
      inOrder_of_not_proceeds rfl _, hg⟩
  · have hrest := hm.holds.rested hr
    have horder := hm.holds.orderly hg
    cases hlog : loggedIn m.log with
    | true =>
      have k := DropCopy.onTimer_keeps (F := fun _ => True) (B := (· = false)) env t (g := m)
        fun _ _ _ => trivial
      exact k.orderly hlog horder
    | false =>
      have hs := DropCopy.onTimer_holds env t (hrest hlog)
      exact ⟨hs.rested hrest, hs.orderly horder⟩
  · cases haccepts : DropCopy.accepts m with
    | false =>
      cases hlog : loggedIn g.log with
      | true =>
        exact (DropCopy.onMessage_keeps (F := fun _ => True) trivial trivial env
          (by simp [haccepts])).orderly hlog hg
      | false =>
        have hs := DropCopy.onMessage_holds env haccepts (hr hlog)
        exact ⟨hs.rested hr, hs.orderly hg⟩
    | true =>
      -- the acceptance is on record before the download begins
      have idle : g.dropCopy.download.downloading = false := by
        cases hlog : loggedIn g.log with
        | true => simpa [startsAfresh, hdelivered, haccepts, hlog] using he
        | false => exact Download.downloading_eq_false.mpr (hr hlog)
      cases m with
      | req req =>
        refine (DropCopy.onReq_keeps (F := fun _ => True) trivial env req fun _ => idle).orderly
          (loggedIn_received haccepts g) ?_
        exact ⟨inOrder_of_not_proceeds rfl _, hg⟩
      | _ => cases haccepts

/-- In runs in which downloads start afresh, the order stream does nothing before
it is logged in, and no download begins while another one is in progress. -/
theorem orderly_of_startsAfresh (env : Env) (g : Gateway ρ)
    (h : (machine ρ env).Reach (fun g e => startsAfresh env g e = true) g) : Orderly g := by
  have init : Rested (machine ρ env).init ∧ Orderly (machine ρ env).init := ⟨fun _ => rfl, trivial⟩
  refine (h.invariant (I := fun g => Rested g ∧ Orderly g) init ?_).2
  rintro s e s' ⟨hr, hs⟩ he hstep
  exact invariant_step (P := fun g => Rested g ∧ Orderly g) (fun _ h => h)
    (fun _ hl => hl.orderly he hr hs) hstep

/-- A first connection gets ready, and a second one logs in and downloads. -/
theorem orderly_twice : ∃ g : Gateway Reader.Flags,
    g.log.countP (fun x => x matches .downloadBegin _) = 2 ∧ Orderly g := by
  obtain ⟨g, hg, htwice⟩ := Machine.exists_reach (M := Reader.flags)
    (C := fun g e => startsAfresh Reader.env g e = true)
    (P := fun g => g.log.countP (fun x => x matches .downloadBegin _) = 2)
    (Reader.login ++ Reader.download ++
      [.timer Reader.tick, .text (Reader.subReply 200 "trade.clearing#*"), .socketDisconnected,
        .socketReady ⟨1, 1⟩, .timer Reader.tick, .text (Reader.authReply 200)])
    (by decide +kernel)
  exact ⟨g, htwice, orderly_of_startsAfresh Reader.env g hg⟩

/-- A download that waits for the accounts when the connection is lost goes on
before the next login is accepted, and is still in progress when the next one
begins. -/
theorem download_survives : ∃ g : Gateway Reader.Flags,
    Reader.flags.Reachable g ∧ ¬Orderly g ∧
      ¬Always (fun l x => (loggedIn l || !proceeds x) = true) g.log ∧
      g.log.any (fun x => x matches .downloadBegin true) = true :=
  Machine.exists_reach
    (Reader.login ++
      [.timer Reader.tick, .socketDisconnected, .socketReady ⟨1, 1⟩,
        .response 0 (Reader.success Reader.accountsBody), .timer Reader.tick,
        .text (Reader.authReply 200)])
    (by decide +kernel)

end Gateway

end RoqHtx

import RoqHtx.Impl.System

/-!
# What the order stream leaves alone

`DropCopy` never touches `OrderEntry` or what is in flight, and its history
grows by entries of its own (`DropCopy.Keeps`). Invariants over runs use this
instead of the definitions, or the rules for its handlers.
-/

namespace RoqHtx

variable {ρ : Type}

/-! ## Histories that grow -/

/-- `g'` has the history of `g` and more, all of it in `Q`. -/
def Grows (Q : Entry → Prop) (g g' : Gateway ρ) : Prop :=
  ∃ new, g'.log = new ++ g.log ∧ ∀ x ∈ new, Q x

namespace Grows

variable {Q R : Entry → Prop} {g g' g'' : Gateway ρ}

theorem refl (g : Gateway ρ) : Grows Q g g := ⟨[], rfl, by simp⟩

theorem of_eq (h : g'.log = g.log) : Grows Q g g' := ⟨[], h, by simp⟩

theorem of_cons {x : Entry} (h : g'.log = x :: g.log) (hx : Q x) : Grows Q g g' :=
  ⟨[x], h, by simpa using hx⟩

theorem trans (h : Grows Q g g') (h' : Grows Q g' g'') : Grows Q g g'' := by
  obtain ⟨l, hl, hQ⟩ := h
  obtain ⟨l', hl', hQ'⟩ := h'
  refine ⟨l' ++ l, by rw [hl', hl, List.append_assoc], fun x hx => ?_⟩
  exact (List.mem_append.mp hx).elim (hQ' x) (hQ x)

theorem mono (h : Grows Q g g') (hQR : ∀ x, Q x → R x) : Grows R g g' := by
  obtain ⟨l, hl, hQ⟩ := h
  exact ⟨l, hl, fun x hx => hQR x (hQ x hx)⟩

theorem and (h : Grows Q g g') (h' : Grows R g g') : Grows (fun x => Q x ∧ R x) g g' := by
  obtain ⟨l, hl, hQ⟩ := h
  obtain ⟨l', hl', hR⟩ := h'
  rw [List.append_cancel_right (hl'.symm.trans hl)] at hR
  exact ⟨l, hl, fun x hx => ⟨hQ x hx, hR x hx⟩⟩

theorem always {P : List Entry → Entry → Prop} (h : Grows Q g g')
    (hQ : ∀ x pre, Q x → (∀ y ∈ pre, Q y) → P (pre ++ g.log) x) (hg : Always P g.log) :
    Always P g'.log := by
  obtain ⟨l, hl, hl'⟩ := h
  rw [hl]
  exact hg.append hQ hl'

theorem of_always {P : List Entry → Entry → Prop} (h : Grows Q g g') (hg : Always P g'.log) :
    Always P g.log := by
  obtain ⟨l, hl, -⟩ := h
  rw [hl] at hg
  exact hg.of_append

theorem mem_iff {x : Entry} (h : Grows Q g g') (hx : ¬Q x) : x ∈ g'.log ↔ x ∈ g.log := by
  obtain ⟨l, hl, hl'⟩ := h
  rw [hl, List.mem_append]
  exact or_iff_right fun hl => hx (hl' x hl)

end Grows

/-- What happens from `g` to `g'` makes this entry. -/
def Logs (x : Entry) (g g' : Gateway ρ) : Prop := ∃ new, g'.log = new ++ g.log ∧ x ∈ new

theorem not_logs_of_eq {g g' : Gateway ρ} {x : Entry} (h : g'.log = g.log) : ¬Logs x g g' := by
  rintro ⟨l, hl, hx⟩
  rw [h, List.self_eq_append_left] at hl
  rw [hl] at hx
  cases hx

theorem logs_iff_of_cons {g g' : Gateway ρ} {x y : Entry} (h : g'.log = y :: g.log) :
    Logs x g g' ↔ x = y := by
  constructor
  · rintro ⟨l, hl, hx⟩
    rw [h, ← List.singleton_append] at hl
    rw [← List.append_cancel_right hl] at hx
    exact List.mem_singleton.mp hx
  · rintro rfl
    exact ⟨[x], h, List.mem_singleton_self x⟩

theorem Grows.of_logs {Q : Entry → Prop} {g g' : Gateway ρ} {x : Entry} (h : Grows Q g g')
    (hx : Logs x g g') : Q x := by
  obtain ⟨l, hl, hQ⟩ := h
  obtain ⟨l', hl', hx⟩ := hx
  rw [hl] at hl'
  exact hQ x (List.append_cancel_right hl' ▸ hx)

namespace DropCopy

/-! ## Handlers

What holds in every case of a handler holds after it. -/

section Handlers

variable [LimitRequest ρ] {P : Gateway ρ → Prop} {g : Gateway ρ}

theorem checkRequestQueue_rule {t : OrderEntry.Tick}
    (hcheck : ∀ stage, g.dropCopy.download.state = some stage → P (checkDownload stage g))
    (hfound : g.dropCopy.download.state = some .getOpenOrders →
      P (checkDownload .getOpenOrders (findStaleOrders t g).2))
    (hfatal : g.dropCopy.download.state = some .getStaleOrders →
      g.hasResponse .staleOrders = true → g.request.detailsStaleOrders ≠ [] →
      P (g.push (.fatal .staleOrders)))
    (hg : P g) : P (checkRequestQueue t g).state := by
  unfold checkRequestQueue
  split
  · rename_i hs
    split
    · exact hcheck .getAccount hs
    · exact hg
  · rename_i hs
    split
    · exact hcheck .getBalances hs
    · exact hg
  · rename_i hs
    split
    · exact hfound hs
    · exact hg
  · rename_i hs
    split
    · rename_i hr
      split
      · exact hfatal hs hr ‹_›
      · exact hcheck .getStaleOrders hs
    · exact hg
  all_goals exact hg

theorem onTimer_rule {env : Env} {t : OrderEntry.Tick} (hqueue : P (checkRequestQueue t g).state)
    (hstale : ∀ s, P s → P (checkStaleOrders env t s)) (hg : P g) :
    P (onTimer env t g).state := by
  unfold onTimer
  split
  · refine Outcome.state_bind hqueue fun s hs => ?_
    split
    · exact hstale s hs
    · exact hs
  · exact hg

/-- The reply that a login is accepted. -/
def accepts : Json.Message → Bool
  | .req req => req.ch == "auth" && req.code == 200
  | _ => false

theorem onReq_rule {env : Env} {req : Json.Req} (hbegin : accepts (.req req) = true → P (beginDownload g))
    (hclose : P (g.push .socketClose)) (hfatal : P (g.push (.fatal .logon))) (hg : P g) :
    P (onReq env req g).state := by
  unfold onReq
  repeat' split
  · rename_i hch hcode
    exact hbegin (by simp [accepts, hch, hcode])
  · exact hclose
  · exact hfatal
  · exact hg

theorem onSub_rule {env : Env} {sub : Json.Sub} (hcheck : ∀ stage, P (checkDownload stage g))
    (hg : P g) : P (onSub env sub g) := by
  unfold onSub
  dsimp only
  repeat' split
  all_goals first | exact hcheck _ | exact hg

/-- A message is received, and then acted on. -/
theorem onMessage_rule {env : Env} {m : Json.Message}
    (hreq : ∀ req, m = .req req → P (onReq env req (g.push (.received m))).state)
    (hcheck : ∀ stage, P (checkDownload stage (g.push (.received m))))
    (htext : ∀ text, P ((g.push (.received m)).push (.socketText text)))
    (hfunds : ∀ data, m = .accounts data →
      P ((g.push (.received m)).push (.fundsUpdate (fundsUpdate data))))
    (hfatal : P ((g.push (.received m)).push (.fatal .message)))
    (hreceived : P (g.push (.received m))) : P (onMessage env m g).state := by
  cases m with
  | req req => exact hreq req rfl
  | sub sub => exact onSub_rule hcheck hreceived
  | accounts data => exact hfunds data rfl
  | error | error2 | orders | clearing => exact hreceived
  | ping | ping2 => exact htext _
  | subbed | bbo | trade | detail | ticker | mbp | mbpSnapshot => exact hfatal

end Handlers

/-! ## The order stream -/

/-- The entries of the order stream, which may end the process at the sites in
`F`, and begin a download that is at rest or in progress as `B` says. -/
def Writes (F : Fatal → Prop) (B : Bool → Prop) : Entry → Prop
  | .received _ | .socketText _ | .socketClose | .dropCopyStatus _ _ | .fundsUpdate _
  | .request _ | .download _ => True
  | .downloadBegin downloading => B downloading
  | .fatal site => F site
  | _ => False

variable {F : Fatal → Prop} {B : Bool → Prop} [LimitRequest ρ]

/-- A request is either asked for anew or left alone. -/
def Asked (w : Which) (g g' : Gateway ρ) : Prop :=
  g'.wanted w = true ∧ g'.hasResponse w = false ∨
    g'.wanted w = g.wanted w ∧ g'.hasResponse w = g.hasResponse w

/-- What the order stream leaves alone. -/
structure Keeps (F : Fatal → Prop) (B : Bool → Prop) (g g' : Gateway ρ) : Prop where
  orderEntry : g'.orderEntry = g.orderEntry
  inFlight : g'.inFlight = g.inFlight
  nextId : g'.nextId = g.nextId
  batch : g'.batch = g.batch
  socketUp : g'.socketUp = g.socketUp
  asked : ∀ w, Asked w g g'
  log : Grows (Writes F B) g g'

namespace Keeps

theorem refl (g : Gateway ρ) : Keeps F B g g :=
  ⟨rfl, rfl, rfl, rfl, rfl, fun _ => .inr ⟨rfl, rfl⟩, .refl g⟩

theorem trans {a b c : Gateway ρ} (h : Keeps F B a b) (h' : Keeps F B b c) : Keeps F B a c where
  orderEntry := h'.orderEntry.trans h.orderEntry
  inFlight := h'.inFlight.trans h.inFlight
  nextId := h'.nextId.trans h.nextId
  batch := h'.batch.trans h.batch
  socketUp := h'.socketUp.trans h.socketUp
  asked w := (h'.asked w).elim .inl fun h' => (h.asked w).elim
    (fun h => .inl ⟨h'.1.trans h.1, h'.2.trans h.2⟩)
    (fun h => .inr ⟨h'.1.trans h.1, h'.2.trans h.2⟩)
  log := h.log.trans h'.log

/-- A piece that touches the stream's own state only. -/
theorem of_eq {g : Gateway ρ} {dropCopy : DropCopyState} :
    Keeps F B g { g with dropCopy } :=
  ⟨rfl, rfl, rfl, rfl, rfl, fun _ => .inr ⟨rfl, rfl⟩, .of_eq rfl⟩

theorem push (g : Gateway ρ) {x : Entry} (hx : Writes F B x) : Keeps F B g (g.push x) :=
  ⟨rfl, rfl, rfl, rfl, rfl, fun _ => .inr ⟨rfl, rfl⟩, .of_cons rfl hx⟩

end Keeps

theorem publish_keeps (status : ConnectionStatus) (reason : String) (g : Gateway ρ) :
    Keeps F B g (publish status reason g) :=
  ⟨rfl, rfl, rfl, rfl, rfl, fun _ => .inr ⟨rfl, rfl⟩, .of_cons rfl trivial⟩

theorem sendText_keeps (text : SocketText) (g : Gateway ρ) : Keeps F B g (sendText text g) :=
  .push g trivial

theorem setDownload_keeps (r : Download Stage.all × Gateway ρ) : Keeps F B r.2 (setDownload r) := .of_eq

theorem findStaleOrders_keeps (t : OrderEntry.Tick) (g : Gateway ρ) :
    Keeps F B g (findStaleOrders t g).2 :=
  ⟨rfl, rfl, rfl, rfl, rfl, fun _ => .inr (by simp [findStaleOrders, Gateway.wanted,
    Gateway.hasResponse]), .of_eq rfl⟩

theorem requestOf_keeps (w : Which) (g : Gateway ρ) : Keeps F B g (g.requestOf w) where
  orderEntry := rfl
  inFlight := rfl
  nextId := rfl
  batch := rfl
  socketUp := rfl
  asked v := by
    by_cases h : v = w
    · subst h
      exact .inl (by simp [Gateway.wanted, Gateway.hasResponse, Gateway.requestOf])
    · exact .inr (by simp [Gateway.wanted, Gateway.hasResponse, Gateway.requestOf,
        Request.get_modify_of_ne _ _ h])
  log := .of_cons rfl trivial

theorem download_keeps (stage : Stage) (g : Gateway ρ) : Keeps F B g (download stage g).2 := by
  have enter : Keeps F B g (g.push (.download stage)) := .push g trivial
  have publishing := fun status reason => enter.trans (publish_keeps status reason _)
  cases stage with
  | getAccount | getBalances | getOpenOrders =>
    exact (publishing _ _).trans (requestOf_keeps _ _)
  | subscribeBalances | subscribeOrders | subscribeTrades =>
    exact (publishing _ _).trans (sendText_keeps _ _)
  | getStaleOrders =>
    simp only [download]
    split
    · exact enter
    · exact (publishing _ _).trans (requestOf_keeps _ _)
  | done => exact publishing _ _

theorem visit_keeps (g : Gateway ρ) (l : List Stage) : Keeps F B g (Download.visit download l g).2 :=
  Download.visit_state (P := Keeps F B g) (fun stage s h => h.trans (download_keeps stage s)) (.refl g)

theorem beginDownload_keeps {g : Gateway ρ} (hB : B g.dropCopy.download.downloading) :
    Keeps F B g (beginDownload g) := by
  have entry : Keeps F B g (g.push (.downloadBegin g.dropCopy.download.downloading)) :=
    .push g hB
  refine (entry.trans (visit_keeps _ Stage.all)).trans ?_
  exact setDownload_keeps (Download.begin download _)

theorem checkDownload_keeps (stage : Stage) (g : Gateway ρ) : Keeps F B g (checkDownload stage g) := by
  refine Keeps.trans ?_ (setDownload_keeps _)
  unfold Download.check
  split
  · exact visit_keeps g _
  · exact .refl g

theorem checkStaleOrders_keeps (env : Env) (t : OrderEntry.Tick) (g : Gateway ρ) :
    Keeps F B g (checkStaleOrders env t g) := by
  unfold checkStaleOrders
  split
  · have found := (Keeps.of_eq (F := F) (B := B)).trans (findStaleOrders_keeps t { g with dropCopy :=
      { g.dropCopy with nextCheckStaleOrders :=
          t.trace.originCreateTime + env.settings.checkStaleOrderFreq } })
    dsimp only
    split
    · exact found.trans (requestOf_keeps _ _)
    · exact found
  · exact .refl g

theorem onTimer_keeps (env : Env) (t : OrderEntry.Tick) {g : Gateway ρ}
    (hF : g.dropCopy.download.state = some .getStaleOrders → g.hasResponse .staleOrders = true →
      g.request.detailsStaleOrders ≠ [] → F .staleOrders) :
    Keeps F B g (onTimer env t g).state := by
  have queue : Keeps F B g (checkRequestQueue t g).state :=
    checkRequestQueue_rule (P := Keeps F B g) (fun stage _ => checkDownload_keeps stage g)
      (fun _ => (findStaleOrders_keeps t g).trans (checkDownload_keeps _ _))
      (fun hs hr hd => .push g (hF hs hr hd)) (.refl g)
  exact onTimer_rule queue (fun s hs => hs.trans (checkStaleOrders_keeps env t s)) (.refl g)

theorem onReq_keeps (hF : F .logon) (env : Env) (req : Json.Req) {g : Gateway ρ}
    (hB : accepts (.req req) = true → B g.dropCopy.download.downloading) :
    Keeps F B g (onReq env req g).state :=
  onReq_rule (P := Keeps F B g) (fun ha => beginDownload_keeps (hB ha)) (.push g trivial) (.push g hF)
    (.refl g)

theorem onMessage_keeps (hlogon : F .logon) (hmessage : F .message) (env : Env)
    {message : Json.Message} {g : Gateway ρ}
    (hB : accepts message = true → B g.dropCopy.download.downloading) :
    Keeps F B g (onMessage env message g).state := by
  have received : Keeps F B g (g.push (.received message)) := .push g trivial
  refine onMessage_rule (P := Keeps F B g) (fun req hm => ?_)
    (fun stage => received.trans (checkDownload_keeps stage _)) (fun _ => received.trans (.push _ trivial))
    (fun _ _ => received.trans (.push _ trivial)) (received.trans (.push _ hmessage)) received
  exact received.trans (onReq_keeps hlogon env req fun ha => hB (hm ▸ ha))

/-- Whatever the timer finds. -/
theorem onTimer_keeps' (env : Env) (t : OrderEntry.Tick) (g : Gateway ρ) :
    Keeps (fun _ => True) (fun _ => True) g (onTimer env t g).state :=
  onTimer_keeps env t fun _ _ _ => trivial

/-- Whatever the message is. -/
theorem onMessage_keeps' (env : Env) (message : Json.Message) (g : Gateway ρ) :
    Keeps (fun _ => True) (fun _ => True) g (onMessage env message g).state :=
  onMessage_keeps trivial trivial env fun _ => trivial

end DropCopy

end RoqHtx

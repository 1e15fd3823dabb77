import RoqHtx.Proof.Frame

/-!
# Walks through the stages

`beginDownload` and `checkDownload` either leave the download where it is or
walk to the next stage that waits. Where a walk ends, what the stage asked order
entry for is wanted and has no response yet (`Waits`).
-/

namespace RoqHtx.DropCopy

variable {ρ : Type} [LimitRequest ρ]

/-- What a stage asks order entry for. -/
def requested : Stage → Option Which
  | .getAccount => some .account
  | .getBalances => some .balances
  | .getOpenOrders => some .openOrders
  | .getStaleOrders => some .staleOrders
  | .subscribeBalances | .subscribeOrders | .subscribeTrades | .done => none

/-- The request of the stage the download waits in is wanted, and has no
response yet. -/
def Waits (g : Gateway ρ) : Prop :=
  ∀ stage w, g.dropCopy.download.state = some stage → requested stage = some w →
    g.wanted w = true ∧ g.hasResponse w = false

theorem requestOf_waits (w : Which) (g : Gateway ρ) :
    (g.requestOf w).wanted w = true ∧ (g.requestOf w).hasResponse w = false := by
  simp [Gateway.wanted, Gateway.hasResponse, Gateway.requestOf]

theorem download_waits {stage : Stage} {g : Gateway ρ} (h : (download stage g).1 ≠ 0) {w : Which}
    (hw : requested stage = some w) :
    (download stage g).2.wanted w = true ∧ (download stage g).2.hasResponse w = false := by
  cases stage with
  | getAccount | getBalances | getOpenOrders =>
    cases hw
    exact requestOf_waits _ _
  | getStaleOrders =>
    cases hw
    simp only [download] at h ⊢
    split at h
    · exact absurd rfl h
    · rename_i hd
      rw [if_neg hd]
      exact requestOf_waits _ _
  | subscribeBalances | subscribeOrders | subscribeTrades | done => cases hw

theorem visit_waits (l : List Stage) (g : Gateway ρ) (stage : Stage) (w : Which)
    (hs : (Download.visit download l g).1.head? = some stage) (hw : requested stage = some w) :
    (Download.visit download l g).2.wanted w = true ∧
      (Download.visit download l g).2.hasResponse w = false := by
  refine Download.visit_rule (I := fun _ _ => True)
    (J := fun l (g : Gateway ρ) => ∀ stage w, l.head? = some stage → requested stage = some w →
      g.wanted w = true ∧ g.hasResponse w = false)
    (fun _ _ _ _ _ => trivial) ?_ ?_ trivial stage w hs hw
  · intro stage rest g _ hwait _ w hs hw
    cases hs
    exact download_waits hwait hw
  · intro g _ stage w hs
    cases hs

theorem beginDownload_waits (g : Gateway ρ) : Waits (beginDownload g) :=
  fun stage w hs hw => visit_waits Stage.all _ stage w hs hw

theorem checkDownload_of_ne {stage : Stage} {g : Gateway ρ}
    (h : g.dropCopy.download.state ≠ some stage) : checkDownload stage g = g := by
  rw [checkDownload, Download.check, if_neg h]
  rfl

theorem checkDownload_waits {stage : Stage} {g : Gateway ρ}
    (h : g.dropCopy.download.state = some stage) : Waits (checkDownload stage g) := by
  intro stage' w hs hw
  rw [checkDownload, Download.check, if_pos h] at hs ⊢
  exact visit_waits _ g stage' w hs hw

/-- The entries that the order stream makes of its own accord. -/
def Own : Entry → Prop
  | .dropCopyStatus _ _ | .socketText _ | .socketClose | .downloadBegin _ | .download _
  | .fatal _ => True
  | _ => False

/-- The entries of a message that has arrived, and of what is done with it or with
a timer but for the download. -/
def Pushed : Entry → Prop
  | .received _ | .fundsUpdate _ | .socketText _ | .socketClose | .fatal _ => True
  | _ => False

/-! ## Rules

A property that holds wherever the download waits, and that the history does not
touch, is kept by everything the order stream does. -/

section Rules

variable {P : Gateway ρ → Prop} (hwaits : ∀ s, Waits s → P s)

include hwaits

theorem checkDownload_waiting (stage : Stage) {g : Gateway ρ} (hg : P g) :
    P (checkDownload stage g) := by
  by_cases h : g.dropCopy.download.state = some stage
  · exact hwaits _ (checkDownload_waits h)
  · rwa [checkDownload_of_ne h]

variable (hpush : ∀ x s, Pushed x → P s → P (s.push x))

include hpush

theorem onTimer_waiting {env : Env} {t : OrderEntry.Tick}
    (hcheck : ∀ s, P s → P (checkStaleOrders env t s)) {g : Gateway ρ} (hg : P g) :
    P (onTimer env t g).state := by
  have queue : P (checkRequestQueue t g).state :=
    checkRequestQueue_rule (fun stage _ => checkDownload_waiting hwaits stage hg)
      (fun hs => hwaits _ (checkDownload_waits (g := (findStaleOrders t g).2) hs))
      (fun _ _ _ => hpush (.fatal _) g trivial hg) hg
  exact onTimer_rule queue hcheck hg

theorem onMessage_waiting (env : Env) (m : Json.Message) {g : Gateway ρ} (hg : P g) :
    P (onMessage env m g).state := by
  have received : P (g.push (.received m)) := hpush (.received m) g trivial hg
  refine onMessage_rule (fun req _ => ?_) (fun stage => checkDownload_waiting hwaits stage received)
    (fun text => hpush (.socketText text) _ trivial received)
    (fun _ _ => hpush (.fundsUpdate _) _ trivial received) (hpush (.fatal _) _ trivial received) received
  exact onReq_rule (fun _ => hwaits _ (beginDownload_waits _)) (hpush .socketClose _ trivial received)
    (hpush (.fatal _) _ trivial received) received

end Rules

/-! ## Pieces

Everything the order stream does is composed of a few pieces, so a property that
each of them keeps is kept by the whole. -/

/-- A property that every piece keeps. -/
structure Closed (P : Gateway ρ → Prop) : Prop where
  push : ∀ x s, Own x → P s → P (s.push x)
  dropCopy : ∀ (s : Gateway ρ) (dropCopy : DropCopyState), P s → P { s with dropCopy }
  details : ∀ (s : Gateway ρ) (l : List Key), P s →
    P { s with request := { s.request with detailsStaleOrders := l } }
  requestOf : ∀ w s, P s → P (s.requestOf w)

namespace Closed

variable {P : Gateway ρ → Prop} (h : Closed P)

include h

theorem publish (status : ConnectionStatus) (reason : String) {g : Gateway ρ} (hg : P g) :
    P (publish status reason g) :=
  h.push (.dropCopyStatus status reason) _ trivial
    (h.dropCopy g { g.dropCopy with connectionStatus := status } hg)

theorem download (stage : Stage) {g : Gateway ρ} (hg : P g) : P (download stage g).2 := by
  have entered : P (g.push (.download stage)) := h.push _ g trivial hg
  have publishing := fun reason => h.publish .downloading reason entered
  cases stage with
  | getAccount | getBalances | getOpenOrders => exact h.requestOf _ _ (publishing _)
  | subscribeBalances | subscribeOrders | subscribeTrades =>
    exact h.push (.socketText _) _ trivial (publishing _)
  | getStaleOrders =>
    simp only [DropCopy.download]
    split
    · exact entered
    · exact h.requestOf _ _ (publishing _)
  | done => exact h.publish .ready "" entered

theorem visit (l : List Stage) {g : Gateway ρ} (hg : P g) :
    P (Download.visit DropCopy.download l g).2 :=
  Download.visit_state (fun stage _ => h.download stage) hg

theorem beginDownload {g : Gateway ρ} (hg : P g) : P (beginDownload g) :=
  h.dropCopy _ _ (h.visit Stage.all (h.push (.downloadBegin _) g trivial hg))

theorem checkDownload (stage : Stage) {g : Gateway ρ} (hg : P g) : P (checkDownload stage g) := by
  refine h.dropCopy _ _ ?_
  unfold Download.check
  split
  · exact h.visit _ hg
  · exact hg

theorem findStaleOrders (t : OrderEntry.Tick) {g : Gateway ρ} (hg : P g) :
    P (findStaleOrders t g).2 :=
  h.details g _ hg

theorem checkStaleOrders (env : Env) (t : OrderEntry.Tick) {g : Gateway ρ} (hg : P g) :
    P (checkStaleOrders env t g) := by
  unfold DropCopy.checkStaleOrders
  split
  · have found := h.findStaleOrders t (h.dropCopy g { g.dropCopy with
      nextCheckStaleOrders := t.trace.originCreateTime + env.settings.checkStaleOrderFreq } hg)
    dsimp only
    split
    · exact h.requestOf _ _ found
    · exact found
  · exact hg

theorem onTimer (env : Env) (t : OrderEntry.Tick) {g : Gateway ρ} (hg : P g) :
    P (onTimer env t g).state := by
  have queue : P (checkRequestQueue t g).state :=
    checkRequestQueue_rule (fun stage _ => h.checkDownload stage hg)
      (fun _ => h.checkDownload _ (h.findStaleOrders t hg))
      (fun _ _ _ => h.push (.fatal _) g trivial hg) hg
  exact onTimer_rule queue (fun _ hs => h.checkStaleOrders env t hs) hg

/-- A message that brings no balance is received, and then acted on. -/
theorem onMessage (env : Env) {m : Json.Message} {g : Gateway ρ}
    (hm : ∀ data, m ≠ .accounts data) (hg : P (g.push (.received m))) :
    P (onMessage env m g).state := by
  refine onMessage_rule (fun req _ => ?_) (fun stage => h.checkDownload stage hg)
    (fun text => h.push (.socketText text) _ trivial hg) (fun data hdata => absurd hdata (hm data))
    (h.push (.fatal _) _ trivial hg) hg
  exact onReq_rule (fun _ => h.beginDownload hg) (h.push .socketClose _ trivial hg)
    (h.push (.fatal _) _ trivial hg) hg

end Closed

end RoqHtx.DropCopy

import RoqHtx.Framework.Simulation
import RoqHtx.Proof.Answers
import RoqHtx.Proof.Stages
import RoqHtx.Proof.Steps

/-!
# A pass that asks for no order stalls

The stage for stale orders waits for the answers to the requests that order entry
makes for them, one for each order that the dispatcher still finds. If it finds
none, no request is made, and no answer can come: until another login is accepted
the order stream does not get ready, whatever else happens (`Gateway.stalls`).
-/

namespace RoqHtx

namespace DropCopy

open OrderEntry (Tick)

variable {ρ : Type}

/-- The stage for stale orders waits, and nothing that it waits for is asked for or
in flight. -/
structure Stalled [LimitRequest ρ] (g : Gateway ρ) : Prop where
  state : g.dropCopy.download.state = some .getStaleOrders
  ready : ready g = false
  wanted : g.wanted .staleOrders = false
  unanswered : g.hasResponse .staleOrders = false
  inFlight : ∀ f ∈ g.inFlight, f.callback.isGetOrder = false

variable [LimitRequest ρ] {env : Env} {g g' : Gateway ρ}

namespace Stalled

/-- Order entry's own work. -/
theorem of_sends {R : InFlight → Prop} (h : Stalled g) (hg : OrderEntry.Sends R g g')
    (hR : ∀ f, R f → f.callback.isGetOrder = false) : Stalled g' where
  state := by
    rw [hg.dropCopy]
    exact h.state
  ready := by
    rw [DropCopy.ready, hg.dropCopy]
    exact h.ready
  wanted := Bool.eq_false_iff.mpr fun hw => Bool.eq_false_iff.mp h.wanted (hg.wanted _ hw)
  unanswered := (hg.hasResponse _).trans h.unanswered
  inFlight f hf := by
    obtain ⟨new, hnew, hall⟩ := hg.inFlight
    rw [hnew] at hf
    exact (List.mem_append.mp hf).elim (h.inFlight f) fun hf => hR f (hall f hf)

theorem of_answers {f : InFlight} (h : Stalled g) (hf : f.callback.isGetOrder = false)
    (hg : OrderEntry.Answers f.callback g g') : Stalled g' where
  state := by
    rw [hg.dropCopy]
    exact h.state
  ready := by
    rw [DropCopy.ready, hg.dropCopy]
    exact h.ready
  wanted := (hg.wanted _).trans h.wanted
  unanswered := (hg.hasResponse _ (Callback.which_ne_staleOrders hf)).trans h.unanswered
  inFlight := hg.inFlight ▸ h.inFlight

theorem push (h : Stalled g) (x : Entry) : Stalled (g.push x) :=
  ⟨h.state, h.ready, h.wanted, h.unanswered, h.inFlight⟩

theorem publish (h : Stalled g) (status : ConnectionStatus) (hstatus : status ≠ .ready)
    (reason : String) : Stalled (publish status reason g) :=
  ⟨h.state, beq_eq_false_iff_ne.mpr hstatus, h.wanted, h.unanswered, h.inFlight⟩

/-- A check of any other stage. -/
theorem checkDownload (h : Stalled g) {stage : Stage} (hstage : stage ≠ .getStaleOrders) :
    Stalled (checkDownload stage g) := by
  rw [checkDownload_of_ne fun hs => hstage (Option.some.inj (hs.symm.trans h.state))]
  exact h

/-- The order stream's part of a timer does nothing. -/
theorem onTimer (h : Stalled g) (t : Tick) : onTimer env t g = .ok g := by
  have hqueue : checkRequestQueue t g = .ok g := by
    unfold checkRequestQueue
    rw [h.state]
    dsimp only
    rw [h.unanswered]
    rfl
  unfold DropCopy.onTimer
  split
  · rw [hqueue, Outcome.ok_bind, h.ready]
    rfl
  · rfl

theorem onSub (h : Stalled g) (sub : Json.Sub) : Stalled (onSub env sub g) := by
  unfold DropCopy.onSub
  dsimp only
  repeat' split
  · exact h.checkDownload nofun
  · exact h.checkDownload nofun
  · exact h.checkDownload nofun
  · exact h

/-- Any message but the reply that accepts a login. -/
theorem onMessage (h : Stalled g) {m : Json.Message} (hm : accepts m = false) :
    Stalled (onMessage env m g).state := by
  have received : Stalled (g.push (.received m)) := h.push _
  cases m with
  | req req =>
    exact onReq_rule (fun ha => absurd (ha.symm.trans hm) (by decide)) (received.push _)
      (received.push _) received
  | sub sub => exact received.onSub sub
  | accounts | ping | ping2 => exact received.push _
  | error | error2 | orders | clearing => exact received
  | subbed | bbo | trade | detail | ticker | mbp | mbpSnapshot => exact received.push _

end Stalled

end DropCopy

namespace Gateway

open DropCopy (Stalled accepts)

variable {ρ : Type} [LimitRequest ρ] {env : Env} {g g' : Gateway ρ}

/-- An event by which no login is accepted. -/
def AcceptsNoLogin (env : Env) : Event → Prop
  | .text members => ∀ m, env.parser.delivered members = some m → accepts m = false
  | _ => True

theorem stalled_step {e : Event} (he : AcceptsNoLogin env e) (hstep : step env g e = some g')
    (h : Stalled g) : Stalled g' := by
  refine invariant_step (P := Stalled) (fun _ h => ⟨h.1, h.2, h.3, h.4, h.5⟩) (fun s hleaves => ?_)
    hstep
  cases e with
  | restConnected | restDisconnected =>
    exact hleaves ▸ ⟨h.state, h.ready, h.wanted, h.unanswered, h.inFlight⟩
  | socketReady trace =>
    have up : Stalled { g with socketUp := true } := ⟨h.1, h.2, h.3, h.4, h.5⟩
    exact hleaves.2 ▸ ((up.push .socketReady).publish .loginSent nofun "").push _
  | socketDisconnected =>
    have down : Stalled { g with socketUp := false } := ⟨h.1, h.2, h.3, h.4, h.5⟩
    exact hleaves ▸ (down.push .socketDisconnected).publish .disconnected nofun ""
  | timer t =>
    have sends := h.of_sends (OrderEntry.onTimer_sends env t g) fun f hf => by
      obtain ⟨-, -, -, w, hwanted, -, hpolls⟩ := hf
      cases w with
      | account | balances | openOrders => rw [hpolls.1]; rfl
      | staleOrders => exact absurd (h.wanted.symm.trans hwanted) Bool.false_ne_true
    rcases hleaves with ⟨-, rfl⟩ | ⟨m, hm, rfl⟩
    · exact sends
    · rw [hm, Outcome.state_ok] at sends
      rw [sends.onTimer]
      exact sends
  | text members =>
    rcases hleaves.2 with ⟨-, rfl⟩ | ⟨m, hm, rfl⟩
    · exact h
    · exact h.onMessage (he m hm)
  | response i response =>
    obtain ⟨f, hf, rfl⟩ := hleaves
    have answered : Stalled (g.answer i f response) :=
      ⟨h.state, h.ready, h.wanted, h.unanswered, 
        fun f hf => h.inFlight f (List.mem_of_mem_eraseIdx hf)⟩
    exact answered.of_answers (h.inFlight f (List.mem_of_getElem? hf))
      (OrderEntry.onResponse_answers env f response _)
  | createOrder refuses info create refData requestId =>
    exact hleaves ▸ h.of_sends (OrderEntry.placeOrder_sends ..) fun f hf => by rw [hf.2.2.1]; rfl
  | cancelOrder refuses info cancel order requestId =>
    exact hleaves ▸ h.of_sends (OrderEntry.cancelOrder_sends ..) fun f hf => by rw [hf.2.2.1]; rfl
  | cancelAllOrders refuses info cancel requestId =>
    exact hleaves ▸ h.of_sends (OrderEntry.cancelAllOrders_sends ..) fun f hf => by
      rw [hf.2.2.1]; rfl

/-- Where the stage for stale orders waits and nothing is asked for or in flight
that it waits for, it stays, and the order stream does not get ready, whatever
happens until another login is accepted. -/
theorem stalls (h : Stalled g)
    (hsteps : (machine ρ env).Steps (fun _ e => AcceptsNoLogin env e) g g') :
    DropCopy.ready g' = false ∧ g'.dropCopy.download.state = some .getStaleOrders := by
  have stalled : Stalled g' := by
    induction hsteps with
    | refl => exact h
    | tail _ he hstep ih => exact stalled_step he hstep ih
  exact ⟨stalled.ready, stalled.state⟩

/-- The dispatcher has reported a stale order, and no longer finds it. -/
theorem stalls_not_found : ∃ g : Gateway Reader.Flags,
    Reader.flags.Reachable g ∧ g.halted = false ∧ g.socketUp = true ∧ OrderEntry.ready g = true ∧
      ∀ g', Reader.flags.Steps (fun _ e => AcceptsNoLogin Reader.env e) g g' →
        DropCopy.ready g' = false ∧ g'.dropCopy.download.state = some .getStaleOrders := by
  obtain ⟨g, hg, hhalted, hup, hready, hstate, hnot, hwanted, hunanswered, hflight⟩ :=
    Machine.exists_reach (M := Reader.flags) (C := fun _ _ => True)
      (P := fun g => g.halted = false ∧ g.socketUp = true ∧ OrderEntry.ready g = true ∧
        g.dropCopy.download.state = some .getStaleOrders ∧ DropCopy.ready g = false ∧
        g.wanted .staleOrders = false ∧ g.hasResponse .staleOrders = false ∧
        ∀ f ∈ g.inFlight, f.callback.isGetOrder = false)
      (Reader.login ++ Reader.download ++ [.timer Reader.staleTick, .timer Reader.tick])
      (by decide +kernel)
  have stalled : Stalled g := ⟨hstate, hnot, hwanted, hunanswered, hflight⟩
  exact ⟨g, hg, hhalted, hup, hready, fun g' hsteps => stalls stalled hsteps⟩

end Gateway

end RoqHtx

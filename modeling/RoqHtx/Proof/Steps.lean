import RoqHtx.Proof.Answers
import RoqHtx.Proof.Routing
import RoqHtx.Proof.Sends

/-!
# What a step can do

`handle_state` says for each event what state its handler leaves behind, and
`invariant_step` that an invariant need only be checked there. `Leaves.makes`
says what entries the handler of each event makes. Runs are then inductions over
these cases.
-/

namespace RoqHtx

open OrderEntry (Tick Sends)

variable {ρ : Type}

theorem Gateway.finish_rule {P : Gateway ρ → Prop}
    (hhalt : ∀ g, P g → P { g with halted := true }) {o : Outcome Exn (Gateway ρ)} (h : P o.state) :
    P (finish o) := by
  rcases o with s | ⟨_, s⟩ | s
  · exact h
  · exact h
  · exact hhalt s h

variable [LimitRequest ρ]

namespace DropCopy

/-- A text leaves behind what the handler of the delivered message does. -/
theorem parse_state (env : Env) (message : Json.Members) (g : Gateway ρ) :
    (parse env message g).state =
      match env.parser.delivered message with
      | some m => (onMessage env m g).state
      | none => g := by
  have h := env.parser.dispatch_state env.settings.allowUnknownEventTypes (onMessage env) message g
  refine Eq.trans ?_ h
  unfold parse
  split <;> rename_i hd <;> rw [hd] <;> rfl

end DropCopy

namespace Gateway

/-- What holds where the handler ends holds after the step. -/
theorem step_rule {P : Gateway ρ → Prop} (hhalt : ∀ g, P g → P { g with halted := true })
    {env : Env} {g g' : Gateway ρ} {e : Event}
    (hhandle : ∀ o, handle env g e = some o → P o.state) (h : step env g e = some g') : P g' := by
  unfold step at h
  split at h
  · cases h
  · obtain ⟨o, ho, rfl⟩ := Option.map_eq_some_iff.mp h
    exact finish_rule hhalt (hhandle o ho)

theorem not_halted_of_step {env : Env} {g g' : Gateway ρ} {e : Event} (h : step env g e = some g') :
    g.halted = false := by
  unfold step at h
  split at h
  · cases h
  · rename_i hg
    simpa using hg

/-- The state that the handler of an event leaves behind. -/
def Leaves (env : Env) (g : Gateway ρ) (g' : Gateway ρ) : Event → Prop
  | .restConnected => g' = OrderEntry.onConnected g
  | .restDisconnected => g' = OrderEntry.onDisconnected g
  | .socketReady trace =>
    g.socketUp = false ∧ g' = DropCopy.onReady env trace { g with socketUp := true }
  | .socketDisconnected => g' = DropCopy.onDisconnected { g with socketUp := false }
  | .timer t =>
    ((∀ m, OrderEntry.onTimer env t g ≠ .ok m) ∧ g' = (OrderEntry.onTimer env t g).state) ∨
      ∃ m, OrderEntry.onTimer env t g = .ok m ∧ g' = (DropCopy.onTimer env t m).state
  | .text message => g.socketUp = true ∧
    ((env.parser.delivered message = none ∧ g' = g) ∨
      ∃ m, env.parser.delivered message = some m ∧ g' = (DropCopy.onMessage env m g).state)
  | .response i response =>
    ∃ f, g.inFlight[i]? = some f ∧
      g' = (OrderEntry.onResponse env f response (g.answer i f response)).state
  | .createOrder refuses info createOrder refData requestId =>
    g' = (OrderEntry.placeOrder env refuses info createOrder refData requestId g).state
  | .cancelOrder refuses info cancelOrder order requestId =>
    g' = (OrderEntry.cancelOrder env refuses info cancelOrder order requestId g).state
  | .cancelAllOrders refuses info cancelAllOrders requestId =>
    g' = (OrderEntry.cancelAllOrders env refuses info cancelAllOrders requestId g).state

theorem handle_state {env : Env} {g : Gateway ρ} {e : Event} {o : Outcome Exn (Gateway ρ)}
    (h : handle env g e = some o) : Leaves env g o.state e := by
  cases e with
  | restConnected | restDisconnected | socketDisconnected | createOrder | cancelOrder
  | cancelAllOrders =>
    simp only [handle, Option.some.injEq] at h
    subst h
    rfl
  | socketReady trace =>
    simp only [handle] at h
    split at h
    · cases h
    · rename_i hg
      cases h
      exact ⟨by simpa using hg, rfl⟩
  | timer t =>
    simp only [handle, Option.some.injEq] at h
    subst h
    cases ho : OrderEntry.onTimer env t g with
    | ok m => exact .inr ⟨m, ho, rfl⟩
    | throws e m => exact .inl ⟨by simp [ho], by rw [ho]; rfl⟩
    | fatal m => exact .inl ⟨by simp [ho], by rw [ho]; rfl⟩
  | text message =>
    simp only [handle] at h
    split at h
    · rename_i hg
      cases h
      refine ⟨hg, ?_⟩
      rw [DropCopy.parse_state]
      cases hd : env.parser.delivered message with
      | none => exact .inl ⟨rfl, rfl⟩
      | some m => exact .inr ⟨m, rfl, rfl⟩
    · cases h
  | response i response =>
    obtain ⟨f, hf, rfl⟩ := Option.map_eq_some_iff.mp h
    exact ⟨f, hf, rfl⟩

theorem response_step {env : Env} {g g' : Gateway ρ} {i : Nat} {response : Response}
    (h : step env g (.response i response) = some g') :
    ∃ f, g.inFlight[i]? = some f ∧
      g' = finish (OrderEntry.onResponse env f response (g.answer i f response)) := by
  unfold step at h
  split at h
  · cases h
  · obtain ⟨o, ho, rfl⟩ := Option.map_eq_some_iff.mp h
    obtain ⟨f, hf, rfl⟩ := Option.map_eq_some_iff.mp ho
    exact ⟨f, hf, rfl⟩

/-- An invariant need only hold in the state that a handler leaves behind. -/
theorem invariant_step {P : Gateway ρ → Prop} (hhalt : ∀ g, P g → P { g with halted := true })
    {env : Env} {g g' : Gateway ρ} {e : Event} (hleaves : ∀ s, Leaves env g s e → P s)
    (h : step env g e = some g') : P g' :=
  step_rule hhalt (fun _ ho => hleaves _ (handle_state ho)) h

/-! ## Histories -/

section Histories

variable (env : Env) (F : Fatal → Prop) (B : Bool → Prop)

/-- The entries that the handler of an event may make in `g`. -/
def Makes (g : Gateway ρ) : Event → Entry → Prop
  | .restConnected, x => x = .restConnected ∨ x = .orderEntryStatus .ready
  | .restDisconnected, x => x = .restDisconnected ∨ x = .orderEntryStatus .disconnected
  | .socketReady _, x =>
    x = .socketReady ∨ x = .dropCopyStatus .loginSent "" ∨ ∃ auth, x = .socketText (.login auth)
  | .socketDisconnected, x => x = .socketDisconnected ∨ x = .dropCopyStatus .disconnected ""
  | .timer t, x => OrderEntry.Asks (OrderEntry.Polled env t g) x ∨ DropCopy.Writes F (fun _ => False) x
  | .text _, x => DropCopy.Writes F B x
  | .response i response, x => ∃ f, g.inFlight[i]? = some f ∧
    (x = .answered f response ∨ OrderEntry.Replies f.callback x)
  | .createOrder _ info create _ _, x =>
    OrderEntry.Asks (OrderEntry.Ordered g (.createOrder info create)) x
  | .cancelOrder _ info cancel _ _, x =>
    OrderEntry.Asks (OrderEntry.Ordered g (.cancelOrder info cancel)) x
  | .cancelAllOrders _ info cancel _, x =>
    OrderEntry.Asks (OrderEntry.Ordered g (.cancelAllOrders info cancel)) x

variable {env F B}

/-- `F` has the places where the process may end, but for those of order entry,
and that of the stale orders only if it can be reached. -/
theorem Leaves.makes {g s : Gateway ρ} {e : Event} (h : Leaves env g s e)
    (hF : ∀ site, site ≠ .getOrderAck → site ≠ .staleOrders → F site)
    (hstale : g.dropCopy.download.state = some .getStaleOrders → g.hasResponse .staleOrders = true →
      g.request.detailsStaleOrders ≠ [] → F .staleOrders)
    (hB : ∀ message m, e = .text message → env.parser.delivered message = some m →
      DropCopy.accepts m = true → B g.dropCopy.download.downloading) :
    Grows (Makes env F B g e) g s := by
  cases e with
  | restConnected =>
    exact h ▸ ⟨[.orderEntryStatus .ready, .restConnected], rfl, by simp [Makes]⟩
  | restDisconnected =>
    exact h ▸ ⟨[.orderEntryStatus .disconnected, .restDisconnected], rfl, by simp [Makes]⟩
  | socketDisconnected =>
    exact h ▸ ⟨[.dropCopyStatus .disconnected "", .socketDisconnected], rfl, by simp [Makes]⟩
  | socketReady trace =>
    obtain ⟨-, rfl⟩ := h
    exact ⟨[.socketText (.login _), .dropCopyStatus .loginSent "", .socketReady], rfl,
      by simp [Makes]⟩
  | timer t =>
    have sends := OrderEntry.onTimer_sends env t g
    rcases h with ⟨-, rfl⟩ | ⟨m, ho, rfl⟩
    · exact sends.log.mono fun _ => .inl
    · rw [ho] at sends
      refine (sends.log.mono fun _ => .inl).trans (Grows.mono ?_ fun _ => .inr)
      refine (DropCopy.onTimer_keeps env t fun hs hr hd => hstale ?_ ?_ ?_).log
      · rwa [← sends.dropCopy]
      · rwa [← sends.hasResponse]
      · exact sends.details.elim (fun h => h ▸ hd) fun h => absurd h hd
  | text message =>
    obtain ⟨-, ⟨-, rfl⟩ | ⟨m, hm, rfl⟩⟩ := h
    · exact .refl _
    · exact (DropCopy.onMessage_keeps (hF .logon nofun nofun) (hF .message nofun nofun) env
        (hB message m rfl hm)).log
  | response i response =>
    obtain ⟨f, hf, rfl⟩ := h
    have answered : Grows (Makes env F B g (.response i response)) g (g.answer i f response) :=
      .of_cons (x := .answered f response) rfl ⟨f, hf, .inl rfl⟩
    refine answered.trans ?_
    exact (OrderEntry.onResponse_answers env f response _).log.mono fun _ hx => ⟨f, hf, .inr hx⟩
  | createOrder =>
    subst h
    exact (OrderEntry.placeOrder_sends ..).log
  | cancelOrder =>
    subst h
    exact (OrderEntry.cancelOrder_sends ..).log
  | cancelAllOrders =>
    subst h
    exact (OrderEntry.cancelAllOrders_sends ..).log

/-- `makes`, whatever the stale orders and the message are. -/
theorem Leaves.makes' {g s : Gateway ρ} {e : Event} (h : Leaves env g s e) :
    Grows (Makes env (fun _ => True) (fun _ => True) g e) g s :=
  h.makes (fun _ _ _ => trivial) (fun _ _ _ => trivial) fun _ _ _ _ _ => trivial

/-- No step forgets any of its history. -/
theorem grows_of_step {g g' : Gateway ρ} {e : Event} (h : step env g e = some g') :
    Grows (fun _ => True) g g' :=
  invariant_step (P := Grows (fun _ => True) g) (fun _ h => h)
    (fun _ hl => hl.makes'.mono fun _ _ => trivial) h

end Histories

end Gateway

end RoqHtx

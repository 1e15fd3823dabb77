import RoqHtx.Proof.Outstanding
import RoqHtx.Proof.Stages

/-!
# Stale orders in the download

The order stream ends the process if the stale orders are answered while there
are some left to ask for. It waits in `GET_STALE_ORDERS` only for a request made
on entering it (`checkDownload_waits`), so this takes a response that commits
the request before the new orders have been sent: the last response to an
earlier batch (`Overtakes`). In runs without one it does not happen
(`no_abort_of_not_overtakes`); `abort_reached` is a run in which it does.
-/

namespace RoqHtx

open OrderEntry (Tick Sends)

variable {ρ : Type}

/-- Inserting what is there already changes nothing. -/
theorem DropCopy.findStaleOrders_of_not_found {t : Tick} {g : Gateway ρ}
    (h : (findStaleOrders t g).1 = false) :
    (findStaleOrders t g).2.request.detailsStaleOrders = g.request.detailsStaleOrders := by
  simp only [findStaleOrders, List.any_eq_false, decide_eq_true_eq, not_not] at h ⊢
  generalize t.staleOrders.map (fun order => (order.userId, order.orderId)) = keys at h ⊢
  induction keys with
  | nil => rfl
  | cons key keys ih =>
    rw [List.foldl_cons, List.insert_of_mem (h key List.mem_cons_self)]
    exact ih fun k hk => h k (List.mem_cons_of_mem key hk)

variable [LimitRequest ρ]

/-- If the stale orders are answered while the download waits for them, then
there are none left. -/
def Settled (g : Gateway ρ) : Prop :=
  g.dropCopy.download.state = some .getStaleOrders → g.hasResponse .staleOrders = true →
    g.request.detailsStaleOrders = []

theorem OrderEntry.Sends.settled {R : InFlight → Prop} {g g' : Gateway ρ} (h : Sends R g g')
    (hg : Settled g) : Settled g' := by
  intro hs hr
  rw [h.dropCopy] at hs
  rw [h.hasResponse] at hr
  exact h.details.elim (fun e => e.trans (hg hs hr)) id

namespace DropCopy

theorem Waits.settled {g : Gateway ρ} (h : Waits g) : Settled g := by
  intro hs hr
  rw [(h _ _ hs rfl).2] at hr
  cases hr

theorem checkStaleOrders_settled (env : Env) (t : Tick) {g : Gateway ρ} (hg : Settled g) :
    Settled (checkStaleOrders env t g) := by
  unfold checkStaleOrders
  split
  · dsimp only
    split
    · intro _ hr
      rw [(requestOf_waits _ _).2] at hr
      cases hr
    · rename_i hfound
      intro hs hr
      rw [findStaleOrders_of_not_found (by simpa using hfound)]
      exact hg hs (by simpa [Gateway.hasResponse, findStaleOrders] using hr)
  · exact hg

end DropCopy

namespace Gateway

/-- Everything but the response to a `get_order` request keeps the orders
settled. -/
theorem Leaves.settled {env : Env} {g s : Gateway ρ} {e : Event} (h : Leaves env g s e)
    (he : ∀ i response f, e = .response i response → g.inFlight[i]? = some f →
      f.callback.isGetOrder = false) (hg : Settled g) : Settled s := by
  cases e with
  | restConnected | restDisconnected | socketDisconnected =>
    subst h
    exact hg
  | socketReady trace =>
    obtain ⟨-, rfl⟩ := h
    exact hg
  | timer t =>
    have hm := (OrderEntry.onTimer_sends env t g).settled hg
    rcases h with ⟨-, rfl⟩ | ⟨m, ho, rfl⟩
    · exact hm
    · rw [ho] at hm
      exact DropCopy.onTimer_waiting (fun _ => DropCopy.Waits.settled) (fun _ _ _ h => h)
        (fun _ => DropCopy.checkStaleOrders_settled env t) hm
  | text message =>
    obtain ⟨-, ⟨-, rfl⟩ | ⟨m, -, rfl⟩⟩ := h
    · exact hg
    · exact DropCopy.onMessage_waiting (fun _ => DropCopy.Waits.settled) (fun _ _ _ h => h) env m hg
  | response i response =>
    obtain ⟨f, hf, rfl⟩ := h
    have ha := OrderEntry.onResponse_answers env f response (g.answer i f response)
    intro hstate hr
    rw [ha.dropCopy] at hstate
    rw [ha.hasResponse _ (Callback.which_ne_staleOrders (he i response f rfl hf))] at hr
    exact ha.details.trans (hg hstate hr)
  | createOrder => exact h ▸ (OrderEntry.placeOrder_sends ..).settled hg
  | cancelOrder => exact h ▸ (OrderEntry.cancelOrder_sends ..).settled hg
  | cancelAllOrders => exact h ▸ (OrderEntry.cancelAllOrders_sends ..).settled hg

/-- While the orders are settled, no event reaches the abort. -/
theorem Leaves.no_abort {env : Env} {g s : Gateway ρ} {e : Event} (h : Leaves env g s e)
    (hg : Settled g) : Grows (fun x => x ≠ .fatal .staleOrders) g s := by
  refine (h.makes (F := (· ≠ .staleOrders)) (B := fun _ => True) (fun _ _ h => h)
    (fun hs hr hd => absurd (hg hs hr) hd) fun _ _ _ _ _ => trivial).mono fun x hx => ?_
  rintro rfl
  cases e with
  | timer t => exact hx.elim id fun hx => hx rfl
  | text message => exact hx rfl
  | response i response =>
    obtain ⟨f, -, hx | hx⟩ := hx
    · cases hx
    · cases hx.1
  | _ => simp [Makes, OrderEntry.Asks] at hx

/-- The last response to a batch is handled while the download waits in
`GET_STALE_ORDERS` with orders that have not been asked for. -/
def Overtakes (env : Env) (g : Gateway ρ) (e : Event) : Prop :=
  g.dropCopy.download.state = some .getStaleOrders ∧ g.request.detailsStaleOrders ≠ [] ∧
    lastAnswer env g e = true

instance (env : Env) (g : Gateway ρ) (e : Event) : Decidable (Overtakes env g e) :=
  inferInstanceAs (Decidable (_ ∧ _ ∧ _))

theorem settled_step {env : Env} {g g' : Gateway ρ} {e : Event} (hc : Counted g)
    (he : ¬Overtakes env g e) (h : step env g e = some g') (hg : Settled g) : Settled g' := by
  obtain ⟨i, response, f, rfl, hf, hget, h⟩ | ⟨hother, -, -⟩ := stale_step hc h
  · rcases h with ⟨-, rfl⟩ | ⟨hs, h1, rfl⟩ | ⟨-, -, rfl⟩
    · exact hg
    · intro hstate _
      by_contra hd
      refine he ⟨hstate, ?_, by simp [lastAnswer, hf, hget, h1, hs]⟩
      simpa [commit, OrderEntry.countDown, answer] using hd
    · exact hg
  · exact invariant_step (fun _ h => h) (fun _ hs => hs.settled hother hg) h

/-- In runs in which no batch is overtaken, the order stream never finds stale
orders left over, and does not end the process. -/
theorem no_abort_of_not_overtakes (env : Env) (g : Gateway ρ)
    (h : (machine ρ env).Reach (fun g e => ¬Overtakes env g e) g) :
    .fatal .staleOrders ∉ g.log ∧
      (g.dropCopy.download.state = some .getStaleOrders → g.hasResponse .staleOrders = true →
        g.request.detailsStaleOrders = []) := by
  refine h.invariant_of (I := fun g => .fatal .staleOrders ∉ g.log ∧ Settled g)
    (fun g hg => (stale_orders_counter env g hg.reachable).1) ⟨List.not_mem_nil, nofun⟩ ?_
  rintro s e s' hcount ⟨hlog, hs⟩ he hstep
  have hc : Counted s := hcount (not_halted_of_step hstep)
  refine ⟨fun hm => hlog ?_, settled_step hc he hstep hs⟩
  have grows : Grows (fun x => x ≠ .fatal .staleOrders) s s' :=
    invariant_step (P := Grows _ s) (fun _ h => h) (fun _ hl => hl.no_abort hs) hstep
  exact (grows.mem_iff (by simp)).mp hm

def isAbort : Entry → Bool
  | .fatal .staleOrders => true
  | _ => false

theorem abort_mem {l : List Entry} (h : l.any isAbort = true) : .fatal .staleOrders ∈ l := by
  obtain ⟨x, hx, ha⟩ := List.any_eq_true.mp h
  unfold isAbort at ha
  split at ha <;> first | exact hx | cases ha

/-- A first session that gets ready, and then finds a stale order. -/
def stale : List Event :=
  Reader.login ++ Reader.download ++
    [.timer Reader.tick, .text (Reader.subReply 200 "trade.clearing#*"),
      .timer { Reader.staleTick with trace := ⟨1, 1⟩ }]

/-- A second session, in which the order is asked for together with the open
orders, and is found to be stale once more before its response arrives. -/
def overtaken : List Event :=
  let refused : Tick := { Reader.staleTick with canRequest := fun w => w != .staleOrders }
  [.socketDisconnected, .socketReady ⟨1, 1⟩, .text (Reader.authReply 200), .timer refused,
    .response 0 (Reader.success Reader.accountsBody), .timer refused,
    .text (Reader.subReply 200 "accounts.update"), .timer refused,
    .response 0 (Reader.success Reader.balanceBody), .timer refused,
    .text (Reader.subReply 200 "orders#*"), .timer Reader.staleTick,
    .response 0 (Reader.success Reader.openOrdersBody), .timer Reader.staleTick,
    .response 0 (Reader.success ""), .timer refused]

/-- The process ends because a stale order is left over. -/
theorem abort_reached : ∃ g : Gateway Reader.Flags,
    Reader.flags.Reachable g ∧ .fatal .staleOrders ∈ g.log ∧ g.halted = true ∧
      g.dropCopy.download.state = some .getStaleOrders ∧ g.hasResponse .staleOrders = true ∧
      g.request.detailsStaleOrders ≠ [] := by
  obtain ⟨g, hg, hlog, hrest⟩ := Machine.exists_reach (M := Reader.flags) (C := fun _ _ => True)
    (P := fun g => g.log.any isAbort = true ∧ g.halted = true ∧
      g.dropCopy.download.state = some .getStaleOrders ∧ g.hasResponse .staleOrders = true ∧
      g.request.detailsStaleOrders ≠ [])
    (stale ++ overtaken) (by decide +kernel)
  exact ⟨g, hg, abort_mem hlog, hrest⟩

/-- A first session gets ready through stale orders. -/
theorem no_abort_ready : ∃ g : Gateway Reader.Flags,
    g.dropCopy.connectionStatus = .ready ∧ .fatal .staleOrders ∉ g.log := by
  obtain ⟨g, hg, hready⟩ := Machine.exists_reach (M := Reader.flags)
    (C := fun g e => ¬Overtakes Reader.env g e)
    (P := fun g => g.dropCopy.connectionStatus = .ready)
    (Reader.login ++ Reader.download ++
      [.timer Reader.staleTick, .timer Reader.staleTick, .response 0 (Reader.success ""),
        .timer Reader.staleTick, .text (Reader.subReply 200 "trade.clearing#*")])
    (by decide +kernel)
  exact ⟨g, hready, (no_abort_of_not_overtakes Reader.env g hg).1⟩

end Gateway

end RoqHtx

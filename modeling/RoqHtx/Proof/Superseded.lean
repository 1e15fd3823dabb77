import RoqHtx.Impl.MarketReader
import RoqHtx.Proof.Market

/-!
# Answers to requests that have been superseded

An answer that is out of date, or to a stage that has been through, is skipped,
but only if it is a success: every failure tries its stage again, whichever
request it answers. It leaves the download alone (`LeavesAlone`) exactly if it is
no failure, or the download waits in another stage (`superseded_iff`).
-/

namespace RoqHtx.Rest

/-- A response that is reported as an error: any category but a success, or no
result at all. -/
def fails (response : Response) : Bool :=
  match response.result with
  | .error _ => true
  | .ok (_, category, _) =>
    match category with
    | .success => false
    | .clientError | .serverError => true
    | .unknown | .informationalResponse | .redirection => response.expect.isSome

/-- Everything is as it was, but for attempts to try a stage again that the
download does not wait in. -/
def LeavesAlone (m m' : Market) : Prop :=
  ∃ new, m' = { m with log := new ++ m.log } ∧
    ∀ x ∈ new, ∃ stage, x = .downloadRetry stage ∧ m.rest.download.state ≠ some stage

variable {env : MarketEnv} {stage : Stage} {sequence : Nat} {response : Response} {t : Handling}
  {m : Market}

/-! ## Skipping -/

/-- A response that is skipped either fails, and its stage is tried again, or does
nothing. -/
theorem ack_skip {α : Type} {decode : String → Except Exn α} {accepted : α → Bool}
    {text : α → String} {onAck : α → Market → Outcome Exn Market}
    (hskip : skip sequence stage m = true) :
    ack env stage decode accepted text onAck sequence response t m =
      .ok (if fails response then retry env t.retry stage m else m) := by
  unfold ack processResponse processResult fails
  cases response.result with
  | error e => cases e <;> rfl
  | ok r =>
    obtain ⟨status, category, body⟩ := r
    cases category with
    | success => simp [hskip, catchException]
    | clientError | serverError => rfl
    | unknown | informationalResponse | redirection =>
      cases response.expect with
      | none => rfl
      | some e => cases e <;> rfl

theorem onResponse_skip (hstage : stage ≠ .done) (hskip : skip sequence stage m = true) :
    onResponse env stage sequence response t m =
      .ok (if fails response then retry env t.retry stage m else m) := by
  cases stage with
  | marketStatus | currencies | symbols => exact ack_skip hskip
  | done => exact absurd rfl hstage

/-! ## Trying again -/

/-- Nothing happens if the download waits in another stage. -/
theorem retry_other {how : Retry} (h : m.rest.download.state ≠ some stage) :
    retry env how stage m = m.push (.downloadRetry stage) :=
  if_neg h

/-- The attempt is on record. -/
theorem mem_log_retry (how : Retry) : ∃ new, (retry env how stage m).log = new ++ m.log ∧
    .downloadRetry stage ∈ new := by
  have closed : Closed fun m' => ∃ new, m'.log = new ++ m.log ∧ .downloadRetry stage ∈ new :=
    .of_log (P := fun l => ∃ new, l = new ++ m.log ∧ .downloadRetry stage ∈ new)
      fun x l _ ⟨new, hl, hmem⟩ => ⟨x :: new, by rw [hl]; rfl, List.mem_cons_of_mem x hmem⟩
  have logged : ∃ new, (m.push (.downloadRetry stage)).log = new ++ m.log ∧
      .downloadRetry stage ∈ new := ⟨[.downloadRetry stage], rfl, List.mem_cons_self⟩
  unfold retry
  dsimp only
  split
  · cases how with
    | later => exact logged
    | reissue => exact closed.reissue logged
    | bump => exact closed.bump logged
  · exact logged

/-- Trying a stage again leaves the download alone unless it waits in that stage. -/
theorem retry_leavesAlone_iff (how : Retry) :
    LeavesAlone m (retry env how stage m) ↔ m.rest.download.state ≠ some stage := by
  constructor
  · rintro ⟨new, heq, hnew⟩
    obtain ⟨new', hlog, hmem⟩ : ∃ new, (retry env how stage m).log = new ++ m.log ∧
        .downloadRetry stage ∈ new := mem_log_retry how
    have hsame : new' = new := List.append_cancel_right (hlog.symm.trans (by rw [heq]))
    obtain ⟨stage', hstage', hother⟩ := hnew _ (hsame ▸ hmem)
    cases hstage'
    exact hother
  · intro h
    refine ⟨[.downloadRetry stage], retry_other h, fun x hx => ⟨stage, List.mem_singleton.mp hx, h⟩⟩

/-- A response to a request that has been superseded leaves the download alone
exactly if it does not fail, or the download waits in another stage. -/
theorem superseded_iff (env : MarketEnv) {stage : Stage} (hstage : stage ≠ .done) (sequence : Nat)
    (response : Response) (t : Handling) {m : Market} (hskip : skip sequence stage m = true) :
    LeavesAlone m (onResponse env stage sequence response t m).state ↔
      ¬(fails response = true ∧ m.rest.download.state = some stage) := by
  rw [onResponse_skip hstage hskip, Outcome.state_ok]
  cases fails response with
  | false => exact ⟨fun _ h => absurd h.1 Bool.false_ne_true, fun _ => ⟨[], rfl, fun _ hx => by cases hx⟩⟩
  | true =>
    rw [if_pos rfl, retry_leavesAlone_iff, eq_self, true_and]

/-- The connection comes back before the first answer arrives: as a success it is
skipped. -/
theorem superseded_success : ∃ m : Market,
    (market Reader.marketEnv).Reachable m ∧ (.marketStatus, 1) ∈ m.requests ∧
      LeavesAlone m (onResponse Reader.marketEnv .marketStatus 1
        (Reader.success Reader.marketStatusBody) Reader.handling m).state := by
  obtain ⟨m, hm, hrequest, hskip⟩ := Machine.exists_reach (M := market Reader.marketEnv)
    (C := fun _ _ => True)
    (P := fun m => (.marketStatus, 1) ∈ m.requests ∧ skip 1 .marketStatus m = true)
    [.restConnected, .restDisconnected, .restConnected] (by decide +kernel)
  exact ⟨m, hm, hrequest,
    (superseded_iff Reader.marketEnv (by decide) 1 _ Reader.handling hskip).mpr
      (by simp [fails, Reader.success])⟩

/-- As a failure it makes the stage be requested once more. -/
theorem superseded_timeout : ∃ m : Market,
    (market Reader.marketEnv).Reachable m ∧ (.marketStatus, 1) ∈ m.requests ∧
      skip 1 .marketStatus m = true ∧
      (∃ t, (onResponse Reader.marketEnv .marketStatus 1 Reader.timeout t m).state.requests =
        (.marketStatus, 2) :: m.requests) ∧
      ∀ t, ¬LeavesAlone m (onResponse Reader.marketEnv .marketStatus 1 Reader.timeout t m).state := by
  obtain ⟨m, hm, hrequest, hskip, hstate, hretried⟩ := Machine.exists_reach
    (M := market Reader.marketEnv) (C := fun _ _ => True)
    (P := fun m => (.marketStatus, 1) ∈ m.requests ∧ skip 1 .marketStatus m = true ∧
      m.rest.download.state = some .marketStatus ∧
      (onResponse Reader.marketEnv .marketStatus 1 Reader.timeout
        { Reader.handling with retry := .reissue } m).state.requests =
          (.marketStatus, 2) :: m.requests)
    [.restConnected, .restDisconnected, .restConnected] (by decide +kernel)
  refine ⟨m, hm, hrequest, hskip, ⟨_, hretried⟩, fun t h => ?_⟩
  rw [onResponse_skip (by decide) hskip] at h
  exact (retry_leavesAlone_iff t.retry).mp h hstate

end RoqHtx.Rest

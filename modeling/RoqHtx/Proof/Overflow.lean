import RoqHtx.Proof.Throttle

/-!
# Operations that leave 64 bits

With clocks that are far enough from the last time there is, the end of a response
never overflows, and a header only where its time is used: the milliseconds that
the exchange sends have to fit as nanoseconds, and so does the time until which
requests are suspended (`no_overflow_iff`).
-/

namespace RoqHtx.Throttle

/-- Eleven minutes before the last time there is, and not before the first. -/
def ValidTime (time : Int) : Prop := 0 ≤ time ∧ time + 660000000000 ≤ int64Max

instance (time : Int) : Decidable (ValidTime time) := inferInstanceAs (Decidable (_ ∧ _))

/-- What parameters that say that the budget is used up need: their time in
nanoseconds, and the time until which it suspends requests. -/
def Params.Fits64 (params : Params) (clock : Clock) : Prop :=
  Fits int64Min int64Max (params.requestsExpire.toInt * 1000000) ∧
    (clock.realtime < params.requestsExpire.toInt * 1000000 →
      clock.system + (params.requestsExpire.toInt * 1000000 - clock.realtime) ≤ int64Max)

instance (params : Params) (clock : Clock) : Decidable (params.Fits64 clock) :=
  inferInstanceAs (Decidable (_ ∧ _))

/-- A header that changes a parameter of an enabled throttle so that the budget is
used up has a time that fits. -/
def HeaderFits (formats : HeaderFormats) (header : MessageHeader) (clock : Clock) (t : Throttle) :
    Prop :=
  ∀ params, t.params.update formats header = .ok params → t.enabled = true → params ≠ t.params →
    params.available = false → params.Fits64 clock

/-- What an event needs. -/
def EventFits (formats : HeaderFormats) (e : Event) (t : Throttle) : Prop :=
  match e.message with
  | .messageHeader header => HeaderFits formats header e.clock t
  | .messageBegin | .messageEnd _ => True

/-! ## What has to fit -/

theorem fits_backoff {time backoff : Int} (h : ValidTime time) (hpos : 0 ≤ backoff)
    (hle : backoff ≤ 660000000000) : Fits int64Min int64Max (time + backoff) := by
  obtain ⟨hmin, hmax⟩ := h
  simp only [Fits, int64Min, int64Max] at *
  omega

/-- The other results lie between those that have to fit. -/
theorem within64_iff {clock : Clock} (hsystem : ValidTime clock.system)
    (hrealtime : ValidTime clock.realtime) (params : Params) :
    params.Within64 clock ↔ params.Fits64 clock := by
  have hbackoff : Fits int64Min int64Max (clock.system + defaultBackoff) :=
    fits_backoff hsystem (by decide) (by decide)
  obtain ⟨hsystem, -⟩ := hsystem
  obtain ⟨hrealtime, -⟩ := hrealtime
  unfold Params.Within64 Params.Fits64
  generalize params.requestsExpire.toInt * 1000000 = ns
  refine and_congr_right fun hns => ?_
  by_cases hlt : clock.realtime < ns
  · rw [if_pos hlt, imp_iff_right hlt]
    simp only [Fits, int64Min, int64Max] at hns ⊢
    omega
  · simp [hlt, hbackoff]

theorem endWithin64 (status : Http.Status) {clock : Clock} (hsystem : ValidTime clock.system)
    (suspendUntil : Int) : EndWithin64 status clock suspendUntil :=
  ⟨fun _ => fits_backoff hsystem (by decide) (by decide),
    fun _ _ => fits_backoff hsystem (by decide) (by decide)⟩

theorem eventWithin64_iff {formats : HeaderFormats} {e : Event} {t : Throttle}
    (hsystem : ValidTime e.clock.system) (hrealtime : ValidTime e.clock.realtime) :
    EventWithin64 formats e t ↔ EventFits formats e t := by
  obtain ⟨connection, clock, message⟩ := e
  unfold EventWithin64 EventFits
  cases message with
  | messageBegin => simp
  | messageEnd status => simp [endWithin64 status hsystem t.suspendUntil]
  | messageHeader header =>
    dsimp only
    unfold HeaderFits
    cases t.params.update formats header with
    | error e => simp
    | ok params =>
      simp only [Params.ChangesWithin64, within64_iff hsystem hrealtime, Except.ok.injEq, forall_eq']

/-! ## What an event leaves behind -/

theorem updateSuspendUntil_le (clock : Clock) (t : Throttle) :
    (updateSuspendUntil clock t).suspendUntil = 0 ∨
      t.suspendUntil ≤ (updateSuspendUntil clock t).suspendUntil := by
  unfold updateSuspendUntil
  split
  · exact .inr (le_refl _)
  · split
    · exact .inl rfl
    · exact .inr (le_max_left _ _)

theorem handle_le (formats : HeaderFormats) {e : Event} (hsystem : 0 ≤ e.clock.system) (t : Throttle) :
    (handle formats e t).state.suspendUntil = 0 ∨
      t.suspendUntil ≤ (handle formats e t).state.suspendUntil := by
  unfold handle
  split
  · exact .inr (le_refl _)
  · rename_i header _
    unfold onMessageHeader
    split
    · exact .inr (le_refl _)
    · rw [Outcome.state_ok]
      split
      · exact .inr (le_refl _)
      · exact updateSuspendUntil_le ..
  · exact .inr (le_onMessageEnd _ hsystem t)

/-- With clocks that are far enough from the last time there is, an event overflows no
operation, and leaves `suspend_until_` zero or not less than before, exactly if it
fits. -/
theorem no_overflow_iff (formats : HeaderFormats) (e : Event) (t : Throttle)
    (hsystem : ValidTime e.clock.system) (hrealtime : ValidTime e.clock.realtime) :
    (∃ o, handle64 formats e t = some o ∧
        (o.state.suspendUntil = 0 ∨ t.suspendUntil ≤ o.state.suspendUntil)) ↔
      EventFits formats e t := by
  rw [← eventWithin64_iff hsystem hrealtime]
  constructor
  · rintro ⟨o, ho, -⟩
    exact (handle64_eq_some_iff.mp ho).1
  · intro h
    exact ⟨_, handle64_eq_some_iff.mpr ⟨h, rfl⟩, handle_le formats hsystem.1 t⟩

/-- A time within the next year. -/
theorem no_overflow_next_year :
    ∃ o, handle64 Reader.headerFormats (Reader.reads 0 1700000000
        (.messageHeader ⟨"X-HB-RateLimit-Requests-Expire", "1731536000000"⟩)) (init true) = some o ∧
      (o.state.suspendUntil = 0 ∨ (init true).suspendUntil ≤ o.state.suspendUntil) := by
  refine (no_overflow_iff Reader.headerFormats _ (init true) (by decide) (by decide)).mpr
    fun params hupdate _ _ _ => ?_
  have hparams : (init true).params.update Reader.headerFormats
      ⟨"X-HB-RateLimit-Requests-Expire", "1731536000000"⟩ = .ok ⟨0, 1731536000000⟩ := by decide +kernel
  cases hupdate.symm.trans hparams
  decide

/-- A time that does not fit as nanoseconds, and one that does but lies too far ahead
of a real time that is behind the system time. -/
theorem overflow :
    handle64 Reader.headerFormats (Reader.reads 0 1
        (.messageHeader ⟨"X-HB-RateLimit-Requests-Expire", "9223372036855"⟩)) (init true) = none ∧
      handle64 Reader.headerFormats ⟨0, ⟨2000000000, 1000000000⟩,
        .messageHeader ⟨"X-HB-RateLimit-Requests-Expire", "9223372036854"⟩⟩ (init true) = none := by
  decide +kernel

end RoqHtx.Throttle

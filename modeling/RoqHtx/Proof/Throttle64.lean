import RoqHtx.Impl.Throttle64

/-!
# The throttle within 64 bits

Which events the handlers can compute with: those of which every result fits in
64 bits (`EventWithin64`). Such an event does what it does with exact results,
and any other is undefined (`handle64_eq_some_iff`), so that the runs of
`machine64` are the runs of `machine` whose events are all within 64 bits
(`step64_eq_some_iff`, `reach_of_reach64`).
-/

namespace RoqHtx.Throttle

/-! ## Events -/

/-- What is computed of parameters that say that the budget is used up: their time
in nanoseconds, how far it lies ahead, and the time until which it suspends
requests. -/
def Params.Within64 (params : Params) (clock : Clock) : Prop :=
  let ns := params.requestsExpire.toInt * 1000000
  Fits int64Min int64Max ns ∧
    if clock.realtime < ns then
      Fits int64Min int64Max (ns - clock.realtime) ∧
        Fits int64Min int64Max (clock.system + (ns - clock.realtime))
    else Fits int64Min int64Max (clock.system + defaultBackoff)

instance (params : Params) (clock : Clock) : Decidable (params.Within64 clock) :=
  inferInstanceAs (Decidable (_ ∧ ite _ _ _))

/-- What is computed at a change of the parameters. -/
def Params.ChangesWithin64 (old new : Params) (clock : Clock) : Prop :=
  new ≠ old → new.available = false → new.Within64 clock

instance (old new : Params) (clock : Clock) : Decidable (old.ChangesWithin64 new clock) :=
  inferInstanceAs (Decidable (_ → _ → _))

/-- What is computed at the end of a response. -/
def EndWithin64 (status : Http.Status) (clock : Clock) (suspendUntil : Int) : Prop :=
  (status.code = 403 → Fits int64Min int64Max (clock.system + blockedBackoff)) ∧
    (status.code = 429 → suspendUntil = 0 → Fits int64Min int64Max (clock.system + defaultBackoff))

instance (status : Http.Status) (clock : Clock) (suspendUntil : Int) :
    Decidable (EndWithin64 status clock suspendUntil) :=
  inferInstanceAs (Decidable (_ ∧ _))

/-- All that an enabled throttle computes at an event fits in 64 bits. -/
def EventWithin64 (formats : HeaderFormats) (e : Event) (t : Throttle) : Prop :=
  t.enabled = true →
    match e.message with
    | .messageBegin => True
    | .messageHeader header =>
      match t.params.update formats header with
      | .error _ => True
      | .ok params => t.params.ChangesWithin64 params e.clock
    | .messageEnd status => EndWithin64 status e.clock t.suspendUntil

/-! ## Handlers -/

theorem updateSuspendUntil64_eq_some_iff {clock : Clock} {t t' : Throttle} :
    updateSuspendUntil64 clock t = some t' ↔
      (t.enabled = true → t.params.available = false → t.params.Within64 clock) ∧
        updateSuspendUntil clock t = t' := by
  unfold updateSuspendUntil64 updateSuspendUntil
  cases henabled : t.enabled with
  | false => simp
  | true =>
    cases havailable : t.params.available with
    | true => simp
    | false =>
      simp only [Bool.not_true, Bool.false_eq_true, if_false, nanoseconds, int64,
        checked_bind_eq_some, Params.Within64, Params.period, true_implies]
      split <;> simp [checked_bind_eq_some, and_assoc]

theorem onMessageHeader64_eq_some_iff {formats : HeaderFormats} {header : MessageHeader} {clock : Clock}
    {t : Throttle} {o : Outcome Exn Throttle} :
    t.onMessageHeader64 formats header clock = some o ↔
      (∀ params, t.params.update formats header = .ok params → t.enabled = true →
        t.params.ChangesWithin64 params clock) ∧
      t.onMessageHeader formats header clock = o := by
  unfold onMessageHeader64 onMessageHeader
  cases hupdate : t.params.update formats header with
  | error e => simp
  | ok params =>
    by_cases hsame : params = t.params
    · simp [hsame, Params.ChangesWithin64]
    · simp only [hsame, if_false, Option.map_eq_some_iff, updateSuspendUntil64_eq_some_iff,
        Except.ok.injEq, forall_eq', Params.ChangesWithin64, Ne, not_false_eq_true, true_implies]
      constructor
      · rintro ⟨t', ⟨hwithin, rfl⟩, rfl⟩
        exact ⟨hwithin, rfl⟩
      · rintro ⟨hwithin, rfl⟩
        exact ⟨_, ⟨hwithin, rfl⟩, rfl⟩

theorem onMessageEnd64_eq_some_iff {status : Http.Status} {clock : Clock} {t t' : Throttle} :
    t.onMessageEnd64 status clock = some t' ↔
      (t.enabled = true → EndWithin64 status clock t.suspendUntil) ∧
        t.onMessageEnd status clock = t' := by
  unfold onMessageEnd64 onMessageEnd EndWithin64
  cases henabled : t.enabled with
  | false => simp
  | true =>
    by_cases hforbidden : status.code = 403
    · simp [hforbidden, int64, checked_bind_eq_some]
    · by_cases htoomany : status.code = 429
      · by_cases hzero : t.suspendUntil = 0 <;> simp [htoomany, hzero, int64, checked_bind_eq_some]
      · simp [hforbidden, htoomany]

/-- The handlers compute exactly within 64 bits, and nowhere else. -/
theorem handle64_eq_some_iff {formats : HeaderFormats} {e : Event} {t : Throttle}
    {o : Outcome Exn Throttle} :
    handle64 formats e t = some o ↔ EventWithin64 formats e t ∧ handle formats e t = o := by
  obtain ⟨connection, clock, message⟩ := e
  unfold handle64 handle EventWithin64
  cases message with
  | messageBegin => simp
  | messageHeader header =>
    dsimp only
    rw [onMessageHeader64_eq_some_iff]
    cases t.params.update formats header <;> simp
  | messageEnd status =>
    dsimp only
    rw [Option.map_eq_some_iff]
    constructor
    · rintro ⟨t', ht', rfl⟩
      obtain ⟨hwithin, rfl⟩ := onMessageEnd64_eq_some_iff.mp ht'
      exact ⟨hwithin, rfl⟩
    · rintro ⟨hwithin, rfl⟩
      exact ⟨_, onMessageEnd64_eq_some_iff.mpr ⟨hwithin, rfl⟩, rfl⟩

/-- An event is undefined exactly if a result leaves 64 bits. -/
theorem handle64_isSome_iff {formats : HeaderFormats} {e : Event} {t : Throttle} :
    (handle64 formats e t).isSome = true ↔ EventWithin64 formats e t := by
  rw [Option.isSome_iff_exists]
  constructor
  · rintro ⟨o, ho⟩
    exact (handle64_eq_some_iff.mp ho).1
  · intro h
    exact ⟨_, handle64_eq_some_iff.mpr ⟨h, rfl⟩⟩

instance (formats : HeaderFormats) (e : Event) (t : Throttle) :
    Decidable (EventWithin64 formats e t) :=
  decidable_of_iff _ handle64_isSome_iff

/-! ## Runs -/

theorem step64_eq_some_iff {formats : HeaderFormats} {s s' : State} {e : Event} :
    step64 formats s e = some s' ↔
      EventWithin64 formats e s.throttle ∧ step formats s e = some s' := by
  unfold step64 step
  split
  · simp
  · rw [Option.map_eq_some_iff, Option.some.injEq]
    constructor
    · rintro ⟨o, ho, rfl⟩
      obtain ⟨hwithin, rfl⟩ := handle64_eq_some_iff.mp ho
      exact ⟨hwithin, rfl⟩
    · rintro ⟨hwithin, rfl⟩
      exact ⟨_, handle64_eq_some_iff.mpr ⟨hwithin, rfl⟩, rfl⟩

/-- A run within 64 bits is a run with exact results. -/
theorem reach_of_reach64 {formats : HeaderFormats} {enabled : Bool} {C : State → Event → Prop}
    {s : State} (h : (machine64 formats enabled).Reach C s) : (machine formats enabled).Reach C s := by
  induction h with
  | init => exact .init
  | step _ hc hstep ih => exact .step ih hc (step64_eq_some_iff.mp hstep).2

end RoqHtx.Throttle

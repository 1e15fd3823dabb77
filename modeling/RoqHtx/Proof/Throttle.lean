import Mathlib.Algebra.Order.Ring.Int
import RoqHtx.Impl.Reader
import RoqHtx.Proof.Throttle64

/-!
# What the throttle suspends

A header that changes a parameter either sets `suspend_until_` back (`lifts`) or
raises it beyond the present; one that changes nothing does nothing. The end of
a response with status 429 sets it only where it is zero. So a response that
says that the budget is used up has suspended requests when it ends, in runs in
which this is not said twice in the same words, or while an earlier suspension is
on record that has run out, and does not take longer to be read than it suspends
requests for (`KeepsSuspension`, `used_up_suspends`); and a ban outlasts other
responses in runs in which none of them lifts the suspension (`KeepsBan`,
`ban_lasts`).
-/

namespace RoqHtx.Throttle

/-! ## What a header and a status do -/

/-- A header changes a parameter. -/
def changes (formats : HeaderFormats) (header : MessageHeader) (t : Throttle) : Bool :=
  match t.params.update formats header with
  | .ok params => params != t.params
  | .error _ => false

/-- A header changes a parameter so that the budget is not used up. -/
def lifts (formats : HeaderFormats) (header : MessageHeader) (t : Throttle) : Bool :=
  match t.params.update formats header with
  | .ok params => params != t.params && params.available
  | .error _ => false

theorem Params.period_pos (params : Params) (clock : Clock) : 0 < params.period clock := by
  unfold period
  dsimp only
  split
  · omega
  · decide

theorem updateSuspendUntil_enabled (clock : Clock) (t : Throttle) :
    (updateSuspendUntil clock t).enabled = t.enabled := by
  unfold updateSuspendUntil
  repeat' split
  all_goals rfl

theorem onMessageHeader_enabled (formats : HeaderFormats) (header : MessageHeader) (clock : Clock)
    (t : Throttle) : (t.onMessageHeader formats header clock).state.enabled = t.enabled := by
  unfold onMessageHeader
  split
  · rfl
  · rw [Outcome.state_ok]
    split
    · rfl
    · exact updateSuspendUntil_enabled ..

/-- What an enabled throttle does with a header that does not lift the
suspension. -/
theorem onMessageHeader_of_not_lifts {formats : HeaderFormats} {header : MessageHeader}
    {t : Throttle} (clock : Clock) (henabled : t.enabled = true)
    (hlifts : t.lifts formats header = false) :
    t.suspendUntil ≤ (t.onMessageHeader formats header clock).state.suspendUntil ∧
      (t.changes formats header = true →
        clock.system < (t.onMessageHeader formats header clock).state.suspendUntil) := by
  unfold lifts at hlifts
  unfold changes onMessageHeader
  cases hp : t.params.update formats header with
  | error e => exact ⟨le_refl _, nofun⟩
  | ok params =>
    by_cases hsame : params = t.params
    · simp [hsame]
    · have havailable : params.available = false := by simpa [hp, hsame] using hlifts
      have hpos := params.period_pos clock
      simp only [Outcome.state_ok, hsame, if_false, updateSuspendUntil, henabled, Bool.not_true,
        Bool.false_eq_true, havailable]
      exact ⟨le_max_left _ _, fun _ => lt_max_of_lt_right (by omega)⟩

theorem onMessageEnd_enabled (status : Http.Status) (clock : Clock) (t : Throttle) :
    (t.onMessageEnd status clock).enabled = t.enabled := by
  unfold onMessageEnd
  repeat' split
  all_goals rfl

/-- The end of a response only raises `suspend_until_`. -/
theorem le_onMessageEnd (status : Http.Status) {clock : Clock} (hclock : 0 ≤ clock.system)
    (t : Throttle) : t.suspendUntil ≤ (t.onMessageEnd status clock).suspendUntil := by
  unfold onMessageEnd
  split
  · exact le_refl _
  · split
    · exact le_max_left _ _
    · split
      · split
        · rename_i hzero
          rw [hzero]
          have : 0 ≤ defaultBackoff := by decide
          exact Int.add_nonneg hclock this
        · exact le_refl _
      · exact le_refl _

theorem onMessageEnd_of_forbidden {status : Http.Status} (hstatus : status.code = 403) (clock : Clock)
    {t : Throttle} (henabled : t.enabled = true) :
    clock.system + blockedBackoff ≤ (t.onMessageEnd status clock).suspendUntil := by
  simp only [onMessageEnd, henabled, Bool.not_true, Bool.false_eq_true, if_false, hstatus, if_true]
  exact le_max_right _ _

theorem onMessageEnd_of_tooManyRequests {status : Http.Status} (hstatus : status.code = 429)
    {clock : Clock} {t : Throttle} (henabled : t.enabled = true)
    (hsuspend : t.suspendUntil = 0 ∨ clock.system < t.suspendUntil) :
    clock.system < (t.onMessageEnd status clock).suspendUntil := by
  have hbackoff : 0 < defaultBackoff := by decide
  simp only [onMessageEnd, henabled, Bool.not_true, Bool.false_eq_true, if_false, hstatus, if_true]
  split
  · contradiction
  · split
    · dsimp only
      omega
    · exact hsuspend.resolve_left ‹_›

/-- What any event does, if it is not a header that lifts the suspension. -/
theorem handle_of_not_lifts {formats : HeaderFormats} {e : Event} {t : Throttle}
    (henabled : t.enabled = true) (hclock : 0 ≤ e.clock.system)
    (hlifts : ∀ header, e.message = .messageHeader header → t.lifts formats header = false) :
    t.suspendUntil ≤ (handle formats e t).state.suspendUntil := by
  unfold handle
  split
  · exact le_refl _
  · rename_i header hm
    exact (onMessageHeader_of_not_lifts e.clock henabled (hlifts header hm)).1
  · exact le_onMessageEnd _ hclock t

/-! ## Runs -/

/-- What holds of every state reached: the throttle stays enabled, and time does
not run backwards. -/
structure Running (s : State) : Prop where
  enabled : s.throttle.enabled = true
  now : 0 ≤ s.now

theorem step_cases {formats : HeaderFormats} {s s' : State} {e : Event}
    (h : step formats s e = some s') :
    s.now ≤ e.clock.system ∧
      s' = ⟨(handle formats e s.throttle).state, e.clock.system,
        ⟨e, (handle formats e s.throttle).state.suspendUntil⟩ :: s.log⟩ := by
  unfold step at h
  split at h
  · cases h
  · rename_i hnow
    cases h
    exact ⟨Int.not_lt.mp hnow, rfl⟩

theorem Running.step {formats : HeaderFormats} {s s' : State} {e : Event} (hs : Running s)
    (h : step formats s e = some s') : Running s' := by
  obtain ⟨hnow, rfl⟩ := step_cases h
  refine ⟨?_, hs.now.trans hnow⟩
  dsimp only
  unfold handle
  split
  · exact hs.enabled
  · rw [onMessageHeader_enabled]
    exact hs.enabled
  · exact (onMessageEnd_enabled ..).trans hs.enabled

theorem running (formats : HeaderFormats) {C : State → Event → Prop} {s : State}
    (h : (machine formats true).Reach C s) : Running s :=
  h.invariant ⟨rfl, le_refl _⟩ fun _ _ _ hs _ hstep => hs.step hstep

/-! ## Bans -/

/-- The end of a response with status 403. -/
def forbids (x : Entry) : Bool :=
  match x.event.message with
  | .messageEnd status => status.code == 403
  | _ => false

/-- Every ban is in force for its ten minutes: at every moment from the latest
event on. -/
def BansLast (s : State) : Prop :=
  ∀ x ∈ s.log, forbids x = true → ∀ moment, s.now ≤ moment →
    moment < x.event.clock.system + blockedBackoff →
      x.event.clock.system + blockedBackoff ≤ s.throttle.suspendUntil

/-- A header that lifts the suspension finds no ban in force. -/
def KeepsBan (formats : HeaderFormats) (s : State) (e : Event) : Prop :=
  match e.message with
  | .messageHeader header => s.throttle.lifts formats header = true →
    ∀ x ∈ s.log, forbids x = true → x.event.clock.system + blockedBackoff ≤ e.clock.system
  | _ => True

theorem BansLast.step {formats : HeaderFormats} {s s' : State} {e : Event} (hrunning : Running s)
    (hkeeps : KeepsBan formats s e) (h : step formats s e = some s') (hs : BansLast s) :
    BansLast s' := by
  obtain ⟨hnow, rfl⟩ := step_cases h
  have hclock := hrunning.now.trans hnow
  intro x hx hforbids moment hmoment hlt
  dsimp only at hmoment ⊢
  rcases List.mem_cons.mp hx with rfl | hx
  · -- the ban begins with this event
    unfold forbids at hforbids
    split at hforbids
    · rename_i status hm
      have hcode : status.code = 403 := by simpa using hforbids
      dsimp only at hm
      simp only [handle, hm, Outcome.state_ok]
      exact onMessageEnd_of_forbidden hcode e.clock hrunning.enabled
    · cases hforbids
  · refine (hs x hx hforbids moment (hnow.trans hmoment) hlt).trans
      (handle_of_not_lifts hrunning.enabled hclock fun header hm => ?_)
    by_contra hlifts
    have hover : x.event.clock.system + blockedBackoff ≤ e.clock.system := by
      rw [KeepsBan, hm] at hkeeps
      exact hkeeps (by simpa using hlifts) x hx hforbids
    omega

/-- In runs in which no header lifts a suspension while a ban is in force, every
ban lasts. -/
theorem ban_lasts (formats : HeaderFormats) (s : State)
    (h : (machine formats true).Reach (KeepsBan formats) s) : BansLast s :=
  h.invariant_of (fun _ => running formats) (fun _ hx => absurd hx List.not_mem_nil)
    fun _ _ _ hrunning hs he hstep => hs.step hrunning he hstep

instance (formats : HeaderFormats) (s : State) : ∀ e : Event, Decidable (KeepsBan formats s e)
  | ⟨_, _, .messageBegin⟩ => .isTrue trivial
  | ⟨_, clock, .messageHeader header⟩ =>
    inferInstanceAs (Decidable (s.throttle.lifts formats header = true →
      ∀ x ∈ s.log, forbids x = true → x.event.clock.system + blockedBackoff ≤ clock.system))
  | ⟨_, _, .messageEnd _⟩ => .isTrue trivial

/-- A ban, and a response that lifts the suspension once it is over. -/
theorem ban_lasts_until_over : ∃ s : State, s.log.any forbids = true ∧ BansLast s := by
  obtain ⟨s, hs, hforbids⟩ := Machine.exists_reach (M := machine Reader.headerFormats true)
    (C := KeepsBan Reader.headerFormats) (P := fun s => s.log.any forbids = true)
    ([Reader.reads 0 1 .messageBegin, Reader.reads 0 1 (.messageEnd ⟨403, "Forbidden"⟩)] ++
      Reader.budget 1 2 "0" "900000" ++ Reader.budget 1 700 "5" "0")
    (by decide +kernel)
  exact ⟨s, hforbids, ban_lasts Reader.headerFormats s hs⟩

/-- A response that another connection was reading lifts the ban at once. -/
theorem ban_lifted : ∃ s : State,
    (machine Reader.headerFormats true).Reachable s ∧ ¬BansLast s := by
  obtain ⟨s, hs, x, hx, hforbids, hnow, huntil⟩ := Machine.exists_reach
    (M := machine Reader.headerFormats true) (C := fun _ _ => True)
    (P := fun s => ∃ x ∈ s.log, forbids x = true ∧
      s.now < x.event.clock.system + blockedBackoff ∧
        s.throttle.suspendUntil < x.event.clock.system + blockedBackoff)
    ([Reader.reads 0 1 .messageBegin, Reader.reads 0 1 (.messageEnd ⟨403, "Forbidden"⟩)] ++
      Reader.budget 1 2 "5" "0")
    (by decide +kernel)
  refine ⟨s, hs, fun hlast => ?_⟩
  have hle := hlast x hx hforbids s.now (le_refl _) hnow
  omega

/-! ## What a response says -/

/-- The beginning or the end of a response of a connection. -/
def isBoundary (c : Nat) (x : Entry) : Bool :=
  x.event.connection == c &&
    match x.event.message with
    | .messageHeader _ => false
    | .messageBegin | .messageEnd _ => true

/-- What a header of a connection gives as the requests that remain. -/
def remainOf (formats : HeaderFormats) (c : Nat) (x : Entry) : Option Int32 :=
  match x.event.message with
  | .messageHeader header =>
    if x.event.connection = c ∧ lower header.name = requestsRemainName then
      (formats.int32 header.value).toOption
    else none
  | .messageBegin | .messageEnd _ => none

/-- What a header of a connection gives as their expiry. -/
def expireOf (formats : HeaderFormats) (c : Nat) (x : Entry) : Option Int64 :=
  match x.event.message with
  | .messageHeader header =>
    if x.event.connection = c ∧ lower header.name = requestsExpireName then
      (formats.int64 header.value).toOption
    else none
  | .messageBegin | .messageEnd _ => none

/-- A header that gives one of the two. -/
def tells (formats : HeaderFormats) (c : Nat) (x : Entry) : Bool :=
  (remainOf formats c x).isSome || (expireOf formats c x).isSome

/-- The headers of the response that a connection is reading say that the budget
is used up. -/
def usedUp (formats : HeaderFormats) (c : Nat) (l : List Entry) : Bool :=
  (since (isBoundary c) l).findSome? (remainOf formats c) == some 0 &&
    ((since (isBoundary c) l).findSome? (expireOf formats c)).any (· != 0)

/-- The system time at which they last said anything of it. -/
def toldAt (formats : HeaderFormats) (c : Nat) (l : List Entry) : Option Int :=
  (since (isBoundary c) l).findSome? fun x =>
    if tells formats c x then some x.event.clock.system else none

/-- Once a response has been processed that says that the budget is used up, by its
status or by its headers, requests are suspended. -/
def SuspendsAt (formats : HeaderFormats) (before : List Entry) (x : Entry) : Prop :=
  match x.event.message with
  | .messageEnd status =>
    status.code = 429 ∨ usedUp formats x.event.connection before = true →
      x.event.clock.system < x.suspendUntil
  | .messageBegin | .messageHeader _ => True

/-- What an event must not do: lift a suspension that a response still being read
asks for; say again what the throttle has already been told, once the suspension
has run out; end a response with status 429 after an earlier suspension has run
out; and end one after the suspension has run out that its own headers asked for. -/
def Heeds (formats : HeaderFormats) (s : State) (e : Event) : Prop :=
  match e.message with
  | .messageBegin => True
  | .messageHeader header =>
    let x : Entry := ⟨e, s.throttle.suspendUntil⟩
    (s.throttle.lifts formats header = true →
      ∀ y ∈ x :: s.log, usedUp formats y.event.connection (x :: s.log) = false) ∧
    (tells formats e.connection x = true → usedUp formats e.connection (x :: s.log) = true →
      s.throttle.changes formats header = true ∨ e.clock.system < s.throttle.suspendUntil)
  | .messageEnd status =>
    (status.code = 429 → s.throttle.suspendUntil = 0 ∨ e.clock.system < s.throttle.suspendUntil) ∧
    (status.code ≠ 403 → usedUp formats e.connection s.log = true →
      ∀ t, toldAt formats e.connection s.log = some t →
        s.throttle.suspendUntil ≤ t ∨ e.clock.system < s.throttle.suspendUntil)

/-- An event that is heeded, and of which every result fits in 64 bits. -/
def KeepsSuspension (formats : HeaderFormats) (s : State) (e : Event) : Prop :=
  EventWithin64 formats e s.throttle ∧ Heeds formats s e

/-- A response that is still being read, and says that the budget is used up, has
suspended requests. -/
def Suspended (formats : HeaderFormats) (s : State) : Prop :=
  ∀ c, usedUp formats c s.log = true → ∀ t, toldAt formats c s.log = some t →
    t < s.throttle.suspendUntil

/-- What says nothing of the budget on a connection. -/
theorem told_cons {formats : HeaderFormats} {c : Nat} {x : Entry} (hx : isBoundary c x = false)
    (htells : tells formats c x = false) (l : List Entry) :
    usedUp formats c (x :: l) = usedUp formats c l ∧
      toldAt formats c (x :: l) = toldAt formats c l := by
  have hnone : remainOf formats c x = none ∧ expireOf formats c x = none := by
    simpa [tells] using htells
  unfold usedUp toldAt
  rw [since_cons_neg hx]
  simp [hnone, htells]

/-- The response that has begun or ended says nothing. -/
theorem usedUp_of_boundary {formats : HeaderFormats} {c : Nat} {x : Entry}
    (hx : isBoundary c x = true) (l : List Entry) : usedUp formats c (x :: l) = false := by
  simp [usedUp, since, hx]

/-- What is said is in the event, not in what it leaves behind. -/
theorem usedUp_cons_event (formats : HeaderFormats) (c : Nat) (e : Event) (v w : Int)
    (l : List Entry) : usedUp formats c (⟨e, v⟩ :: l) = usedUp formats c (⟨e, w⟩ :: l) := by
  cases hx : isBoundary c ⟨e, v⟩ with
  | true =>
    have hx' : isBoundary c ⟨e, w⟩ = true := hx
    rw [usedUp_of_boundary hx, usedUp_of_boundary hx']
  | false =>
    unfold usedUp
    have hx' : isBoundary c ⟨e, w⟩ = false := hx
    rw [since_cons_neg hx, since_cons_neg hx']
    rfl

theorem of_other {formats : HeaderFormats} {c : Nat} {x : Entry} (h : x.event.connection ≠ c) :
    isBoundary c x = false ∧ tells formats c x = false := by
  refine ⟨by simp [isBoundary, h], ?_⟩
  unfold tells remainOf expireOf
  split <;> simp [h]

/-- What has been said has been said by a header. -/
theorem exists_tells_of_usedUp {formats : HeaderFormats} {c : Nat} {l : List Entry}
    (h : usedUp formats c l = true) : ∃ y ∈ since (isBoundary c) l, tells formats c y = true := by
  have hremain : (since (isBoundary c) l).findSome? (remainOf formats c) = some 0 := by
    simp only [usedUp, Bool.and_eq_true, beq_iff_eq] at h
    exact h.1
  obtain ⟨y, hy, hsome⟩ := List.exists_of_findSome?_eq_some hremain
  exact ⟨y, hy, by simp [tells, hsome]⟩

/-- A connection that says something has an entry. -/
theorem exists_of_usedUp {formats : HeaderFormats} {c : Nat} {l : List Entry}
    (h : usedUp formats c l = true) : ∃ y ∈ l, y.event.connection = c := by
  obtain ⟨y, hy, htells⟩ := exists_tells_of_usedUp h
  refine ⟨y, (List.takeWhile_sublist _).subset hy, ?_⟩
  by_contra hne
  rw [(of_other hne).2] at htells
  cases htells

/-- What has been said has been said at some time. -/
theorem exists_toldAt {formats : HeaderFormats} {c : Nat} {l : List Entry}
    (h : usedUp formats c l = true) : ∃ t, toldAt formats c l = some t := by
  obtain ⟨y, hy, htells⟩ := exists_tells_of_usedUp h
  refine Option.isSome_iff_exists.mp (List.findSome?_isSome_iff.mpr ⟨y, hy, ?_⟩)
  simp [htells]

/-- A header that does not lift the suspension: what was said before still
suspends, and what it says itself does. -/
theorem Suspended.header {formats : HeaderFormats} {s : State} {e : Event} {header : MessageHeader}
    (hm : e.message = .messageHeader header) (hrunning : Running s) (hs : Suspended formats s)
    (hlifts : s.throttle.lifts formats header = false)
    (htells : ∀ v, tells formats e.connection ⟨e, v⟩ = true →
      usedUp formats e.connection (⟨e, v⟩ :: s.log) = true →
        s.throttle.changes formats header = true ∨ e.clock.system < s.throttle.suspendUntil)
    (v : Int) : Suspended formats ⟨(s.throttle.onMessageHeader formats header e.clock).state,
      e.clock.system, ⟨e, v⟩ :: s.log⟩ := by
  obtain ⟨hle, hchanges⟩ := onMessageHeader_of_not_lifts e.clock hrunning.enabled hlifts
  have hboundary : ∀ c, isBoundary c ⟨e, v⟩ = false := fun c => by simp [isBoundary, hm]
  intro c husedUp t ht
  dsimp only at husedUp ht ⊢
  cases htold : tells formats c ⟨e, v⟩ with
  | false =>
    obtain ⟨hsame, hat⟩ := told_cons (hboundary c) htold s.log
    rw [hsame] at husedUp
    rw [hat] at ht
    exact (hs c husedUp t ht).trans_le hle
  | true =>
    have hown : e.connection = c := by
      by_contra hne
      have hnone : tells formats c ⟨e, v⟩ = false := (of_other hne).2
      rw [htold] at hnone
      cases hnone
    subst hown
    have hnow : t = e.clock.system := by
      rw [toldAt, since_cons_neg (hboundary _), List.findSome?_cons_of_isSome (by simp [htold])]
        at ht
      simpa [htold] using ht.symm
    rw [hnow]
    rcases htells v htold husedUp with h | h
    · exact hchanges h
    · exact h.trans_le hle

/-- The beginning or the end of a response: the one that began or ended says
nothing any more, and the suspension is not cut short. -/
theorem Suspended.boundary {formats : HeaderFormats} {s : State} {x : Entry} {t : Throttle}
    (hx : isBoundary x.event.connection x = true) (hle : s.throttle.suspendUntil ≤ t.suspendUntil)
    (hs : Suspended formats s) (now : Int) : Suspended formats ⟨t, now, x :: s.log⟩ := by
  intro c husedUp at_ hat
  dsimp only at husedUp hat ⊢
  by_cases hown : x.event.connection = c
  · rw [usedUp_of_boundary (hown ▸ hx)] at husedUp
    cases husedUp
  · obtain ⟨hboundary, htells⟩ : isBoundary c x = false ∧ tells formats c x = false := of_other hown
    obtain ⟨hsame, hsameAt⟩ := told_cons hboundary htells s.log
    rw [hsame] at husedUp
    rw [hsameAt] at hat
    exact (hs c husedUp at_ hat).trans_le hle

/-- What a step does that keeps the suspension. -/
theorem Suspended.step {formats : HeaderFormats} {s s' : State} {e : Event} (hrunning : Running s)
    (hheeds : Heeds formats s e) (h : step formats s e = some s') (hs : Suspended formats s) :
    Suspended formats s' := by
  obtain ⟨hnow, rfl⟩ := step_cases h
  have hclock := hrunning.now.trans hnow
  unfold Heeds at hheeds
  split at hheeds
  · rename_i hm
    simp only [handle, hm, Outcome.state_ok]
    exact hs.boundary (by simp [isBoundary, hm]) (le_refl _) _
  · rename_i header hm
    obtain ⟨hlifts, htells⟩ := hheeds
    simp only [handle, hm]
    cases hl : s.throttle.lifts formats header with
    | false =>
      refine hs.header hm hrunning hl (fun v ht husedUp => htells ht ?_) _
      rw [usedUp_cons_event formats _ e _ v]
      exact husedUp
    | true =>
      -- nobody has been told that the budget is used up
      intro c husedUp
      rw [usedUp_cons_event formats c e _ s.throttle.suspendUntil] at husedUp
      obtain ⟨y, hy, rfl⟩ := exists_of_usedUp husedUp
      rw [hlifts hl y hy] at husedUp
      cases husedUp
  · rename_i status hm
    simp only [handle, hm, Outcome.state_ok]
    exact hs.boundary (by simp [isBoundary, hm]) (le_onMessageEnd _ hclock _) _

/-- The end of a response, where those being read have suspended requests. -/
theorem Suspended.suspendsAt {formats : HeaderFormats} {s : State} {e : Event}
    (hrunning : Running s) (hnow : s.now ≤ e.clock.system) (hheeds : Heeds formats s e)
    (hs : Suspended formats s) :
    SuspendsAt formats s.log ⟨e, (handle formats e s.throttle).state.suspendUntil⟩ := by
  have hclock := hrunning.now.trans hnow
  unfold SuspendsAt
  split
  · rename_i status hm
    dsimp only at hm ⊢
    simp only [Heeds, hm] at hheeds
    obtain ⟨htoomany, hends⟩ := hheeds
    simp only [handle, hm, Outcome.state_ok]
    rintro (hcode | husedUp)
    · exact onMessageEnd_of_tooManyRequests hcode hrunning.enabled (htoomany hcode)
    · by_cases hcode : status.code = 403
      · have hban := onMessageEnd_of_forbidden hcode e.clock hrunning.enabled
        have hpos : 0 < blockedBackoff := by decide
        omega
      · obtain ⟨t, ht⟩ := exists_toldAt husedUp
        have hlater : t < s.throttle.suspendUntil := hs _ husedUp t ht
        have hle := le_onMessageEnd status hclock s.throttle
        have hstill := (hends hcode husedUp t ht).resolve_left (by omega)
        omega
  · trivial
  · trivial

theorem suspended_reach {formats : HeaderFormats} {s : State}
    (h : (machine64 formats true).Reach (KeepsSuspension formats) s) :
    Suspended formats s ∧ Always (SuspendsAt formats) s.log := by
  refine (reach_of_reach64 h).invariant_of
    (I := fun s => Suspended formats s ∧ Always (SuspendsAt formats) s.log) (fun _ => running formats)
    ⟨fun c hc => ?_, always_nil⟩ ?_
  · obtain ⟨y, hy, -⟩ := exists_of_usedUp hc
    cases hy
  · intro s e s' hrunning ⟨hs, hlog⟩ hkeeps hstep
    refine ⟨hs.step hrunning hkeeps.2 hstep, ?_⟩
    obtain ⟨hnow, rfl⟩ := step_cases hstep
    exact ⟨hs.suspendsAt hrunning hnow hkeeps.2, hlog⟩

/-- In runs whose steps all keep the suspension, every response that says that
the budget is used up suspends requests; and no such step is undefined. -/
theorem used_up_suspends (formats : HeaderFormats) (s : State)
    (h : (machine64 formats true).Reach (KeepsSuspension formats) s) :
    Always (SuspendsAt formats) s.log ∧
      ∀ e : Event, s.now ≤ e.clock.system → KeepsSuspension formats s e →
        ∃ s', step64 formats s e = some s' := by
  refine ⟨(suspended_reach h).2, fun e hnow hkeeps => ?_⟩
  have hstep : ∃ s', step formats s e = some s' := by
    rw [step, if_neg (Int.not_lt.mpr hnow)]
    exact ⟨_, rfl⟩
  obtain ⟨s', hs'⟩ := hstep
  exact ⟨s', step64_eq_some_iff.mpr ⟨hkeeps.1, hs'⟩⟩

instance (formats : HeaderFormats) (s : State) : ∀ e : Event, Decidable (Heeds formats s e)
  | ⟨_, _, .messageBegin⟩ => .isTrue trivial
  | ⟨connection, clock, .messageHeader header⟩ =>
    have hdec : ∀ x : Entry, Decidable ((s.throttle.lifts formats header = true →
        ∀ y ∈ x :: s.log, usedUp formats y.event.connection (x :: s.log) = false) ∧
      (tells formats connection x = true → usedUp formats connection (x :: s.log) = true →
        s.throttle.changes formats header = true ∨ clock.system < s.throttle.suspendUntil)) :=
      fun _ => inferInstance
    hdec ⟨⟨connection, clock, .messageHeader header⟩, s.throttle.suspendUntil⟩
  | ⟨c, clock, .messageEnd status⟩ =>
    inferInstanceAs (Decidable ((status.code = 429 →
        s.throttle.suspendUntil = 0 ∨ clock.system < s.throttle.suspendUntil) ∧
      (status.code ≠ 403 → usedUp formats c s.log = true →
        ∀ t ∈ toldAt formats c s.log,
          s.throttle.suspendUntil ≤ t ∨ clock.system < s.throttle.suspendUntil)))

instance (formats : HeaderFormats) (s : State) (e : Event) : Decidable (KeepsSuspension formats s e) :=
  inferInstanceAs (Decidable (_ ∧ _))

/-- The budget is used up, a response with status 429 follows, and later the
budget is used up until another time. -/
theorem used_up_suspends_twice : ∃ s : State,
    usedUp Reader.headerFormats 0 s.log.tail = true ∧
      Always (SuspendsAt Reader.headerFormats) s.log := by
  obtain ⟨s, hs, husedUp⟩ := Machine.exists_reach (M := machine64 Reader.headerFormats true)
    (C := KeepsSuspension Reader.headerFormats)
    (P := fun s => usedUp Reader.headerFormats 0 s.log.tail = true)
    (Reader.budget 0 1 "0" "9000" ++ [Reader.reads 0 1 (.messageEnd ⟨200, "OK"⟩),
        Reader.reads 1 2 (.messageEnd ⟨429, "Too Many Requests"⟩)] ++
      Reader.budget 0 20 "0" "29000" ++ [Reader.reads 0 20 (.messageEnd ⟨200, "OK"⟩)])
    (by decide +kernel)
  exact ⟨s, husedUp, (used_up_suspends Reader.headerFormats s hs).1⟩

instance (formats : HeaderFormats) (before : List Entry) :
    ∀ x : Entry, Decidable (SuspendsAt formats before x)
  | ⟨⟨_, _, .messageBegin⟩, _⟩ => .isTrue trivial
  | ⟨⟨_, _, .messageHeader _⟩, _⟩ => .isTrue trivial
  | ⟨⟨c, clock, .messageEnd status⟩, suspendUntil⟩ =>
    inferInstanceAs (Decidable (status.code = 429 ∨ usedUp formats c before = true →
      clock.system < suspendUntil))

/-- A second response with status 429 suspends nothing, and neither does a second
one with the same headers. -/
theorem not_suspended_again :
    (∃ s : State, (machine64 Reader.headerFormats true).Reachable s ∧
      ¬Always (SuspendsAt Reader.headerFormats) s.log ∧ s.throttle.params = ⟨0, 0⟩) ∧
    ∃ s : State, (machine64 Reader.headerFormats true).Reachable s ∧
      ¬Always (SuspendsAt Reader.headerFormats) s.log ∧ s.throttle.params = ⟨0, 9000⟩ := by
  constructor
  · exact Machine.exists_reach
      [Reader.reads 0 1 (.messageEnd ⟨429, "Too Many Requests"⟩),
        Reader.reads 0 10 (.messageEnd ⟨429, "Too Many Requests"⟩)]
      (by decide +kernel)
  · exact Machine.exists_reach
      (Reader.budget 0 1 "0" "9000" ++ [Reader.reads 0 1 (.messageEnd ⟨200, "OK"⟩)] ++
        Reader.budget 0 20 "0" "9000" ++ [Reader.reads 0 20 (.messageEnd ⟨200, "OK"⟩)])
      (by decide +kernel)

end RoqHtx.Throttle

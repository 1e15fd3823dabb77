import RoqHtx.Proof.Throttle

/-!
# The order of the two headers

Each of the two headers makes the throttle decide at once, the first one with its
own new value and the other value of an earlier response. What it decides may
outlast the response, or need more than 64 bits: the order of the headers does not
matter exactly if nothing that is decided in between outlasts the response
(`OrderFree`), and all that either order computes fits (`PairWithin64`,
`headers_order_iff`).
-/

namespace RoqHtx.Throttle

/-! ## A header at a time -/

/-- What a header leaves behind, whatever it threw. -/
def onHeader (formats : HeaderFormats) (clock : Clock) (t : Throttle) (header : MessageHeader) :
    Option Throttle :=
  (t.onMessageHeader64 formats header clock).map Outcome.state

/-- What the headers of a response leave behind, at one reading of the clocks:
undefined where one of them is. -/
def onHeaders (formats : HeaderFormats) (clock : Clock) (headers : List MessageHeader) (t : Throttle) :
    Option Throttle :=
  headers.foldlM (onHeader formats clock) t

/-- The parameters that a header of either kind leaves behind: a value that cannot be
read leaves the old one. -/
def Params.read (formats : HeaderFormats) (old : Params) (remain expire : MessageHeader) : Params where
  requestsRemain := (formats.int32 remain.value).toOption.getD old.requestsRemain
  requestsExpire := (formats.int64 expire.value).toOption.getD old.requestsExpire

/-- Until when parameters suspend requests, if the budget is used up. -/
def Params.until_ (params : Params) (clock : Clock) : Int := clock.system + params.period clock

/-- `suspend_until_`, once parameters have been replaced. -/
def Params.suspends (old new : Params) (clock : Clock) (suspendUntil : Int) : Int :=
  if new = old then suspendUntil
  else if new.available then 0
  else max suspendUntil (new.until_ clock)

/-- The parameters are replaced. -/
def replace (new : Params) (clock : Clock) (t : Throttle) : Throttle :=
  ⟨t.enabled, new, t.params.suspends new clock t.suspendUntil⟩

/-- A header replaces the parameters, or is undefined. -/
theorem onHeader_eq_some_iff {formats : HeaderFormats} {header : MessageHeader} {clock : Clock}
    {t t' : Throttle} (henabled : t.enabled = true) {new : Params}
    (h : ((t.params.update formats header).toOption.getD t.params) = new) :
    onHeader formats clock t header = some t' ↔
      t.params.ChangesWithin64 new clock ∧ replace new clock t = t' := by
  have hstate : (t.onMessageHeader formats header clock).state = replace new clock t := by
    subst h
    unfold onMessageHeader
    cases t.params.update formats header with
    | error e => simp [replace, Params.suspends, Except.toOption]
    | ok params =>
      simp only [Except.toOption, Option.getD_some, Outcome.state_ok, replace, Params.suspends]
      by_cases hsame : params = t.params
      · simp only [hsame, if_true]
      · simp only [hsame, if_false, updateSuspendUntil, henabled, Bool.not_true, Bool.false_eq_true]
        by_cases havailable : params.available = true
        · simp only [havailable, if_true]
        · simp only [havailable, if_false, Params.until_, Bool.false_eq_true]
  have hwithin : (∀ params, t.params.update formats header = .ok params → t.enabled = true →
      t.params.ChangesWithin64 params clock) ↔ t.params.ChangesWithin64 new clock := by
    subst h
    cases t.params.update formats header with
    | error e => simp [Params.ChangesWithin64, Except.toOption]
    | ok params => simp [henabled, Except.toOption]
  rw [onHeader, Option.map_eq_some_iff, ← hwithin, ← hstate]
  constructor
  · rintro ⟨o, ho, rfl⟩
    obtain ⟨hall, rfl⟩ := onMessageHeader64_eq_some_iff.mp ho
    exact ⟨hall, rfl⟩
  · rintro ⟨hall, rfl⟩
    exact ⟨_, onMessageHeader64_eq_some_iff.mpr ⟨hall, rfl⟩, rfl⟩

/-- Other headers do nothing. -/
theorem onHeaders_unknown {formats : HeaderFormats} (clock : Clock) {headers : List MessageHeader}
    (h : ∀ header ∈ headers, parseHeader formats header.name = .unknown) (t : Throttle) :
    onHeaders formats clock headers t = some t := by
  induction headers with
  | nil => rfl
  | cons header headers ih =>
    obtain ⟨hheader, hheaders⟩ := List.forall_mem_cons.mp h
    have hfirst : onHeader formats clock t header = some t := by
      simp [onHeader, onMessageHeader64, Params.update, hheader]
    rw [onHeaders, List.foldlM_cons, hfirst]
    exact ih hheaders

theorem onHeaders_pair {formats : HeaderFormats} (clock : Clock) {pre mid post : List MessageHeader}
    (hother : ∀ header ∈ pre ++ mid ++ post, parseHeader formats header.name = .unknown)
    (first second : MessageHeader) (t : Throttle) :
    onHeaders formats clock (pre ++ first :: mid ++ second :: post) t =
      (onHeader formats clock t first).bind fun t => onHeader formats clock t second := by
  have hpre : ∀ header ∈ pre, parseHeader formats header.name = .unknown := fun header h =>
    hother header (by simp [h])
  have hmid : ∀ header ∈ mid, parseHeader formats header.name = .unknown := fun header h =>
    hother header (by simp [h])
  have hpost : ∀ header ∈ post, parseHeader formats header.name = .unknown := fun header h =>
    hother header (by simp [h])
  have others : ∀ {headers : List MessageHeader} (t' : Throttle),
      (∀ header ∈ headers, parseHeader formats header.name = .unknown) →
        headers.foldlM (onHeader formats clock) t' = some t' := fun t' h => onHeaders_unknown clock h t'
  simp only [onHeaders, List.append_assoc, List.cons_append, List.foldlM_append, List.foldlM_cons,
    others _ hpre, others _ hmid, others _ hpost, Option.bind_eq_bind, Option.bind_some]
  cases onHeader formats clock t first with
  | none => rfl
  | some t' => simp only [Option.bind_some, Option.bind_fun_some]

/-! ## Two orders -/

/-- Nothing that is decided in between outlasts the response: both values are not
new, or they do not say that the budget is used up, or else neither what was
suspended before nor what the old time gives is later than what the new one gives,
as far as only one of the orders drops it. -/
def OrderFree (clock : Clock) (old new : Params) (suspendUntil : Int) : Prop :=
  new.requestsRemain = old.requestsRemain ∨ new.requestsExpire = old.requestsExpire ∨
    new.available = true ∨
      if old.requestsExpire = 0 then 0 < old.requestsRemain ∨ suspendUntil ≤ new.until_ clock
      else if 0 < old.requestsRemain then
        suspendUntil ≤ new.until_ clock ∧ old.until_ clock ≤ new.until_ clock
      else old.until_ clock ≤ max suspendUntil (new.until_ clock)

instance (clock : Clock) (old new : Params) (suspendUntil : Int) :
    Decidable (OrderFree clock old new suspendUntil) :=
  inferInstanceAs (Decidable (_ ∨ _ ∨ _ ∨ ite _ _ (ite _ _ _)))

theorem until_pos {clock : Clock} (hclock : 0 ≤ clock.system) (params : Params) :
    0 < params.until_ clock := by
  have := params.period_pos clock
  rw [Params.until_]
  omega

theorem suspends_order_iff {clock : Clock} (hclock : 0 ≤ clock.system) (old new : Params)
    (suspendUntil : Int) :
    (Params.mk new.requestsRemain old.requestsExpire).suspends new clock
        (old.suspends ⟨new.requestsRemain, old.requestsExpire⟩ clock suspendUntil) =
      (Params.mk old.requestsRemain new.requestsExpire).suspends new clock
        (old.suspends ⟨old.requestsRemain, new.requestsExpire⟩ clock suspendUntil) ↔
    OrderFree clock old new suspendUntil := by
  obtain ⟨r₀, e₀⟩ := old
  obtain ⟨r, e⟩ := new
  have hnew := until_pos hclock ⟨r, e⟩
  have hsame : (Params.mk r e₀).until_ clock = (Params.mk r₀ e₀).until_ clock := rfl
  have hsame' : (Params.mk r₀ e).until_ clock = (Params.mk r e).until_ clock := rfl
  unfold OrderFree Params.suspends
  simp only [Params.mk.injEq, true_and, and_true, hsame, hsame', Params.available,
    Bool.or_eq_true, decide_eq_true_eq, beq_iff_eq]
  rcases eq_or_ne r r₀ with rfl | hr
  · simp
  rcases eq_or_ne e e₀ with rfl | he
  · simp [hsame']
  generalize (Params.mk r e).until_ clock = u at *
  generalize (Params.mk r₀ e₀).until_ clock = u₀ at *
  by_cases hused : 0 < r ∨ e = 0
  · simp [hr, he, hused]
  obtain ⟨hrun, hknown⟩ := not_or.mp hused
  simp only [hr, he, hrun, hknown, if_false, false_or, or_false]
  -- what is left is whether each of the two orders drops what was suspended before
  by_cases he₀ : e₀ = 0
  · by_cases hr₀ : 0 < r₀
    · simp only [he₀, hr₀, if_true, true_or]
    · simp only [he₀, hr₀, if_true, if_false, false_or]
      omega
  · by_cases hr₀ : 0 < r₀
    · simp only [he₀, hr₀, if_true, if_false]
      omega
    · simp only [he₀, hr₀, if_false]
      omega

/-- All that either of the two orders computes fits in 64 bits. -/
def PairWithin64 (clock : Clock) (old new : Params) : Prop :=
  old.ChangesWithin64 ⟨new.requestsRemain, old.requestsExpire⟩ clock ∧
    old.ChangesWithin64 ⟨old.requestsRemain, new.requestsExpire⟩ clock ∧
    old.ChangesWithin64 new clock

instance (clock : Clock) (old new : Params) : Decidable (PairWithin64 clock old new) :=
  inferInstanceAs (Decidable (_ ∧ _ ∧ _))

theorem pairWithin64_iff (clock : Clock) (old new : Params) :
    PairWithin64 clock old new ↔
      (old.ChangesWithin64 ⟨new.requestsRemain, old.requestsExpire⟩ clock ∧
        (Params.mk new.requestsRemain old.requestsExpire).ChangesWithin64 new clock) ∧
      old.ChangesWithin64 ⟨old.requestsRemain, new.requestsExpire⟩ clock ∧
        (Params.mk old.requestsRemain new.requestsExpire).ChangesWithin64 new clock := by
  obtain ⟨r₀, e₀⟩ := old
  obtain ⟨r, e⟩ := new
  simp only [PairWithin64, Params.ChangesWithin64, Ne, Params.mk.injEq, not_and_or, true_and, and_true]
  constructor
  · rintro ⟨hremain, hexpire, hnew⟩
    exact ⟨⟨hremain, fun he => hnew (.inr he)⟩, hexpire, fun hr => hnew (.inl hr)⟩
  · rintro ⟨⟨hremain, hnew⟩, hexpire, hnew'⟩
    exact ⟨hremain, hexpire, fun h => h.elim hnew' hnew⟩

section

variable {formats : HeaderFormats} {header : MessageHeader} (params : Params)

theorem update_of_remain (h : parseHeader formats header.name = .xHbRatelimitRequestsRemain) :
    (params.update formats header).toOption.getD params =
      ⟨(formats.int32 header.value).toOption.getD params.requestsRemain, params.requestsExpire⟩ := by
  rw [Params.update, h]
  cases formats.int32 header.value <;> rfl

theorem update_of_expire (h : parseHeader formats header.name = .xHbRatelimitRequestsExpire) :
    (params.update formats header).toOption.getD params =
      ⟨params.requestsRemain, (formats.int64 header.value).toOption.getD params.requestsExpire⟩ := by
  rw [Params.update, h]
  cases formats.int64 header.value <;> rfl

end

/-- Two headers, one after the other. -/
theorem onHeader_bind_eq_some_iff {formats : HeaderFormats} {first second : MessageHeader}
    {t : Throttle} (henabled : t.enabled = true) {mid new : Params}
    (hfirst : (t.params.update formats first).toOption.getD t.params = mid)
    (hsecond : (mid.update formats second).toOption.getD mid = new) (t' : Throttle) (clock : Clock) :
    ((onHeader formats clock t first).bind fun t => onHeader formats clock t second) = some t' ↔
      (t.params.ChangesWithin64 mid clock ∧ mid.ChangesWithin64 new clock) ∧
        Throttle.mk t.enabled new
          (mid.suspends new clock (t.params.suspends mid clock t.suspendUntil)) = t' := by
  rw [Option.bind_eq_some_iff]
  constructor
  · rintro ⟨u, hu, ht'⟩
    obtain ⟨hmid, rfl⟩ := (onHeader_eq_some_iff henabled hfirst).mp hu
    obtain ⟨hnew, rfl⟩ := (onHeader_eq_some_iff (t := replace mid clock t) henabled hsecond).mp ht'
    exact ⟨⟨hmid, hnew⟩, rfl⟩
  · rintro ⟨⟨hmid, hnew⟩, rfl⟩
    exact ⟨_, (onHeader_eq_some_iff henabled hfirst).mpr ⟨hmid, rfl⟩,
      (onHeader_eq_some_iff (t := replace mid clock t) henabled hsecond).mpr ⟨hnew, rfl⟩⟩

/-- In every state reached, the two headers of a response leave the same behind in
either order, whatever stands around them, exactly if nothing that is decided in
between outlasts the response, and all that is computed fits in 64 bits. -/
theorem headers_order_iff (formats : HeaderFormats) (s : State)
    (hs : (machine64 formats true).Reachable s) {clock : Clock} (hclock : s.now ≤ clock.system)
    {remain expire : MessageHeader}
    (hremain : parseHeader formats remain.name = .xHbRatelimitRequestsRemain)
    (hexpire : parseHeader formats expire.name = .xHbRatelimitRequestsExpire)
    {pre mid post : List MessageHeader}
    (hother : ∀ header ∈ pre ++ mid ++ post, parseHeader formats header.name = .unknown) :
    (∃ t, onHeaders formats clock (pre ++ remain :: mid ++ expire :: post) s.throttle = some t ∧
        onHeaders formats clock (pre ++ expire :: mid ++ remain :: post) s.throttle = some t) ↔
      OrderFree clock s.throttle.params (s.throttle.params.read formats remain expire)
          s.throttle.suspendUntil ∧
        PairWithin64 clock s.throttle.params (s.throttle.params.read formats remain expire) := by
  have hrunning := running formats (reach_of_reach64 hs)
  have hsystem : 0 ≤ clock.system := hrunning.now.trans hclock
  have remainFirst := fun t' => onHeader_bind_eq_some_iff hrunning.enabled
    (update_of_remain s.throttle.params hremain) (update_of_expire _ hexpire) t' clock
  have expireFirst := fun t' => onHeader_bind_eq_some_iff hrunning.enabled
    (update_of_expire s.throttle.params hexpire) (update_of_remain _ hremain) t' clock
  simp only [onHeaders_pair clock hother, remainFirst, expireFirst]
  rw [← suspends_order_iff hsystem, pairWithin64_iff]
  constructor
  · rintro ⟨t, ⟨hremains, rfl⟩, hexpires, hsame⟩
    exact ⟨(Throttle.mk.inj hsame).2.2.symm, hremains, hexpires⟩
  · rintro ⟨hsame, hremains, hexpires⟩
    exact ⟨_, ⟨hremains, rfl⟩, hexpires, congrArg (Throttle.mk _ _) hsame.symm⟩

-- the order would be free, but the time lies too far ahead of the system clock
example : OrderFree ⟨2000000000, 1000000000⟩ ⟨10, 1000⟩ ⟨0, 9223372036854⟩ 0 ∧
    ¬PairWithin64 ⟨2000000000, 1000000000⟩ ⟨10, 1000⟩ ⟨0, 9223372036854⟩ := by
  decide +kernel

/-- A budget is used up for longer than was said of the last one: its headers may come
in either order. -/
theorem headers_order_longer : ∃ s : State, s.throttle.params = ⟨5, 8000⟩ ∧
    ∃ t, onHeaders Reader.headerFormats ⟨2000000000, 2000000000⟩
        ([⟨"Content-Type", "application/json"⟩] ++ ⟨"x-hb-ratelimit-requests-remain", "0"⟩ :: [] ++
          ⟨"X-HB-RateLimit-Requests-Expire", "9000"⟩ :: []) s.throttle = some t ∧
      onHeaders Reader.headerFormats ⟨2000000000, 2000000000⟩
        ([⟨"Content-Type", "application/json"⟩] ++ ⟨"X-HB-RateLimit-Requests-Expire", "9000"⟩ :: [] ++
          ⟨"x-hb-ratelimit-requests-remain", "0"⟩ :: []) s.throttle = some t := by
  obtain ⟨s, hs, hnow, huntil, hparams⟩ := Machine.exists_reach
    (M := machine64 Reader.headerFormats true) (C := fun _ _ => True)
    (P := fun s => s.now = 1000000000 ∧ s.throttle.suspendUntil = 0 ∧ s.throttle.params = ⟨5, 8000⟩)
    (Reader.budget 0 1 "5" "8000") (by decide +kernel)
  refine ⟨s, hparams, (headers_order_iff Reader.headerFormats s hs (by rw [hnow]; decide)
    (by decide +kernel) (by decide +kernel) (by decide +kernel)).mpr ?_⟩
  have hnew : Params.read Reader.headerFormats ⟨5, 8000⟩ ⟨"x-hb-ratelimit-requests-remain", "0"⟩
      ⟨"X-HB-RateLimit-Requests-Expire", "9000"⟩ = ⟨0, 9000⟩ := by decide +kernel
  have free : OrderFree ⟨2000000000, 2000000000⟩ ⟨5, 8000⟩ ⟨0, 9000⟩ 0 ∧
      PairWithin64 ⟨2000000000, 2000000000⟩ ⟨5, 8000⟩ ⟨0, 9000⟩ := by decide +kernel
  rw [hparams, huntil, hnew]
  exact free

/-- A response with the budget used up for one more second, after one with some of
it left whose time is over: if what remains comes first, requests are suspended for
five seconds. -/
theorem headers_order_matters : ∃ s : State,
    (machine64 Reader.headerFormats true).Reachable s ∧ s.now ≤ 100000000000 ∧
      (onHeaders Reader.headerFormats ⟨100000000000, 100000000000⟩
          [⟨"X-HB-RateLimit-Requests-Remain", "0"⟩, ⟨"X-HB-RateLimit-Requests-Expire", "101000"⟩]
          s.throttle).map suspendUntil = some 105000000000 ∧
      (onHeaders Reader.headerFormats ⟨100000000000, 100000000000⟩
          [⟨"X-HB-RateLimit-Requests-Expire", "101000"⟩, ⟨"X-HB-RateLimit-Requests-Remain", "0"⟩]
          s.throttle).map suspendUntil = some 101000000000 :=
  Machine.exists_reach (Reader.budget 0 1 "10" "1000") (by decide +kernel)

end RoqHtx.Throttle

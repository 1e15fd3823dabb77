import RoqHtx.Proof.Routing

/-!
# One message, one handler

A handler is called at most once, with the message that the first member that is
not passed over decides (`dispatch_delivers`). A value that has to be a text, and
is none, makes routing throw or terminate, whatever the settings are; with
unknown event types allowed this is the only way in which routing itself fails
(`routing_returns_iff`).
-/

namespace RoqHtx.Parser

open Json

variable {σ : Type} (p : Parser)

/-! ## Calls of the handler -/

/-- A handler that also notes the messages it is called with. -/
def noting (handler : Message → σ → Outcome Exn σ) (m : Message) (s : List Message × σ) :
    Outcome Exn (List Message × σ) :=
  (handler m s.2).map fun s' => (s.1 ++ [m], s')

/-- `dispatch`, with the messages that the handler is called with. -/
def noted (allow : Bool) (handler : Message → σ → Outcome Exn σ) (message : Members) (s : σ) :
    Outcome Exn (Bool × List Message × σ) :=
  p.dispatch allow (noting handler) message ([], s)

def calls (allow : Bool) (handler : Message → σ → Outcome Exn σ) (message : Members) (s : σ) :
    List Message :=
  (p.noted allow handler message s).state.2.1

/-- The message that a member decides on, if it can be decoded. -/
def decidedMessage (message : Members) : Route → List Message
  | .handle kind => (p.decode kind message).toOption.toList
  | .next | .stop | .throws _ | .fatal => []

/-- The scan has ended without a handler, and the process terminates. -/
def LacksRoute (allow : Bool) (handler : Message → σ → Outcome Exn σ) (message : Members) (s : σ) :
    Prop :=
  p.dispatchMembers handler message message s = .ok (false, s) ∧
    p.dispatch allow handler message s = .fatal (false, s)

/-- The first member that is not passed over cannot be read, or decides on a message
that cannot be decoded. -/
def ReadingFails (message : Members) : Prop :=
  ∃ pre x post, message = pre ++ x :: post ∧ (∀ y ∈ pre, p.PassedOver y) ∧ ¬p.PassedOver x ∧
    (p.Unreadable x ∨ ∃ kind e, p.route x.1 x.2 = .handle kind ∧ p.decode kind message = .error e)

/-- A handler is called at most once, as the first member decides that is not passed
over. -/
structure Delivers (allow : Bool) (handler : Message → σ → Outcome Exn σ) (message : Members)
    (s : σ) : Prop where
  once : (p.calls allow handler message s).length ≤ 1
  passedOver : (∀ x ∈ message, p.PassedOver x) → p.calls allow handler message s = []
  decides : ∀ pre x post, message = pre ++ x :: post → (∀ y ∈ pre, p.PassedOver y) →
    ¬p.PassedOver x → p.calls allow handler message s = p.decidedMessage message (p.route x.1 x.2)
  /-- The overload is the one of the decoded type. -/
  overload : ∀ pre x post, message = pre ++ x :: post → (∀ y ∈ pre, p.PassedOver y) →
    ¬p.PassedOver x → ∀ m ∈ p.calls allow handler message s, p.route x.1 x.2 = .handle m.kind
  /-- It returns true exactly if a handler has been called, and has returned. -/
  called : (∃ s', p.noted allow handler message s = .ok (true, s')) ↔
    ∃ m s', p.calls allow handler message s = [m] ∧ handler m s = .ok s'
  /-- If it returns at all, the result says whether one has been called. -/
  returns : ∀ r s', p.noted allow handler message s = .ok (r, s') →
    (r = true ↔ p.calls allow handler message s ≠ [])
  lacksRoute : p.LacksRoute allow handler message s ↔
    p.calls allow handler message s = [] ∧ allow = false ∧ ¬p.ReadingFails message

theorem readingFails_iff (message : Members) : p.ReadingFails message ↔
    ∃ r, p.decided message = some r ∧
      (r.fails = true ∨ ∃ kind e, r = .handle kind ∧ p.decode kind message = .error e) := by
  constructor
  · rintro ⟨pre, x, post, rfl, hpre, hx, hfails⟩
    exact ⟨_, decided_append p hpre hx, hfails.imp_left (route_fails_iff p x).mpr⟩
  · rintro ⟨r, hr, hfails⟩
    rcases p.decided_cases message with ⟨-, hnone⟩ | ⟨pre, x, post, heq, hpre, hx, hsome⟩
    · rw [hnone] at hr
      cases hr
    · rw [hsome, Option.some.injEq] at hr
      subst hr
      exact ⟨pre, x, post, heq, hpre, hx, hfails.imp_left (route_fails_iff p x).mp⟩

variable {p}

theorem calls_eq (allow : Bool) (handler : Message → σ → Outcome Exn σ) (message : Members) (s : σ) :
    p.calls allow handler message s = (p.delivered message).toList := by
  rw [calls, noted, dispatch_state]
  cases p.delivered message with
  | none => rfl
  | some m => simp [noting]

theorem delivered_eq {message : Members} {r : Route} (h : p.decided message = some r) :
    (p.delivered message).toList = p.decidedMessage message r := by
  rw [delivered, h]
  cases r <;> rfl

theorem kind_of_delivered {message : Members} {m : Message} (h : p.delivered message = some m) :
    p.decided message = some (.handle m.kind) ∧ p.decode m.kind message = .ok m := by
  unfold delivered at h
  split at h
  · rename_i kind hkind
    cases hd : p.decode kind message with
    | error e => rw [hd] at h; cases h
    | ok m' =>
      rw [hd] at h
      cases h
      rw [p.decode_kind hd]
      exact ⟨hkind, hd⟩
  · cases h

/-- How the scan ends, with the handler noted. -/
theorem noted_eq (allow : Bool) (handler : Message → σ → Outcome Exn σ) (message : Members) (s : σ) :
    p.noted allow handler message s =
      (p.follow (noting handler) message ([], s) (p.decided message)).bind fun r =>
        if r.1 || allow then .ok r else .fatal r :=
  p.dispatch_eq allow _ message _

/-- The scan returns without a handler exactly if none is called and nothing that
is read on the way fails. -/
theorem follow_eq_false_iff (handler : Message → σ → Outcome Exn σ) (message : Members) (s : σ) :
    p.follow handler message s (p.decided message) = .ok (false, s) ↔
      p.delivered message = none ∧ ¬p.ReadingFails message := by
  rw [readingFails_iff]
  cases hd : p.decided message with
  | none => simp [follow, delivered, hd]
  | some r =>
    cases r with
    | next => simp [follow, delivered, hd, Route.fails]
    | stop => simp [follow, delivered, hd, Route.fails]
    | throws e => simp [follow, delivered, hd, Route.fails]
    | fatal => simp [follow, delivered, hd, Route.fails]
    | handle kind =>
      simp only [follow, dispatchHelper, delivered, hd]
      cases hdecode : p.decode kind message with
      | error e => simp [Route.fails, hdecode]
      | ok m =>
        simp only [Except.toOption]
        cases handler m s <;> simp [Outcome.map]

theorem noted_of_delivered (allow : Bool) (handler : Message → σ → Outcome Exn σ) {message : Members}
    (s : σ) {m : Message} (h : p.delivered message = some m) :
    p.noted allow handler message s = (handler m s).map fun s' => (true, [m], s') := by
  obtain ⟨hdecided, hdecode⟩ := kind_of_delivered h
  rw [noted_eq, hdecided, follow, dispatchHelper, hdecode]
  cases hm : handler m s <;> simp [noting, hm, Outcome.map, Outcome.bind]

theorem noted_of_not_delivered (allow : Bool) (handler : Message → σ → Outcome Exn σ)
    {message : Members} (s : σ) (h : p.delivered message = none) (s' : List Message × σ) :
    p.noted allow handler message s ≠ .ok (true, s') := by
  rw [noted_eq]
  unfold delivered at h
  cases hd : p.decided message with
  | none => cases allow <;> simp [follow]
  | some r =>
    rw [hd] at h
    cases r with
    | next | stop => cases allow <;> simp [follow]
    | throws e => simp [follow, Outcome.bind]
    | fatal => simp [follow, Outcome.bind]
    | handle kind =>
      simp only [follow, dispatchHelper]
      cases hdecode : p.decode kind message with
      | error e => simp [Outcome.bind]
      | ok m =>
        simp [hdecode, Except.toOption] at h

/-- It returns true exactly if a handler is called, and returns. -/
theorem noted_true_iff (allow : Bool) (handler : Message → σ → Outcome Exn σ) (message : Members)
    (s : σ) : (∃ s', p.noted allow handler message s = .ok (true, s')) ↔
      ∃ m s', p.delivered message = some m ∧ handler m s = .ok s' := by
  cases h : p.delivered message with
  | none =>
    constructor
    · rintro ⟨s', hs'⟩
      exact absurd hs' (noted_of_not_delivered allow handler s h s')
    · rintro ⟨m, s', hm, -⟩
      cases hm
  | some m =>
    rw [noted_of_delivered allow handler s h]
    cases hm : handler m s <;> simp [Outcome.map, hm]

theorem noted_returns {allow : Bool} {handler : Message → σ → Outcome Exn σ} {message : Members}
    {s : σ} {r : Bool} {s' : List Message × σ} (h : p.noted allow handler message s = .ok (r, s')) :
    r = true ↔ p.delivered message ≠ none := by
  cases hd : p.delivered message with
  | none =>
    cases r with
    | false => simp
    | true => exact absurd h (noted_of_not_delivered allow handler s hd s')
  | some m =>
    rw [noted_of_delivered allow handler s hd] at h
    cases hm : handler m s with
    | ok t =>
      rw [hm] at h
      cases h
      simp
    | throws e t => rw [hm] at h; cases h
    | fatal t => rw [hm] at h; cases h

theorem lacksRoute_iff (allow : Bool) (handler : Message → σ → Outcome Exn σ) (message : Members)
    (s : σ) : p.LacksRoute allow handler message s ↔
      p.delivered message = none ∧ allow = false ∧ ¬p.ReadingFails message := by
  rw [LacksRoute, dispatch_eq, dispatchMembers_eq, follow_eq_false_iff]
  constructor
  · rintro ⟨hnone, hfatal⟩
    rw [(follow_eq_false_iff handler message s).mpr hnone] at hfatal
    cases allow with
    | false => exact ⟨hnone.1, rfl, hnone.2⟩
    | true => cases hfatal
  · rintro ⟨hnone, rfl, hreads⟩
    refine ⟨⟨hnone, hreads⟩, ?_⟩
    rw [(follow_eq_false_iff handler message s).mpr ⟨hnone, hreads⟩]
    rfl

/-- A message of a kind, with nothing in it. -/
def blank : Kind → Message
  | .req => .req ⟨0, ""⟩
  | .ping => .ping 0
  | .ping2 => .ping2 0
  | .error => .error
  | .error2 => .error2
  | .sub => .sub ⟨0, ""⟩
  | .subbed => .subbed
  | .bbo => .bbo
  | .trade => .trade
  | .detail => .detail
  | .ticker => .ticker
  | .mbp => .mbp
  | .mbpSnapshot => .mbpSnapshot
  | .accounts => .accounts ⟨"", 0, 0, "", 0, 0⟩
  | .orders => .orders
  | .clearing => .clearing

theorem kind_blank (kind : Kind) : (blank kind).kind = kind := by cases kind <;> rfl

/-- The parser with a reader of messages that never fails, so that routing is all
that can. -/
def routing (p : Parser) : Parser where
  fnv := p.fnv
  unlisted := p.unlisted
  badVariantAccess := p.badVariantAccess
  decode kind _ := .ok (blank kind)
  decode_kind h := by
    cases h
    exact kind_blank _

/-- With a value that reads as a text wherever one is needed up to the member that
decides, routing returns, and with false if no handler is called; without, it does
not return. -/
theorem routing_returns_iff (p : Parser) (message : Members) :
    (∃ r, p.routing.behaviour true message = .ok r ∧ (r.2 = [] → r.1 = false)) ↔
      ∀ pre x post, message = pre ++ x :: post → (∀ y ∈ pre, p.PassedOver y) → ¬p.Unreadable x := by
  have behaviour : p.routing.behaviour true message = p.routing.effect true message (p.decided message) :=
    p.routing.behaviour_eq true message
  have key : (∃ r, p.routing.behaviour true message = .ok r ∧ (r.2 = [] → r.1 = false)) ↔
      ¬∃ r, p.decided message = some r ∧ r.fails = true := by
    rw [behaviour]
    rcases p.decided message with _ | _ | _ | kind | _ | _ <;>
      simp [effect, follow, dispatchHelper, routing, Outcome.map, Route.fails, Outcome.bind]
  rw [key, ← unreadable_iff]
  simp only [not_exists, not_and]

/-- A status that is null terminates the process, and a channel that is a number
throws. -/
theorem routing_fails :
    Reader.parser.routing.behaviour true [("status", .null)] = .fatal (false, []) ∧
      Reader.parser.routing.behaviour true [("ch", .int 5)] =
        .throws Reader.parser.badVariantAccess (false, []) := by
  decide

/-! ## Handlers on a part of a state -/

/-- Where a handler does to a part of the state what another handler does by itself,
so does dispatching. -/
theorem dispatch_map {τ : Type} {f : σ → τ} (allow : Bool) {handler : Message → σ → Outcome Exn σ}
    {handler' : Message → τ → Outcome Exn τ} {message : Members} {s : σ}
    (h : ∀ m, p.delivered message = some m → (handler m s).map f = handler' m (f s)) :
    (p.dispatch allow handler message s).map (Prod.map id f) =
      p.dispatch allow handler' message (f s) := by
  rw [dispatch_eq, dispatch_eq]
  refine Outcome.map_bind ?_ fun r => ?_
  · cases hd : p.decided message with
    | none => rfl
    | some r =>
      cases r with
      | next | stop | throws | fatal => rfl
      | handle kind =>
        simp only [follow, dispatchHelper]
        cases hdecode : p.decode kind message with
        | error e => rfl
        | ok m =>
          have hm := h m (by rw [delivered, hd]; simp [hdecode, Except.toOption])
          dsimp only
          rw [← hm]
          cases handler m s <;> rfl
  · show (if r.1 || allow then Outcome.ok r else .fatal r).map _ = if r.1 || allow then _ else _
    split <;> rfl

end RoqHtx.Parser

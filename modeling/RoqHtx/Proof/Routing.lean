import RoqHtx.Framework.FirstMatch
import RoqHtx.Impl.Reader

/-!
# Which handler a message reaches

`dispatch` follows the first member that decides (`decided`, `dispatch_eq`). Its
name and its value say whether a member is passed over (`PassedOver`), and which
overload it chooses (`Chooses`). At most one message is delivered (`delivered`,
`dispatch_state`). Order-freedom is exactly agreement: the first member that is
not passed over determines what a message does, so that it behaves the same in
every order of its members if and only if all its deciding members have the same
effect (`behaviour_perm_iff`).
-/

namespace RoqHtx.Parser

open Json

variable {σ : Type} (p : Parser)

/-! ## The deciding member -/

/-- What a member decides, if anything. -/
def decides (x : String × Value) : Option Route :=
  if p.route x.1 x.2 = .next then none else some (p.route x.1 x.2)

/-- What the first deciding member decides. -/
def decided (members : Members) : Option Route := members.findSome? p.decides

/-- Does what a member has decided. -/
def follow (handler : Message → σ → Outcome Exn σ) (message : Members) (s : σ) :
    Option Route → Outcome Exn (Bool × σ)
  | none | some .next | some .stop => .ok (false, s)
  | some (.handle kind) => p.dispatchHelper handler message kind s
  | some (.throws e) => .throws e (false, s)
  | some .fatal => .fatal (false, s)

theorem dispatchMembers_eq (handler : Message → σ → Outcome Exn σ) (message : Members) (s : σ) :
    ∀ members : Members,
      p.dispatchMembers handler message members s = p.follow handler message s (p.decided members)
  | [] => rfl
  | (key, value) :: members => by
    rw [dispatchMembers, decided, List.findSome?_cons, decides]
    cases p.route key value with
    | next => simpa [decided] using dispatchMembers_eq handler message s members
    | stop | handle kind | throws e | fatal => simp [follow]

/-- `dispatch` follows the first deciding member. -/
theorem dispatch_eq (allow : Bool) (handler : Message → σ → Outcome Exn σ) (message : Members)
    (s : σ) :
    p.dispatch allow handler message s =
      (p.follow handler message s (p.decided message)).bind fun r =>
        if r.1 || allow then .ok r else .fatal r := by
  rw [dispatch, dispatchMembers_eq]

/-! ## What a member decides -/

/-- Push actions, replies on other channels, a status that is ok, and unrelated
members. -/
def PassedOver (x : String × Value) : Prop :=
  if p.fnv x.1 = p.fnv "action" then x.2 = .string "push"
  else if p.fnv x.1 = p.fnv "ch" then False
  else if p.fnv x.1 = p.fnv "message" then False
  else if p.fnv x.1 = p.fnv "ping" then False
  else if p.fnv x.1 = p.fnv "rep" then ∃ channel, x.2 = .string channel ∧ extractTopic channel ≠ "mbp"
  else if p.fnv x.1 = p.fnv "status" then x.2 = .string "ok"
  else p.fnv x.1 ≠ p.fnv "subbed"

def isText : Value → Bool
  | .string _ => true
  | _ => false

/-- Actions and states that are neither a text nor taken for an unknown one, and
channels that are not a text. -/
def Unreadable (x : String × Value) : Prop :=
  if p.fnv x.1 = p.fnv "action" then isText x.2 = false ∧ p.unlisted x.2 ≠ .ok .unknownInternal
  else if p.fnv x.1 = p.fnv "ch" then isText x.2 = false
  else if p.fnv x.1 = p.fnv "message" then False
  else if p.fnv x.1 = p.fnv "ping" then False
  else if p.fnv x.1 = p.fnv "rep" then isText x.2 = false
  else if p.fnv x.1 = p.fnv "status" then isText x.2 = false ∧ p.unlisted x.2 ≠ .ok .unknownInternal
  else False

/-- The overload that an action is handed to. -/
def actionKind : String → Option Kind
  | "sub" => some .sub
  | "req" => some .req
  | "ping" => some .ping
  | _ => none

/-- The overload that an event on a topic is handed to. -/
def topicKind : String → Option Kind
  | "bbo" => some .bbo
  | "trade" => some .trade
  | "detail" => some .detail
  | "ticker" => some .ticker
  | "mbp" => some .mbp
  | "accounts" => some .accounts
  | "orders" => some .orders
  | "clearing" => some .clearing
  | _ => none

/-- The overload that a member decides on. -/
def Chooses (x : String × Value) (kind : Kind) : Prop :=
  if p.fnv x.1 = p.fnv "action" then ∃ action, x.2 = .string action ∧ actionKind action = some kind
  else if p.fnv x.1 = p.fnv "ch" then
    ∃ channel, x.2 = .string channel ∧ topicKind (extractTopic channel) = some kind
  else if p.fnv x.1 = p.fnv "message" then .error2 = kind
  else if p.fnv x.1 = p.fnv "ping" then .ping2 = kind
  else if p.fnv x.1 = p.fnv "rep" then
    .mbpSnapshot = kind ∧ ∃ channel, x.2 = .string channel ∧ extractTopic channel = "mbp"
  else if p.fnv x.1 = p.fnv "status" then .error = kind ∧ x.2 = .string "error"
  else p.fnv x.1 = p.fnv "subbed" ∧ .subbed = kind

/-- Reading the member has failed. -/
def Route.fails : Route → Bool
  | .throws _ | .fatal => true
  | .next | .stop | .handle _ => false

/-! ### One key at a time -/

theorem routeAction_string (s : String) :
    (p.routeAction (.string s) = .next ↔ s = "push") ∧ (p.routeAction (.string s)).fails = false := by
  simp only [routeAction, enumOf, Action.ofText]
  split <;> split at * <;> simp_all [Route.fails]

theorem routeStatus_string (s : String) :
    (p.routeStatus (.string s) = .next ↔ s = "ok") ∧ (p.routeStatus (.string s)).fails = false := by
  simp only [routeStatus, enumOf, Status.ofText]
  split <;> split at * <;> simp_all [Route.fails]

theorem routeCh_string (s : String) :
    p.routeCh (.string s) ≠ .next ∧ (p.routeCh (.string s)).fails = false := by
  simp only [routeCh, getText, Topic.ofText]
  split <;> split at * <;> simp_all [Route.fails]

theorem topic_eq_mbp {s : String} : Topic.ofText s = .mbp ↔ s = "mbp" := by
  unfold Topic.ofText
  split <;> simp_all

theorem routeRep_string (s : String) :
    (p.routeRep (.string s) = .next ↔ extractTopic s ≠ "mbp") ∧
      (p.routeRep (.string s)).fails = false := by
  simp only [routeRep, getText, topic_eq_mbp]
  split <;> simp_all [Route.fails]

theorem eq_string_of_isText {value : Value} (h : isText value = true) : ∃ s, value = .string s := by
  cases value <;> first | exact ⟨_, rfl⟩ | cases h

theorem getText_of_not_text {value : Value} (h : isText value = false) :
    p.getText value = .error p.badVariantAccess := by
  cases value <;> first | rfl | cases h

theorem enumOf_of_not_text {value : Value} (h : isText value = false) {α : Type}
    (ofText : String → α) (ofUnlisted : Unlisted → α) :
    p.enumOf ofText ofUnlisted value = (p.unlisted value).map ofUnlisted := by
  cases value <;> first | rfl | cases h

/-- A member with a text decides, or is passed over; else it fails, or stops. -/
theorem routeAction_iff (value : Value) :
    (p.routeAction value = .next ↔ value = .string "push") ∧
      ((p.routeAction value).fails = true ↔
        isText value = false ∧ p.unlisted value ≠ .ok .unknownInternal) := by
  cases h : isText value with
  | true =>
    obtain ⟨s, rfl⟩ := eq_string_of_isText h
    simp [routeAction_string p s]
  | false =>
    have hne : value ≠ .string "push" := fun hv => by rw [hv] at h; cases h
    rw [routeAction, enumOf_of_not_text p h]
    rcases p.unlisted value with e | (_ | _) <;>
      simp [Except.map, Action.ofUnlisted, Route.fails, hne]

theorem routeStatus_iff (value : Value) :
    (p.routeStatus value = .next ↔ value = .string "ok") ∧
      ((p.routeStatus value).fails = true ↔
        isText value = false ∧ p.unlisted value ≠ .ok .unknownInternal) := by
  cases h : isText value with
  | true =>
    obtain ⟨s, rfl⟩ := eq_string_of_isText h
    simp [routeStatus_string p s]
  | false =>
    have hne : value ≠ .string "ok" := fun hv => by rw [hv] at h; cases h
    rw [routeStatus, enumOf_of_not_text p h]
    rcases p.unlisted value with e | (_ | _) <;>
      simp [Except.map, Status.ofUnlisted, Route.fails, hne]

theorem routeCh_iff (value : Value) :
    p.routeCh value ≠ .next ∧ ((p.routeCh value).fails = true ↔ isText value = false) := by
  cases h : isText value with
  | true =>
    obtain ⟨s, rfl⟩ := eq_string_of_isText h
    simp [routeCh_string p s]
  | false =>
    rw [routeCh, getText_of_not_text p h]
    simp [Route.fails]

theorem routeRep_iff (value : Value) :
    (p.routeRep value = .next ↔ ∃ channel, value = .string channel ∧ extractTopic channel ≠ "mbp") ∧
      ((p.routeRep value).fails = true ↔ isText value = false) := by
  cases h : isText value with
  | true =>
    obtain ⟨s, rfl⟩ := eq_string_of_isText h
    simp [routeRep_string p s]
  | false =>
    have hne : ∀ channel, value ≠ .string channel := fun channel hv => by rw [hv] at h; cases h
    rw [routeRep, getText_of_not_text p h]
    simp [Route.fails, hne]

/-! ### The overload, one key at a time -/

theorem routeAction_eq_handle_iff (value : Value) (kind : Kind) :
    p.routeAction value = .handle kind ↔
      ∃ action, value = .string action ∧ actionKind action = some kind := by
  cases h : isText value with
  | true =>
    obtain ⟨s, rfl⟩ := eq_string_of_isText h
    simp only [routeAction, enumOf, Action.ofText, Value.string.injEq, exists_eq_left', actionKind]
    split <;> split at * <;> simp_all
  | false =>
    have hne : ∀ s, value ≠ .string s := fun s hv => by rw [hv] at h; cases h
    rw [routeAction, enumOf_of_not_text p h]
    rcases p.unlisted value with e | (_ | _) <;> simp [Except.map, Action.ofUnlisted, hne]

theorem routeCh_eq_handle_iff (value : Value) (kind : Kind) :
    p.routeCh value = .handle kind ↔
      ∃ channel, value = .string channel ∧ topicKind (extractTopic channel) = some kind := by
  cases h : isText value with
  | true =>
    obtain ⟨s, rfl⟩ := eq_string_of_isText h
    simp only [routeCh, getText, Topic.ofText, Value.string.injEq, exists_eq_left', topicKind]
    split <;> split at * <;> simp_all
  | false =>
    have hne : ∀ s, value ≠ .string s := fun s hv => by rw [hv] at h; cases h
    rw [routeCh, getText_of_not_text p h]
    simp [hne]

theorem routeRep_eq_handle_iff (value : Value) (kind : Kind) :
    p.routeRep value = .handle kind ↔
      .mbpSnapshot = kind ∧ ∃ channel, value = .string channel ∧ extractTopic channel = "mbp" := by
  cases h : isText value with
  | true =>
    obtain ⟨s, rfl⟩ := eq_string_of_isText h
    simp only [routeRep, getText, topic_eq_mbp, Value.string.injEq, exists_eq_left']
    split <;> simp_all
  | false =>
    have hne : ∀ s, value ≠ .string s := fun s hv => by rw [hv] at h; cases h
    rw [routeRep, getText_of_not_text p h]
    simp [hne]

theorem routeStatus_eq_handle_iff (value : Value) (kind : Kind) :
    p.routeStatus value = .handle kind ↔ .error = kind ∧ value = .string "error" := by
  cases h : isText value with
  | true =>
    obtain ⟨s, rfl⟩ := eq_string_of_isText h
    simp only [routeStatus, enumOf, Status.ofText, Value.string.injEq]
    split <;> split at * <;> simp_all
  | false =>
    have hne : ∀ s, value ≠ .string s := fun s hv => by rw [hv] at h; cases h
    rw [routeStatus, enumOf_of_not_text p h]
    rcases p.unlisted value with e | (_ | _) <;> simp [Except.map, Status.ofUnlisted, hne]

/-! ### All keys -/

/-- A member decides on the overload that it names. -/
theorem route_eq_handle_iff (x : String × Value) (kind : Kind) :
    p.route x.1 x.2 = .handle kind ↔ p.Chooses x kind := by
  dsimp only [route, Chooses]
  split
  · exact routeAction_eq_handle_iff p x.2 kind
  split
  · exact routeCh_eq_handle_iff p x.2 kind
  split
  · simp
  split
  · simp
  split
  · exact routeRep_eq_handle_iff p x.2 kind
  split
  · exact routeStatus_eq_handle_iff p x.2 kind
  split <;> simp_all

instance (x : String × Value) (kind : Kind) : Decidable (p.Chooses x kind) :=
  decidable_of_iff _ (route_eq_handle_iff p x kind)

theorem route_eq_next_iff (x : String × Value) : p.route x.1 x.2 = .next ↔ p.PassedOver x := by
  dsimp only [route, PassedOver]
  split
  · exact (routeAction_iff p x.2).1
  split
  · exact iff_false_intro (routeCh_iff p x.2).1
  split
  · simp
  split
  · simp
  split
  · exact (routeRep_iff p x.2).1
  split
  · exact (routeStatus_iff p x.2).1
  split <;> simp_all

instance (x : String × Value) : Decidable (p.PassedOver x) :=
  decidable_of_iff _ (route_eq_next_iff p x)

theorem route_fails_iff (x : String × Value) :
    (p.route x.1 x.2).fails = true ↔ p.Unreadable x := by
  dsimp only [route, Unreadable]
  split
  · exact (routeAction_iff p x.2).2
  split
  · exact (routeCh_iff p x.2).2
  split
  · simp [Route.fails]
  split
  · simp [Route.fails]
  split
  · exact (routeRep_iff p x.2).2
  split
  · exact (routeStatus_iff p x.2).2
  split <;> simp [Route.fails]

/-! ## The member that decides -/

/-- The first member that is not passed over, if there is one, is the one that
decides. -/
theorem decided_cases (message : Members) :
    ((∀ x ∈ message, p.PassedOver x) ∧ p.decided message = none) ∨
      ∃ pre x post, message = pre ++ x :: post ∧ (∀ y ∈ pre, p.PassedOver y) ∧ ¬p.PassedOver x ∧
        p.decided message = some (p.route x.1 x.2) := by
  induction message with
  | nil => exact .inl ⟨fun _ hx => absurd hx List.not_mem_nil, rfl⟩
  | cons x message ih =>
    by_cases hx : p.PassedOver x
    · have hnext : p.decided (x :: message) = p.decided message := by
        simp [decided, decides, (route_eq_next_iff p x).mpr hx]
      rcases ih with ⟨hall, hnone⟩ | ⟨pre, y, post, rfl, hpre, hy, hsome⟩
      · exact .inl ⟨List.forall_mem_cons.mpr ⟨hx, hall⟩, hnext.trans hnone⟩
      · exact .inr ⟨x :: pre, y, post, rfl, List.forall_mem_cons.mpr ⟨hx, hpre⟩, hy,
          hnext.trans hsome⟩
    · refine .inr ⟨[], x, message, rfl, fun _ hy => absurd hy List.not_mem_nil, hx, ?_⟩
      simp [decided, decides, mt (route_eq_next_iff p x).mp hx]

theorem decided_append {pre post : Members} {x : String × Value} (hpre : ∀ y ∈ pre, p.PassedOver y)
    (hx : ¬p.PassedOver x) : p.decided (pre ++ x :: post) = some (p.route x.1 x.2) := by
  have hnone : pre.findSome? p.decides = none := List.findSome?_eq_none_iff.mpr fun y hy => by
    simp [decides, (route_eq_next_iff p y).mpr (hpre y hy)]
  simp [decided, List.findSome?_append, hnone, decides, mt (route_eq_next_iff p x).mp hx]

theorem decided_of_passedOver {message : Members} (h : ∀ x ∈ message, p.PassedOver x) :
    p.decided message = none :=
  List.findSome?_eq_none_iff.mpr fun x hx => by simp [decides, (route_eq_next_iff p x).mpr (h x hx)]

theorem not_passedOver_of_unreadable {x : String × Value} (h : p.Unreadable x) : ¬p.PassedOver x := by
  intro hx
  have hfails := (route_fails_iff p x).mpr h
  rw [(route_eq_next_iff p x).mpr hx] at hfails
  cases hfails

/-- What is decided fails exactly if a member that cannot be read comes before any
that decides. -/
theorem unreadable_iff (message : Members) :
    (∃ pre x post, message = pre ++ x :: post ∧ (∀ y ∈ pre, p.PassedOver y) ∧ p.Unreadable x) ↔
      ∃ r, p.decided message = some r ∧ r.fails = true := by
  constructor
  · rintro ⟨pre, x, post, rfl, hpre, hx⟩
    exact ⟨_, decided_append p hpre (not_passedOver_of_unreadable p hx), (route_fails_iff p x).mpr hx⟩
  · rintro ⟨r, hr, hfails⟩
    rcases p.decided_cases message with ⟨-, hnone⟩ | ⟨pre, x, post, heq, hpre, -, hsome⟩
    · rw [hnone] at hr
      cases hr
    · rw [hsome, Option.some.injEq] at hr
      subst hr
      exact ⟨pre, x, post, heq, hpre, (route_fails_iff p x).mp hfails⟩

/-! ## The message that is delivered -/

/-- The message that is handed to a handler, if there is one. -/
def delivered (message : Members) : Option Message :=
  match p.decided message with
  | some (.handle kind) => (p.decode kind message).toOption
  | _ => none

/-- A handler sees the delivered message once, and nothing else happens to its
state. -/
theorem dispatch_state (allow : Bool) (handler : Message → σ → Outcome Exn σ) (message : Members)
    (s : σ) :
    (p.dispatch allow handler message s).state.2 =
      match p.delivered message with
      | some m => (handler m s).state
      | none => s := by
  have tail : ∀ o : Outcome Exn (Bool × σ),
      (o.bind fun r => if r.1 || allow then .ok r else .fatal r).state = o.state := by
    rintro (r | _ | _)
    · simp only [Outcome.ok_bind]
      split <;> rfl
    · rfl
    · rfl
  rw [dispatch_eq, tail, delivered]
  rcases p.decided message with _ | _ | _ | kind | _ | _ <;> try rfl
  simp only [follow, dispatchHelper]
  cases p.decode kind message <;> simp [Except.toOption]

/-! ## The order of the members -/

/-- What dispatching a message does: how it ends, the result, and the overloads
that are called. -/
def behaviour (allow : Bool) (message : Members) : Outcome Exn (Bool × List Kind) :=
  p.dispatch allow (fun m calls => .ok (calls ++ [m.kind])) message []

/-- What a message does if its first deciding member decides this. -/
def effect (allow : Bool) (message : Members) (decided : Option Route) :
    Outcome Exn (Bool × List Kind) :=
  (p.follow (fun m calls => .ok (calls ++ [m.kind])) message [] decided).bind fun r =>
    if r.1 || allow then .ok r else .fatal r

theorem behaviour_eq (allow : Bool) (message : Members) :
    p.behaviour allow message = p.effect allow message (p.decided message) :=
  p.dispatch_eq allow _ message []

/-- A reader that finds members by name does not see their order. -/
def ReadsByName : Prop :=
  ∀ (kind : Kind) (message message' : Members), (message.map Prod.fst).Nodup →
    message'.Perm message → p.decode kind message' = p.decode kind message

theorem effect_perm {p : Parser} (hp : p.ReadsByName) (allow : Bool) {message message' : Members}
    (hnodup : (message.map Prod.fst).Nodup) (h : message'.Perm message) (decided : Option Route) :
    p.effect allow message' decided = p.effect allow message decided := by
  rcases decided with _ | _ | _ | kind | _ | _ <;> try rfl
  simp only [effect, follow, dispatchHelper, hp kind message message' hnodup h]

/-- In some order of its members, a message does what the first one decides that is
not passed over. -/
structure FirstDecides (p : Parser) (allow : Bool) (message order : Members) : Prop where
  passedOver : (∀ x ∈ order, p.PassedOver x) → p.behaviour allow order = p.effect allow message none
  decides : ∀ pre x post, order = pre ++ x :: post → (∀ y ∈ pre, p.PassedOver y) → ¬p.PassedOver x →
    p.behaviour allow order = p.effect allow message (some (p.route x.1 x.2))
  /-- It calls the overload that this member chooses, once, if that can be decoded. -/
  chooses : ∀ pre x post, order = pre ++ x :: post → (∀ y ∈ pre, p.PassedOver y) →
    ∀ kind, p.Chooses x kind → p.behaviour allow order =
      match p.decode kind message with
      | .error e => .throws e (false, [])
      | .ok _ => .ok (true, [kind])
  /-- It calls none if this member chooses none. -/
  refuses : ∀ pre x post, order = pre ++ x :: post → (∀ y ∈ pre, p.PassedOver y) →
    ¬p.PassedOver x → (∀ kind, ¬p.Chooses x kind) → (p.behaviour allow order).state = (false, [])

theorem effect_handle (allow : Bool) (message : Members) (kind : Kind) :
    p.effect allow message (some (.handle kind)) =
      match p.decode kind message with
      | .error e => .throws e (false, [])
      | .ok _ => .ok (true, [kind]) := by
  simp only [effect, follow, dispatchHelper]
  cases h : p.decode kind message with
  | error e => rfl
  | ok m =>
    rw [← p.decode_kind h]
    rfl

theorem effect_state {p : Parser} {r : Route} (h : ∀ kind, r ≠ .handle kind) (allow : Bool)
    (message : Members) : (p.effect allow message (some r)).state = (false, []) := by
  cases r with
  | handle kind => exact absurd rfl (h kind)
  | next | stop | throws e | fatal => cases allow <;> rfl

theorem not_passedOver_of_chooses {x : String × Value} {kind : Kind} (h : p.Chooses x kind) :
    ¬p.PassedOver x := by
  rw [← route_eq_next_iff, (route_eq_handle_iff p x kind).mpr h]
  nofun

theorem firstDecides {p : Parser} (hp : p.ReadsByName) (allow : Bool) {message order : Members}
    (hnodup : (message.map Prod.fst).Nodup) (h : order.Perm message) :
    p.FirstDecides allow message order := by
  have behaves : ∀ {r}, p.decided order = r → p.behaviour allow order = p.effect allow message r := by
    rintro r rfl
    rw [behaviour_eq, effect_perm hp allow hnodup h]
  refine ⟨fun hpassed => behaves (decided_of_passedOver p hpassed), ?_, ?_, ?_⟩
  · rintro pre x post rfl hpre hx
    exact behaves (decided_append p hpre hx)
  · rintro pre x post rfl hpre kind hkind
    rw [behaves (decided_append p hpre (p.not_passedOver_of_chooses hkind)),
      (route_eq_handle_iff p x kind).mpr hkind, effect_handle]
  · rintro pre x post rfl hpre hx hnone
    rw [behaves (decided_append p hpre hx)]
    exact effect_state (fun kind => mt (route_eq_handle_iff p x kind).mp (hnone kind)) allow message

/-- In every order of its members, a message with unique names does what the first
one decides that is not passed over; so it behaves the same in every order if and
only if all its deciding members have the same effect. -/
theorem behaviour_perm_iff {p : Parser} (hp : p.ReadsByName) (allow : Bool) (message : Members)
    (hnodup : (message.map Prod.fst).Nodup) :
    (∀ order : Members, order.Perm message → p.FirstDecides allow message order) ∧
    ((∀ order : Members, order.Perm message → p.behaviour allow order = p.behaviour allow message) ↔
      ∀ x ∈ message, ∀ y ∈ message, ¬p.PassedOver x → ¬p.PassedOver y →
        p.effect allow message (some (p.route x.1 x.2)) =
          p.effect allow message (some (p.route y.1 y.2))) := by
  refine ⟨fun order h => firstDecides hp allow hnodup h, ?_⟩
  have decides_some : ∀ x : String × Value, ¬p.PassedOver x → p.decides x = some (p.route x.1 x.2) :=
    fun x hx => by simp [decides, mt (route_eq_next_iff p x).mp hx]
  have isSome_iff : ∀ x : String × Value, (p.decides x).isSome ↔ ¬p.PassedOver x :=
    fun x => by simp [decides, ← route_eq_next_iff]
  have key := findSome?_perm_iff (f := p.decides) (p.effect allow message) message
  have behaves : ∀ order : Members, order.Perm message →
      p.behaviour allow order = p.effect allow message (order.findSome? p.decides) :=
    fun order h => by rw [behaviour_eq, effect_perm hp allow hnodup h, decided]
  constructor
  · intro h x hx y hy hrx hry
    rw [← decides_some x hrx, ← decides_some y hry]
    refine key.mp (fun l hl => ?_) x hx y hy ((isSome_iff x).mpr hrx) ((isSome_iff y).mpr hry)
    rw [← behaves l hl, ← behaves message (.refl _), h l hl]
  · intro h order hperm
    rw [behaves order hperm, behaves message (.refl _)]
    refine key.mpr (fun x hx y hy hdx hdy => ?_) order hperm
    have hrx := (isSome_iff x).mp hdx
    have hry := (isSome_iff y).mp hdy
    rw [decides_some x hrx, decides_some y hry]
    exact h x hx y hy hrx hry

/-- An order event, its members reversed: its channel decides, whatever stands around
it. -/
theorem push_reversed :
    Reader.parser.behaviour true
        [("data", .object ""), ("ch", .string "orders#*"), ("action", .string "push")] =
      Reader.parser.behaviour true
        [("action", .string "push"), ("ch", .string "orders#*"), ("data", .object "")] ∧
    Reader.parser.behaviour true
        [("action", .string "push"), ("ch", .string "orders#*"), ("data", .object "")] =
      .ok (true, [.orders]) := by
  obtain ⟨first, same⟩ := behaviour_perm_iff (p := Reader.parser)
    (fun kind _ _ hnodup h => Reader.decode_perm hnodup h kind) true
    [("action", .string "push"), ("ch", .string "orders#*"), ("data", .object "")] (by decide)
  exact ⟨same.mpr (by decide) _ (by decide), (first _ (.refl _)).chooses
    [("action", .string "push")] ("ch", .string "orders#*") _ rfl (by decide) .orders (by decide)⟩

/-- The reply to a subscription is delivered as an order event if its channel
comes first. -/
theorem sub_reply_as_orders :
    Reader.parser.ReadsByName ∧
    ((Reader.subReply 200 "orders#*").map Prod.fst).Nodup ∧
    (Reader.subReply 200 "orders#*").reverse.Perm (Reader.subReply 200 "orders#*") ∧
    Reader.parser.behaviour true (Reader.subReply 200 "orders#*") = .ok (true, [.sub]) ∧
    Reader.parser.behaviour true (Reader.subReply 200 "orders#*").reverse = .ok (true, [.orders]) :=
  ⟨fun kind _ _ hnodup h => Reader.decode_perm hnodup h kind, by decide, List.reverse_perm _,
    by decide, by decide⟩

end RoqHtx.Parser

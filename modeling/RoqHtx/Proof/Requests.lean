import RoqHtx.Proof.Signatures
import RoqHtx.Proof.Texts

/-!
# What an account sends verifies

An account signs its requests and logins with one `Crypto` (`Account.signing`).
Between two times, every REST request and every login that its gateway sends
verifies at the exchange, for the method and the path that it is sent with, at a
second between the two (`requests_verify`): nothing is sent unsigned, or under
the signature of something else.
-/

namespace RoqHtx

open Crypto (Signs VerifiesAuth VerifiesQuery)

variable {μ δ : Type} [Mac μ δ]

/-! ## Accounts -/

variable (μ) in
/-- An account that signs with a `Crypto`, which has not been used yet: what was
signed before makes no difference (`createQuery_signing`). -/
def Account.signing (codecs : Codecs δ) (assertions : Bool) (name key secret hostname : String) :
    Account where
  name := name
  createQuery originCreateTimeUtc method path :=
    ((Crypto.init key secret hostname : Crypto μ δ).accountQuery codecs assertions
      ⟨0, originCreateTimeUtc⟩ method path).elim "" Prod.fst
  createWsAuth originCreateTimeUtc path :=
    ((Crypto.init key secret hostname : Crypto μ δ).accountWsAuth codecs assertions
      ⟨0, originCreateTimeUtc⟩ path).elim "" Prod.fst

/-- The second of a time in nanoseconds. -/
def secondOf (nanoseconds : Int) : Nat := nanoseconds.toNat / 1000000000

section Signing

variable {codecs : Codecs δ} {assertions : Bool} {key secret hostname path : String} {time : Int}
  {s : Crypto μ δ}

variable (μ key secret hostname) in
theorem signs_init : Signs key secret hostname (Crypto.init key secret hostname : Crypto μ δ) :=
  ⟨rfl, rfl, Mac.secret_init secret⟩

variable (name : String) in
theorem createQuery_signing (hs : (crypto codecs assertions key secret hostname).Reachable s)
    (htime : 0 ≤ time) (method : Http.Method) (hpath : path ≠ "") :
    ∃ s', s.createQuery codecs assertions method.name path (secondOf time) =
      some ((Account.signing μ codecs assertions name key secret hostname).createQuery time method path,
        s') := by
  obtain ⟨s', h⟩ := Crypto.createQuery_eq codecs assertions (Crypto.signs_reachable hs) method.name hpath
    (secondOf time)
  obtain ⟨s₀, h₀⟩ := Crypto.createQuery_eq codecs assertions (signs_init μ key secret hostname)
    method.name hpath (secondOf time)
  refine ⟨s', h.trans ?_⟩
  show _ = some ((Crypto.accountQuery codecs assertions _ method path _).elim "" Prod.fst, s')
  rw [Crypto.accountQuery, Crypto.seconds_eq htime, ← secondOf, h₀]
  rfl

variable (name : String) in
theorem createWsAuth_signing (hs : (crypto codecs assertions key secret hostname).Reachable s)
    (htime : 0 ≤ time) (hpath : path ≠ "") :
    ∃ s', s.createWsAuth codecs assertions path (secondOf time) =
      some ((Account.signing μ codecs assertions name key secret hostname).createWsAuth time path,
        s') := by
  obtain ⟨s', h⟩ := Crypto.createWsAuth_eq codecs assertions (Crypto.signs_reachable hs) hpath
    (secondOf time)
  obtain ⟨s₀, h₀⟩ := Crypto.createWsAuth_eq codecs assertions (signs_init μ key secret hostname) hpath
    (secondOf time)
  refine ⟨s', h.trans ?_⟩
  show _ = some ((Crypto.accountWsAuth codecs assertions _ path _).elim "" Prod.fst, s')
  rw [Crypto.accountWsAuth, Crypto.seconds_eq htime, ← secondOf, h₀]
  rfl

end Signing

/-! ## How a request is made -/

section Made

variable {ρ : Type} {env : Env}

/-- The path of a cancel request, which has the id of the order that it cancels, if
there is one. -/
def cancelPath (order : Order) : String :=
  if order.externalOrderId = "" then OrderEntry.Path.cancelOrder ++ "/submitCancelClientOrder"
  else OrderEntry.Path.cancelOrder ++ "/" ++ order.externalOrderId ++ "/submitcancel"

def cancelBody (order : Order) : Body :=
  if order.externalOrderId = "" then Encoder.cancelClientOrder order else Encoder.cancelOrder order

variable (env) in
/-- What an event makes of a request that it sends in `g`. -/
def Made (g : Gateway ρ) : Event → InFlight → Prop
  | .timer t, f => f.cause = .timer ∧ ∃ path ≠ "", f.request = OrderEntry.getRequest env t.trace path
  | .createOrder _ info create refData requestId, f =>
    f.cause = .createOrder info create ∧ f.requestId = requestId ∧ ∃ body,
      Encoder.placeOrder env.formats create refData requestId g.orderEntry.accountId = .ok body ∧
        f.request = OrderEntry.postRequest env info OrderEntry.Path.placeOrder (.placeOrder body)
  | .cancelOrder _ info cancel order _, f =>
    f.cause = .cancelOrder info cancel ∧
      f.request = OrderEntry.postRequest env info (cancelPath order) (cancelBody order)
  | .cancelAllOrders _ info cancel _, f =>
    f.cause = .cancelAllOrders info cancel ∧ f.request.method = .get ∧
      f.request.path = OrderEntry.Path.cancelAllOrders ∧
      f.request.query =
        env.account.createQuery info.originCreateTimeUtc .get OrderEntry.Path.cancelAllOrders ∧
      f.request.body = .empty
  | _, _ => False

/-- The request of an entry, if it is one, is in `R`. -/
def Requests (R : InFlight → Prop) (x : Entry) : Prop := ∀ f, x = .restRequest f → R f

theorem requests_of_asks {R R' : InFlight → Prop} (hR : ∀ f, R f → R' f) {x : Entry}
    (h : OrderEntry.Asks R x) : Requests R' x := by
  rintro f rfl
  exact hR f h

theorem requests_of_writes {F : Fatal → Prop} {B : Bool → Prop} {R : InFlight → Prop} {x : Entry}
    (h : DropCopy.Writes F B x) : Requests R x := by
  rintro f rfl
  cases h

theorem requests_of_replies {c : Callback} {R : InFlight → Prop} {x : Entry}
    (h : OrderEntry.Replies c x) : Requests R x := by
  rintro f rfl
  cases c <;> cases h

theorem path_ne_empty {s t : String} (h : s ≠ "") : s ++ t ≠ "" := by
  intro h'
  exact h (String.append_eq_empty_iff.mp h').1

theorem cancelPath_ne_empty (order : Order) : cancelPath order ≠ "" := by
  have hpath : OrderEntry.Path.cancelOrder ≠ "" := by decide
  unfold cancelPath
  split
  · exact path_ne_empty hpath
  · exact path_ne_empty (path_ne_empty (path_ne_empty hpath))

theorem cancelBody_ne (order : Order) (b : PlaceOrderBody) : cancelBody order ≠ .placeOrder b := by
  unfold cancelBody
  split <;> exact nofun

variable [LimitRequest ρ]

namespace OrderEntry

theorem made_of_polled {t : Tick} {g : Gateway ρ} {f : InFlight} (h : Polled env t g f) :
    Made env g (.timer t) f := by
  obtain ⟨-, -, hcause, w, -, -, hpolls⟩ := h
  cases w with
  | account => exact ⟨hcause, Path.accounts, by decide, hpolls.2⟩
  | balances => exact ⟨hcause, Path.balance _, path_ne_empty (path_ne_empty (by decide)), hpolls.2⟩
  | openOrders => exact ⟨hcause, Path.openOrders, by decide, hpolls.2⟩
  | staleOrders => exact ⟨hcause, Path.order, by decide, hpolls.2⟩

variable {refuses : Nat → Option Exn} {info : MessageInfo} {requestId : String}

theorem placeOrder_made (create : CreateOrder) (refData : RefData) (g : Gateway ρ) :
    Sends (Made env g (.createOrder refuses info create refData requestId)) g
      (placeOrder env refuses info create refData requestId g).state := by
  unfold placeOrder
  split
  · exact .refl g
  · split
    · exact .refl g
    · rename_i body hbody
      exact send_sends ⟨rfl, rfl, body, hbody, rfl⟩

theorem cancelOrder_made (cancel : CancelOrder) (order : Order) (g : Gateway ρ) :
    Sends (Made env g (.cancelOrder refuses info cancel order requestId)) g
      (cancelOrder env refuses info cancel order requestId g).state := by
  unfold cancelOrder
  split
  · exact .refl g
  · dsimp only
    split
    · rename_i hexternal
      exact send_sends ⟨rfl, by rw [cancelPath, cancelBody, if_pos hexternal, if_pos hexternal]⟩
    · rename_i hexternal
      exact send_sends ⟨rfl, by rw [cancelPath, cancelBody, if_neg hexternal, if_neg hexternal]⟩

theorem cancelAllOrders_made (cancel : CancelAllOrders) (g : Gateway ρ) :
    Grows (Asks (Made env g (.cancelAllOrders refuses info cancel requestId))) g
      (cancelAllOrders env refuses info cancel requestId g).state := by
  unfold cancelAllOrders
  split
  · exact .refl g
  · refine Outcome.state_bind
      (P := Grows (Asks (Made env g (.cancelAllOrders refuses info cancel requestId))) g)
      (send_sends ⟨rfl, rfl, rfl, rfl, rfl⟩).log fun s hs => hs.trans ?_
    exact .of_cons rfl trivial

end OrderEntry

/-- The requests that the handler of an event sends. -/
theorem Gateway.Leaves.made {g s : Gateway ρ} {e : Event} (h : Leaves env g s e) :
    Grows (Requests (Made env g e)) g s := by
  cases e with
  | timer t =>
    refine h.makes'.mono fun x hx => hx.elim ?_ requests_of_writes
    exact requests_of_asks fun f => OrderEntry.made_of_polled
  | createOrder =>
    exact h ▸ (OrderEntry.placeOrder_made _ _ g).log.mono fun x => requests_of_asks fun _ hf => hf
  | cancelOrder =>
    exact h ▸ (OrderEntry.cancelOrder_made _ _ g).log.mono fun x => requests_of_asks fun _ hf => hf
  | cancelAllOrders =>
    exact h ▸ (OrderEntry.cancelAllOrders_made _ g).mono fun x => requests_of_asks fun _ hf => hf
  | response =>
    refine h.makes'.mono ?_
    rintro x ⟨f, -, rfl | hx⟩
    · intro f hf
      cases hf
    · exact requests_of_replies hx
  | text => exact h.makes'.mono fun x => requests_of_writes
  | restConnected | restDisconnected | socketReady | socketDisconnected =>
    refine h.makes'.mono ?_
    simp [Makes, Requests]

/-- What every handler sees to is so of the whole history. -/
theorem Gateway.all_log {P : Entry → Prop} {C : Gateway ρ → Event → Prop}
    (hleaves : ∀ g s e, C g e → Leaves env g s e → Grows P g s) {g : Gateway ρ}
    (h : (machine ρ env).Reach C g) : ∀ x ∈ g.log, P x := by
  refine h.invariant (I := fun g => ∀ x ∈ g.log, P x) (fun x hx => absurd hx List.not_mem_nil)
    fun g e g' hg hc hstep => ?_
  refine invariant_step (P := fun g => ∀ x ∈ g.log, P x) (fun _ h => h) (fun s hl => ?_) hstep
  obtain ⟨new, hlog, hnew⟩ := hleaves g s e hc hl
  intro x hx
  rw [hlog] at hx
  exact (List.mem_append.mp hx).elim (hnew x) (hg x)

end Made

/-! ## Times -/

/-- When an event occurs, if it says so. -/
def Event.time? : Event → Option Int
  | .socketReady trace => some trace.originCreateTimeUtc
  | .timer t => some t.trace.originCreateTimeUtc
  | .createOrder _ info _ _ _ | .cancelOrder _ info _ _ _ | .cancelAllOrders _ info _ _ =>
    some info.originCreateTimeUtc
  | .restConnected | .restDisconnected | .socketDisconnected | .text _ | .response _ _ => none

/-- When an order action was asked for. -/
def Cause.time? : Cause → Option Int
  | .timer => none
  | .createOrder info _ | .cancelOrder info _ | .cancelAllOrders info _ =>
    some info.originCreateTimeUtc

/-- The event occurs between two times, if it says when. -/
def Between {ρ : Type} (start stop : Int) (_ : Gateway ρ) (e : Event) : Prop :=
  ∀ time ∈ e.time?, start ≤ time ∧ time ≤ stop

instance {ρ : Type} (start stop : Int) (g : Gateway ρ) (e : Event) :
    Decidable (Between start stop g e) :=
  match h : e.time? with
  | none => .isTrue fun _ ht => by rw [h] at ht; cases ht
  | some time => decidable_of_iff (start ≤ time ∧ time ≤ stop) ⟨fun ht _ hu => by
      rw [h] at hu
      cases hu
      exact ht, fun ht => ht time h⟩

/-! ## What is sent -/

section Sent

variable {ρ : Type} {env : Env} {start stop time : Int}

variable (env start stop) in
/-- The request carries a query that was made for its own method and path, between
two times, and when it was asked for if it is an order action. -/
def Queried (f : InFlight) : Prop :=
  ∃ time, (start ≤ time ∧ time ≤ stop) ∧ (∀ asked ∈ f.cause.time?, asked = time) ∧
    f.request.path ≠ "" ∧
    f.request.query = env.account.createQuery time f.request.method f.request.path

variable (env start stop) in
/-- What is signed of an entry is. -/
def Signed : Entry → Prop
  | .restRequest f => Queried env start stop f
  | .socketText (.login auth) =>
    ∃ time, (start ≤ time ∧ time ≤ stop) ∧ auth = env.account.createWsAuth time "/ws/v2"
  | _ => True

theorem signed_of_silent {x : Entry} (h : Requests (Queried env start stop) x) (hx : x.Silent) :
    Signed env start stop x := by
  cases x with
  | restRequest f => exact h f rfl
  | socketText text => cases text <;> trivial
  | _ => trivial

theorem Made.queried {ρ : Type} {g : Gateway ρ} {e : Event} {f : InFlight}
    (htime : Between start stop g e) (h : Made env g e f) : Queried env start stop f := by
  cases e with
  | timer t =>
    obtain ⟨hcause, path, hpath, hrequest⟩ := h
    exact ⟨_, htime _ rfl, by rw [hcause]; exact nofun, by rw [hrequest]; exact hpath,
      by rw [hrequest]; rfl⟩
  | createOrder =>
    obtain ⟨hcause, -, _, -, hrequest⟩ := h
    have hpath : OrderEntry.Path.placeOrder ≠ "" := by decide
    exact ⟨_, htime _ rfl, by simp [hcause, Cause.time?], by rw [hrequest]; exact hpath,
      by rw [hrequest]; rfl⟩
  | cancelOrder =>
    obtain ⟨hcause, hrequest⟩ := h
    exact ⟨_, htime _ rfl, by simp [hcause, Cause.time?],
      by rw [hrequest]; exact cancelPath_ne_empty _, by rw [hrequest]; rfl⟩
  | cancelAllOrders =>
    obtain ⟨hcause, hmethod, hpath, hquery, -⟩ := h
    exact ⟨_, htime _ rfl, by simp [hcause, Cause.time?], by rw [hpath]; decide,
      by rw [hquery, hmethod, hpath]⟩
  | _ => exact h.elim

variable [LimitRequest ρ]

namespace Gateway

/-- The entries that the handler of an event makes are signed. -/
theorem Leaves.signs {g s : Gateway ρ} {e : Event} (htime : Between start stop g e)
    (h : Leaves env g s e) : Grows (Signed env start stop) g s := by
  rcases h.says with ⟨trace, rfl, hlog⟩ | ⟨m, ts, -, hlog⟩ | hsilent
  · refine ⟨[.socketText (.login _), .dropCopyStatus .loginSent "", .socketReady], hlog, ?_⟩
    simpa [Signed] using ⟨_, htime _ rfl, rfl⟩
  · exact ⟨[.socketText (.pong ts), .received m], hlog, by simp [Signed]⟩
  · refine (h.made.and hsilent).mono fun x hx => signed_of_silent (fun f hf => ?_) hx.2
    exact (hx.1 f hf).queried htime

theorem all_signed {g : Gateway ρ} (h : (machine ρ env).Reach (Between start stop) g) :
    ∀ x ∈ g.log, Signed env start stop x :=
  all_log (fun _ _ _ htime hl => hl.signs htime) h

end Gateway

end Sent

/-! ## What verifies -/

section Verifies

variable {codecs : Codecs δ} {assertions : Bool} {key secret hostname path : String} {start stop : Int}

variable (μ codecs assertions key secret hostname start stop) in
/-- The exchange can verify the request, at a second between two times. Its query
is what the account's `Crypto` makes, whatever that has signed before. -/
def RequestVerifies (f : InFlight) : Prop :=
  ∃ time, (start ≤ time ∧ time ≤ stop) ∧ (∀ asked ∈ f.cause.time?, asked = time) ∧
    VerifiesQuery μ codecs key secret hostname f.request.method.name f.request.path (secondOf time)
      f.request.query ∧
    ∀ s : Crypto μ δ, (crypto codecs assertions key secret hostname).Reachable s →
      ∃ s', s.createQuery codecs assertions f.request.method.name f.request.path (secondOf time) =
        some (f.request.query, s')

variable (μ codecs assertions key secret hostname start stop) in
/-- The exchange can verify the login, at a second between two times. -/
def LoginVerifies (auth : String) : Prop :=
  ∃ time, (start ≤ time ∧ time ≤ stop) ∧
    (∃ parameters signed, VerifiesAuth μ codecs key secret hostname "/ws/v2" (secondOf time) auth
      parameters signed) ∧
    ∀ s : Crypto μ δ, (crypto codecs assertions key secret hostname).Reachable s →
      ∃ s', s.createWsAuth codecs assertions "/ws/v2" (secondOf time) = some (auth, s')

theorem secondOf_lt {time : Int} (h : time < 253402300800000000000) : secondOf time < 253402300800 := by
  rw [secondOf]
  omega

variable {env : Env} {name : String}

theorem Queried.verifies (hcodecs : codecs.Lawful)
    (hkey : ∀ c ∈ key.toList, Percent.isUnreserved c = true) (hstart : 0 ≤ start)
    (hstop : stop < 253402300800000000000)
    (henv : env.account = Account.signing μ codecs assertions name key secret hostname) {f : InFlight}
    (hf : Queried env start stop f) :
    RequestVerifies μ codecs assertions key secret hostname start stop f := by
  obtain ⟨time, htime, hasked, hpath, hquery⟩ := hf
  have hpos : 0 ≤ time := by omega
  have made : ∀ s : Crypto μ δ, (crypto codecs assertions key secret hostname).Reachable s →
      ∃ s', s.createQuery codecs assertions f.request.method.name f.request.path (secondOf time) =
        some (f.request.query, s') := by
    intro s hs
    rw [hquery, henv]
    exact createQuery_signing name hs hpos f.request.method hpath
  refine ⟨time, htime, hasked, ?_, made⟩
  obtain ⟨query, s', hmade, hverifies⟩ := Crypto.query_verifies hcodecs hkey
    (signs_init μ key secret hostname) f.request.method.name hpath
    (secondOf_lt (show time < 253402300800000000000 by omega))
  obtain ⟨s'', h⟩ := made _ .init
  cases hmade.symm.trans h
  exact hverifies

theorem login_verifies (hcodecs : codecs.Lawful)
    (hkey : ∀ c ∈ key.toList, Percent.isUnreserved c = true) (hstart : 0 ≤ start)
    (hstop : stop < 253402300800000000000)
    (henv : env.account = Account.signing μ codecs assertions name key secret hostname) {auth : String}
    (hauth : Signed env start stop (.socketText (.login auth))) :
    LoginVerifies μ codecs assertions key secret hostname start stop auth := by
  obtain ⟨time, htime, hlogin⟩ := hauth
  have hpath : "/ws/v2" ≠ "" := by decide
  have hpos : 0 ≤ time := by omega
  have made : ∀ s : Crypto μ δ, (crypto codecs assertions key secret hostname).Reachable s →
      ∃ s', s.createWsAuth codecs assertions "/ws/v2" (secondOf time) = some (auth, s') := by
    intro s hs
    rw [hlogin, henv]
    exact createWsAuth_signing name hs hpos hpath
  refine ⟨time, htime, ?_, made⟩
  obtain ⟨text, s', parameters, signed, hmade, hverifies⟩ := Crypto.wsAuth_verifies hcodecs hkey
    (signs_init μ key secret hostname) hpath
    (secondOf_lt (show time < 253402300800000000000 by omega))
  obtain ⟨s'', h⟩ := made _ .init
  cases hmade.symm.trans h
  exact ⟨parameters, signed, hverifies⟩

/-- In every run between two times, all that the gateway of an account sends under
its key verifies: each request, for its own method and path, and each login. -/
theorem requests_verify {ρ : Type} [LimitRequest ρ] (hcodecs : codecs.Lawful)
    (hkey : ∀ c ∈ key.toList, Percent.isUnreserved c = true) (hstart : 0 ≤ start)
    (hstop : stop < 253402300800000000000)
    (henv : env.account = Account.signing μ codecs assertions name key secret hostname) {g : Gateway ρ}
    (h : (machine ρ env).Reach (Between start stop) g) :
    (∀ f, .restRequest f ∈ g.log →
      RequestVerifies μ codecs assertions key secret hostname start stop f) ∧
    ∀ auth, .socketText (.login auth) ∈ g.log →
      LoginVerifies μ codecs assertions key secret hostname start stop auth :=
  ⟨fun _ hf => Queried.verifies hcodecs hkey hstart hstop henv (Gateway.all_signed h _ hf),
    fun _ hauth => login_verifies hcodecs hkey hstart hstop henv (Gateway.all_signed h _ hauth)⟩

end Verifies

/-! ## A day -/

/-- The account signs for itself. -/
def signingEnv : Env :=
  { Reader.env with
    account := Account.signing Crypto.Hasher Crypto.accountCodecs true "A1" "ab12-cd34" "secret"
      "api.huobi.pro" }

/-- 2000-02-29 12:34:56. -/
def leapDay : TraceInfo := ⟨0, 951827696000000000⟩

def leapLogin : String :=
  "\x7b\"action\":\"req\",\"ch\":\"auth\",\"params\":\x7b\"authType\":\"api\"," ++
    "\"accessKey\":\"ab12-cd34\",\"signatureMethod\":\"HmacSHA256\"," ++
    "\"signatureVersion\":\"2.1\",\"timestamp\":\"2000-02-29T12:34:56\"," ++
    "\"signature\":\"9B3/oZ6NeGTuJnv5IOdndSryb4vREDULF/sRkCe7Ypc=\"\x7d\x7d"

def isLeapLogin : Entry → Bool
  | .socketText (.login auth) => auth = leapLogin
  | _ => false

def asksAccounts : Entry → Bool
  | .restRequest f => f.request.path = OrderEntry.Path.accounts
  | _ => false

/-- A login, and a request for the accounts. -/
theorem requests_verify_leap : ∃ g : Gateway Reader.Flags,
    g.log.any isLeapLogin = true ∧ g.log.any asksAccounts = true ∧
    (∀ f, .restRequest f ∈ g.log → RequestVerifies Crypto.Hasher Crypto.accountCodecs true
      "ab12-cd34" "secret" "api.huobi.pro" 951827696000000000 951827696000000000 f) ∧
    ∀ auth, .socketText (.login auth) ∈ g.log → LoginVerifies Crypto.Hasher Crypto.accountCodecs true
      "ab12-cd34" "secret" "api.huobi.pro" 951827696000000000 951827696000000000 auth := by
  obtain ⟨g, hreach, hlogin, hrequest⟩ := Machine.exists_reach
    (M := machine Reader.Flags signingEnv) (C := Between 951827696000000000 951827696000000000)
    (P := fun g => g.log.any isLeapLogin = true ∧ g.log.any asksAccounts = true)
    [.restConnected, .socketReady leapDay, .text (Reader.authReply 200),
      .timer { Reader.tick with trace := leapDay }] (by decide +kernel)
  exact ⟨g, hlogin, hrequest, requests_verify Crypto.lawful_accountCodecs
    (List.all_eq_true.mp (by decide : "ab12-cd34".toList.all Percent.isUnreserved = true)) (by decide)
    (by decide) rfl hreach⟩

end RoqHtx

import RoqHtx.Impl.Response

/-!
# What a response amounts to

`process_response` sorts a response into one of five verdicts
(`Response.verdict`) and calls at most one handler, once (`processResponse_eq`).
Neither is called for a response that is `unhandled`, and the process stops at
some of these (`stops`), whatever the handlers are.
-/

namespace RoqHtx

/-! ## What an exception is reported as -/

namespace Exn

def origin : Exn → Origin
  | .oms origin _ _ _ => origin
  | .network _ _ _ => .gateway
  | .std _ => .exchange

def status : Exn → RequestStatus
  | .oms _ status _ _ => status
  | .network requestStatus _ _ => requestStatus
  | .std _ => .error

def error : Exn → Error
  | .oms _ _ error _ => error
  | .network _ error _ => error
  | .std _ => .unknown

def what : Exn → String
  | .oms _ _ _ what | .network _ _ what | .std what => what

end Exn

/-! ## Verdicts -/

/-- What a response whose body is to be decoded amounts to. -/
inductive Verdict (α : Type) where
  /-- An exception, of the REST client or of decoding. -/
  | raised (e : Exn)
  /-- A success, with its body. -/
  | body (ack : α)
  /-- A client or server error. -/
  | failed (error : Error) (text : String)
  /-- Neither handler is called. -/
  | silent
  /-- The process stops. -/
  | stop

variable {σ α : Type}

def Response.verdict (assertions : Bool) (decode : String → Except Exn α) (response : Response) :
    Verdict α :=
  match response.result with
  | .error e => .raised e
  | .ok (status, category, body) =>
    match category with
    | .unknown | .informationalResponse =>
      match response.expect with
      | some e => .raised e
      | none => .silent
    | .success =>
      match decode body with
      | .error e => .raised e
      | .ok ack => .body ack
    | .redirection => .stop
    | .clientError =>
      if status.code = 403 ∨ status.code = 418 ∨ status.code = 429 then
        .failed .requestRateLimitReached status.text
      else if status.code = 409 ∧ assertions then .stop
      else .failed .unknown ""
    | .serverError => .failed .unknown status.text

namespace Response

/-- The exception of a response, if any: that of `result`, of `expect`, or of
decoding the body of a success. -/
def raises (decode : String → Except Exn α) (response : Response) : Option Exn :=
  match response.result with
  | .error e => some e
  | .ok (_, .unknown, _) | .ok (_, .informationalResponse, _) => response.expect
  | .ok (_, .success, body) =>
    match decode body with
    | .error e => some e
    | .ok _ => none
  | .ok _ => none

/-- The body of a success, if it decodes. -/
def decoded (decode : String → Except Exn α) (response : Response) : Option α :=
  match response.result with
  | .ok (_, .success, body) => (decode body).toOption
  | _ => none

theorem raises_eq_some_iff (assertions : Bool) (decode : String → Except Exn α)
    (response : Response) (e : Exn) :
    response.raises decode = some e ↔ response.verdict assertions decode = .raised e := by
  unfold raises verdict
  rcases response.result with e | ⟨status, _ | _ | _ | _ | _ | _, body⟩ <;> dsimp only
  · simp
  · cases response.expect <;> simp
  · cases response.expect <;> simp
  · cases decode body <;> simp
  · simp
  · split
    · simp
    · split <;> simp
  · simp

theorem decoded_eq_some_iff (assertions : Bool) (decode : String → Except Exn α)
    (response : Response) (ack : α) :
    response.decoded decode = some ack ↔ response.verdict assertions decode = .body ack := by
  unfold decoded verdict
  rcases response.result with e | ⟨status, _ | _ | _ | _ | _ | _, body⟩ <;> dsimp only
  · simp
  · cases response.expect <;> simp
  · cases response.expect <;> simp
  · cases decode body <;> simp [Except.toOption]
  · simp
  · split
    · simp
    · split <;> simp
  · simp

end Response

/-- What follows from a verdict, for a handler of failures and one of bodies. -/
def Verdict.run (errorHandler : ErrorHandler σ) (k : α → σ → σ) (s : σ) :
    Verdict α → Outcome Exn σ
  | .raised e => .ok (errorHandler e.origin e.status e.error e.what s)
  | .body ack => .ok (k ack s)
  | .failed error text => .ok (errorHandler .exchange .rejected error text s)
  | .silent => .ok s
  | .stop => .fatal s

/-- What both handlers keep is kept. -/
theorem Verdict.run_state {P : σ → Prop} {errorHandler : ErrorHandler σ} {k : α → σ → σ} {s : σ}
    (herr : ∀ origin status error text, P (errorHandler origin status error text s))
    (hk : ∀ ack, P (k ack s)) (hs : P s) (v : Verdict α) : P (v.run errorHandler k s).state := by
  cases v with
  | raised e => exact herr _ _ _ _
  | body ack => exact hk ack
  | failed error text => exact herr _ _ _ _
  | silent | stop => exact hs

/-- The success handlers: the body is decoded, and then acted on. -/
def decoding (decode : String → Except Exn α) (k : α → σ → σ) : SuccessHandler σ := fun body s =>
  match decode body with
  | .error e => .throws e s
  | .ok ack => .ok (k ack s)

theorem processResponse_eq (assertions : Bool) (response : Response) (errorHandler : ErrorHandler σ)
    (decode : String → Except Exn α) (k : α → σ → σ) (s : σ) :
    processResponse assertions response errorHandler (decoding decode k) s =
      (response.verdict assertions decode).run errorHandler k s := by
  have raised : ∀ (e : Exn) (s : σ), catchException errorHandler (.throws e s) =
      .ok (errorHandler e.origin e.status e.error e.what s) := by
    rintro (_ | _ | _) s <;> rfl
  unfold processResponse processResult Response.verdict
  rcases response.result with e | ⟨status, _ | _ | _ | _ | _ | _, body⟩
  · exact raised e s
  · cases response.expect with
    | some e => exact raised e s
    | none => rfl
  · cases response.expect with
    | some e => exact raised e s
    | none => rfl
  · dsimp only [decoding]
    cases decode body with
    | error e => exact raised e s
    | ok ack => rfl
  · rfl
  · dsimp only
    repeat' split
    all_goals rfl
  · rfl

/-! ## What does not depend on the handlers -/

namespace Response

/-- Whether the process stops at a response. -/
def stops (assertions : Bool) (response : Response) : Bool :=
  match response.result with
  | .ok (_, .redirection, _) => true
  | .ok (status, .clientError, _) => status.code == 409 && assertions
  | _ => false

/-- Whether neither handler is called for a response. -/
def unhandled (assertions : Bool) (response : Response) : Bool :=
  match response.result with
  | .ok (_, .unknown, _) | .ok (_, .informationalResponse, _) => response.expect.isNone
  | _ => response.stops assertions

theorem verdict_stop_iff (assertions : Bool) (decode : String → Except Exn α)
    (response : Response) :
    response.verdict assertions decode = .stop ↔ response.stops assertions = true := by
  unfold verdict stops
  rcases response.result with e | ⟨status, _ | _ | _ | _ | _ | _, body⟩ <;> dsimp only
  · simp
  · split <;> simp
  · split <;> simp
  · split <;> simp
  · simp
  · split
    · rename_i h
      have : status.code ≠ 409 := by omega
      simp [this]
    · split <;> simp_all
  · simp

theorem unhandled_iff (assertions : Bool) (decode : String → Except Exn α) (response : Response) :
    response.unhandled assertions = true ↔
      response.verdict assertions decode = .silent ∨ response.verdict assertions decode = .stop := by
  rw [verdict_stop_iff]
  unfold unhandled verdict stops
  rcases response.result with e | ⟨status, _ | _ | _ | _ | _ | _, body⟩ <;> dsimp only
  · simp
  · cases response.expect <;> simp
  · cases response.expect <;> simp
  · split <;> simp
  · simp
  · split
    · simp
    · split <;> simp_all
  · simp

/-- A response that both handlers ignore. -/
theorem processResponse_ignore (assertions : Bool) (response : Response) (s : σ) :
    processResponse assertions response (fun _ _ _ _ s => s) (fun _ s => .ok s) s =
      if response.stops assertions then .fatal s else .ok s := by
  have h := processResponse_eq assertions response (fun _ _ _ _ s => s)
    (fun body => (.ok body : Except Exn String)) (fun _ s => s) s
  refine h.trans ?_
  by_cases hs : response.stops assertions = true
  · rw [(verdict_stop_iff assertions _ response).mpr hs, if_pos hs]
    rfl
  · rw [if_neg hs]
    have hne := fun h => hs ((verdict_stop_iff assertions
      (fun body => (.ok body : Except Exn String)) response).mp h)
    cases hv : response.verdict assertions fun body => (.ok body : Except Exn String) with
    | stop => exact absurd hv hne
    | _ => rfl

end Response

end RoqHtx

import RoqHtx.Impl.Api
import RoqHtx.Framework.Outcome

/-!
# REST responses

What `web::rest::Response` gives (`result`, `expect`), the exceptions, and
`OrderEntry::process_response`, the one dispatcher over HTTP categories that
every acknowledgement of `OrderEntry` goes through.
-/

namespace RoqHtx

/-- The three classes of exceptions that are told apart. -/
inductive Exn where
  /-- `server::oms::Exception`. -/
  | oms (origin : Origin) (status : RequestStatus) (error : Error) (what : String)
  /-- `NetworkError`. -/
  | network (requestStatus : RequestStatus) (error : Error) (what : String)
  /-- Any other `std::exception`. -/
  | std (what : String)
  deriving DecidableEq, Repr

namespace Http

/-- `web::http::Status`, with the text it is formatted as. -/
structure Status where
  code : Nat
  text : String
  deriving DecidableEq, Repr

inductive Category where
  | unknown | informationalResponse | success | redirection | clientError | serverError
  deriving DecidableEq, Repr

inductive Method where
  | get | post
  deriving DecidableEq, Repr

inductive ContentType where
  | applicationJson
  deriving DecidableEq, Repr

end Http

/-- `web::rest::Response`. -/
structure Response where
  /-- `result()`: the status, its category and the body, or what it throws. -/
  result : Except Exn (Http.Status × Http.Category × String)
  /-- What `expect(Status::OK)` throws, if it throws. -/
  expect : Option Exn

variable {σ : Type}

/-- The handlers `process_response` is given: one for a failure, one for the
body of a success. -/
abbrev ErrorHandler (σ : Type) := Origin → RequestStatus → Error → String → σ → σ
abbrev SuccessHandler (σ : Type) := String → σ → Outcome Exn σ

/-- The `try` block of `process_response`. -/
def processResult (assertions : Bool) (response : Response) (errorHandler : ErrorHandler σ)
    (successHandler : SuccessHandler σ) (s : σ) : Outcome Exn σ :=
  match response.result with
  | .error e => .throws e s
  | .ok (status, category, body) =>
    match category with
    | .unknown | .informationalResponse =>
      match response.expect with
      | some e => .throws e s
      | none => .ok s
    | .success => successHandler body s
    | .redirection => .fatal s
    | .clientError =>
      if status.code = 403 ∨ status.code = 418 ∨ status.code = 429 then
        .ok (errorHandler .exchange .rejected .requestRateLimitReached status.text s)
      else if status.code = 409 ∧ assertions then .fatal s
      else .ok (errorHandler .exchange .rejected .unknown "" s)
    | .serverError => .ok (errorHandler .exchange .rejected .unknown status.text s)

/-- `catch`: every class of exceptions is reported to the error handler. -/
def catchException (errorHandler : ErrorHandler σ) : Outcome Exn σ → Outcome Exn σ
  | .throws (.oms origin status error what) s => .ok (errorHandler origin status error what s)
  | .throws (.network requestStatus error what) s =>
    .ok (errorHandler .gateway requestStatus error what s)
  | .throws (.std what) s => .ok (errorHandler .exchange .error .unknown what s)
  | o => o

/-- `OrderEntry::process_response`. A build with `assertions` stops at a 409. -/
def processResponse (assertions : Bool) (response : Response) (errorHandler : ErrorHandler σ)
    (successHandler : SuccessHandler σ) (s : σ) : Outcome Exn σ :=
  catchException errorHandler (processResult assertions response errorHandler successHandler s)

end RoqHtx

import Mathlib.Logic.Basic

/-!
# Rate-limited requests

A request that one component asks for (`request`), that another takes up and
sends when a rate limiter permits it (`checkPending`), and that is marked
answered once a response has arrived (`commit`). `LimitRequest` is what the two
components may rely on: nothing ties a commit to the request it answers.
`LimitRequest.Flags` is the least implementation, two flags.
-/

namespace RoqHtx

class LimitRequest (ρ : Type) where
  init : ρ
  /-- Marks the request wanted and forgets an earlier response. -/
  request : ρ → ρ
  /-- The request has been taken up: it is no longer wanted. -/
  take : ρ → ρ
  /-- Records a response. -/
  commit : ρ → ρ
  wanted : ρ → Bool
  hasResponse : ρ → Bool
  wanted_init : wanted init = false
  hasResponse_init : hasResponse init = false
  wanted_request (r : ρ) : wanted (request r) = true
  hasResponse_request (r : ρ) : hasResponse (request r) = false
  wanted_take (r : ρ) : wanted (take r) = false
  hasResponse_take (r : ρ) : hasResponse (take r) = hasResponse r
  wanted_commit (r : ρ) : wanted (commit r) = wanted r
  hasResponse_commit (r : ρ) : hasResponse (commit r) = true

namespace LimitRequest

attribute [simp] wanted_init hasResponse_init wanted_request hasResponse_request wanted_take
  hasResponse_take wanted_commit hasResponse_commit

/-- Two flags: whether the request is wanted, and whether it has a response. -/
structure Flags where
  isWanted : Bool
  isAnswered : Bool
  deriving DecidableEq, Repr

instance : LimitRequest Flags where
  init := ⟨false, false⟩
  request _ := ⟨true, false⟩
  take r := ⟨false, r.isAnswered⟩
  commit r := ⟨r.isWanted, true⟩
  wanted := Flags.isWanted
  hasResponse := Flags.isAnswered
  wanted_init := rfl
  hasResponse_init := rfl
  wanted_request _ := rfl
  hasResponse_request _ := rfl
  wanted_take _ := rfl
  hasResponse_take _ := rfl
  wanted_commit _ := rfl
  hasResponse_commit _ := rfl

end LimitRequest

end RoqHtx

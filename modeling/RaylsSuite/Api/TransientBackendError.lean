import RaylsSuite.Api.BaseController
import RaylsSuite.Common.BlockChainExceptions
import RaylsSuite.Common.Poll

/-! # Errors of the backend that a retry may follow -/

namespace RaylsSuite.Api

open Common Foundation

instance : Thrown Failure where
  newError := .error
  isUndefined err := err = .undefined
  describe
    | .undefined => .ok "undefined"
    | .error message => .ok message
    | .backend err => .ok err.message

/-- A thrown value as the predicates on blockchain errors see it. -/
def Failure.thrown : Failure → JsError
  | .undefined => default
  | .error message => JsError.new message
  | .backend err => ⟨.error, some err.message, none, err.code⟩

/-- `typeof e?.status === 'number' && e.status >= 500`. -/
def Failure.isHttp5xx : Failure → Bool
  | .backend err => decide (500 ≤ err.status)
  | _ => false

structure RetryableCondition where
  name : String
  matchesError : Failure → Bool

namespace TransientBackendError

def RETRYABLE : List RetryableCondition :=
  [⟨"http-5xx", Failure.isHttp5xx⟩,
    ⟨"nonce-collision", fun err => isNonceError err.thrown⟩,
    ⟨"addr-pair-not-mapped", fun err =>
      (err.thrown.message.map fun message =>
        Text.includes (Text.toLowerCase message) "public address not mapped to user").getD false⟩]

def isTransient (err : Failure) : Bool := RETRYABLE.any fun condition => condition.matchesError err

def reason (err : Failure) : Option String :=
  (RETRYABLE.find? fun condition => condition.matchesError err).map RetryableCondition.name

/-- An error is retried exactly when there is a reason to name. -/
theorem isTransient_iff_reason (err : Failure) :
    isTransient err = true ↔ (reason err).isSome = true := by
  rw [isTransient, reason, Option.isSome_map, List.find?_isSome, List.any_eq_true]

example : isTransient (.backend ⟨"Public address not mapped to user", 400, none⟩) = true := by
  decide

end TransientBackendError

end RaylsSuite.Api

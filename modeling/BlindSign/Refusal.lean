import BlindSign.Admission
import BlindSign.Failure
import BlindSign.Grant

set_option autoImplicit false

/-! # Refusals

The outcomes of a request that is not granted. Each has a tag, which is all that the caller learns
of it, apart from the quota if that is exhausted.
-/

namespace BlindSign

/-- Why a request is not granted. -/
inductive Refusal
  /-- It was not admitted. -/
  | invalid (fault : RequestFault)
  /-- The caller did not prove that the account is theirs. -/
  | unauthenticated
  /-- No query is left. -/
  | exhausted (quota : Quota) (height : Int64)
  /-- There is no key share to sign with. -/
  | keyUnavailable (fault : KeyFault)
  /-- Signing failed. -/
  | unsigned (fault : EngineFault)
  deriving Repr, DecidableEq

namespace Refusal

/-- What the caller is told. -/
def tag : Refusal → String
  | .invalid _ => "invalid input"
  | .unauthenticated => "unauthenticated user"
  | .exhausted _ _ => "exceeded quota"
  | .keyUnavailable _ => "unexpected error"
  | .unsigned _ => "unexpected error"

def kind : Refusal → FailureKind
  | .invalid _ => .badRequest
  | .unauthenticated => .unauthorized
  | .exhausted _ _ => .forbidden
  | .keyUnavailable _ => .internal
  | .unsigned _ => .internal

/-- The wording of the fault behind a refusal, if there is one. -/
def cause? : Refusal → Option String
  | .invalid fault => some fault.message
  | .unauthenticated => none
  | .exhausted _ _ => none
  | .keyUnavailable fault => some fault.message
  | .unsigned fault => some fault.message

/-- The details of the envelope: the version, and an exhausted quota with the height. -/
def details : Refusal → List (String × Json.Value)
  | .exhausted quota height =>
    [("version", .text version), ("performedQueryCount", .integer quota.performed.toInt),
      ("totalQuota", .integer quota.total.toInt), ("blockNumber", .integer height.toInt)]
  -- the cause of a refusal stays in the logs
  | _ => [("version", .text version)]

/-- The envelope that answers a refused request. -/
def failure (r : Refusal) : Failure := (Failure.plain r.kind r.tag).attachAll r.details

end Refusal

end BlindSign

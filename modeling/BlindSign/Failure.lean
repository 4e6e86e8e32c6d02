import BlindSign.Json.Value

set_option autoImplicit false

/-! # Failure envelopes

The JSON object that answers a request that failed: whether it succeeded (no), the message, and any
number of details. The two fields of the envelope win over details of the same name.
-/

namespace BlindSign

/-- The kinds of failure that a caller can tell apart. -/
inductive FailureKind
  | badRequest
  | unauthorized
  | forbidden
  | internal
  deriving Repr, DecidableEq

namespace FailureKind

def status : FailureKind → Nat
  | .badRequest => 400
  | .unauthorized => 401
  | .forbidden => 403
  | .internal => 500

def phrase : FailureKind → String
  | .badRequest => "Bad Request"
  | .unauthorized => "Unauthorized"
  | .forbidden => "Forbidden"
  | .internal => "Internal Server Error"

/-- The name of a kind in machine-readable output. -/
def code : FailureKind → String
  | .badRequest => "BAD_REQUEST"
  | .unauthorized => "UNAUTHORIZED"
  | .forbidden => "FORBIDDEN"
  | .internal => "INTERNAL_SERVER_ERROR"

/-- The name of a kind in logs. -/
def inspect : FailureKind → String
  | .badRequest => "BadRequest"
  | .unauthorized => "Unauthorized"
  | .forbidden => "Forbidden"
  | .internal => "InternalServerError"

end FailureKind

/-- A failure with its message and details. -/
structure Failure where
  kind : FailureKind
  message : String
  details : Json.Fields

namespace Failure

def plain (kind : FailureKind) (message : String) : Failure := ⟨kind, message, []⟩

/-- Attach a detail; one attached before under the same key is replaced. -/
def attach (f : Failure) (key : String) (value : Json.Value) : Failure :=
  { f with details := Json.Fields.insert key value f.details }

def attachAll (f : Failure) (entries : List (String × Json.Value)) : Failure :=
  entries.foldl (fun f e => f.attach e.1 e.2) f

def fields (f : Failure) : Json.Fields :=
  -- set last, so that no detail can stand under these keys
  Json.Fields.insert "error" (.text f.message)
    (Json.Fields.insert "success" (.bool false) f.details)

def body (f : Failure) : List UInt8 := (Json.Value.object f.fields).render

/-- The failure on one line. -/
def text (f : Failure) : String := "[" ++ f.kind.phrase ++ "] " ++ f.message

/-- The failure with all its parts, as it appears in logs; an empty set of details is left out. -/
def inspect (f : Failure) : String :=
  let details :=
    if f.details.isEmpty then ""
    else ", details: \x7b" ++ Json.Value.inspectFields f.details ++ "\x7d"
  "AppError \x7b kind: " ++ f.kind.inspect ++ ", message: " ++ Text.Quoted.text f.message ++
    details ++ " \x7d"

end Failure

end BlindSign

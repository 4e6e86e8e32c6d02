import BlindSign.Engine
import BlindSign.Json.Record
import BlindSign.Quota

set_option autoImplicit false

/-! # Granted requests

The outcome of a request that was granted, and the answer that carries it: a JSON object with a
fixed order of fields, of which the last, the text of the warnings, is left out if there are none.
-/

namespace BlindSign

/-! ## Warnings

What may go wrong with a request that is granted all the same. The answer carries the warnings as
one text, the tags joined by commas. -/

/-- Something that went wrong with a request that was granted. -/
inductive Warning
  /-- The quota or the height of the chain could not be read. -/
  | chainUnread
  /-- The request had been recorded before; it was not counted again. -/
  | duplicate
  /-- The request could not be recorded. -/
  | notRecorded
  /-- The query could not be counted. -/
  | notCounted
  deriving Repr, DecidableEq

namespace Warning

def tag : Warning → String
  | .chainUnread => "contract read failure"
  | .duplicate => "duplicate request"
  | .notRecorded => "failed to store request"
  | .notCounted => "failed to increment count"

def separator : String := ", "

/-- The tags of a list of warnings with separators between them. -/
def joinTags : List Warning → String
  | [] => ""
  | [w] => w.tag
  | w :: rest => w.tag ++ separator ++ joinTags rest

/-- The text of a list of warnings; none for the empty list. -/
def text? : List Warning → Option String
  | [] => none
  | ws => some (joinTags ws)

end Warning

/-! ## Grants and answers -/

def version : String := "0.1.0"

/-- The outcome of a request that was granted. -/
structure Grant where
  signature : PartialSignature
  /-- The quota after this query. -/
  quota : Quota
  /-- The height of the chain. -/
  height : Int64
  warnings : List Warning
  deriving Repr, DecidableEq

def Grant.isClean (g : Grant) : Bool := g.warnings.isEmpty

/-- What a granted request is answered with. -/
structure Answer where
  /-- Whether nothing went wrong. -/
  success : Bool
  signature : String
  version : String
  performed : Int64
  total : Int64
  height : Int64
  /-- The text of the warnings. -/
  warning : Option String
  deriving Repr, DecidableEq

def Grant.answer (g : Grant) : Answer where
  success := g.isClean
  signature := g.signature.text
  version := version
  performed := g.quota.performed
  total := g.quota.total
  height := g.height
  warning := Warning.text? g.warnings

namespace Answer

/-- The names of the fields on the wire, in order. -/
def wireKeys : List String :=
  ["success", "signature", "version", "performedQueryCount", "totalQuota", "blockNumber", "error"]

def wireTree (a : Answer) : Json.Tree :=
  .object ([Json.member "success" (.bool a.success),
    Json.member "signature" (.ofText a.signature),
    Json.member "version" (.ofText a.version),
    Json.member "performedQueryCount" (.ofInt64 a.performed),
    Json.member "totalQuota" (.ofInt64 a.total),
    Json.member "blockNumber" (.ofInt64 a.height)] ++
    Json.optionalMember "error" .ofText a.warning)

def body (a : Answer) : List UInt8 := a.wireTree.render

/-- The answer that a tree denotes. Only the warning may be absent. -/
def ofTree? (tree : Json.Tree) : Option Answer := do
  match ← Json.Slots.ofTree? wireKeys tree with
  | [success, signature, version, performed, total, height, warning] =>
    some {
      success := ← Json.required Json.Tree.bool? success
      signature := ← Json.required Json.Tree.text? signature
      version := ← Json.required Json.Tree.text? version
      performed := ← Json.required Json.Tree.int64? performed
      total := ← Json.required Json.Tree.int64? total
      height := ← Json.required Json.Tree.int64? height
      warning := ← Json.optional Json.Tree.text? warning }
  | _ => none

def ofBody? (body : List UInt8) : Option Answer := (Json.Tree.parse? body).bind ofTree?

end Answer

def Quota.wireTree (q : Quota) : Json.Tree :=
  .object [Json.member "performedQueryCount" (.ofInt64 q.performed),
    Json.member "totalQuota" (.ofInt64 q.total)]

def statusTree : Json.Tree :=
  .object [Json.member "status" (.ofText "ok"), Json.member "version" (.ofText version)]

end BlindSign

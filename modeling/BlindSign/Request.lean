import BlindSign.Encoding.Hex
import BlindSign.Hash.Sha256
import BlindSign.Json.Record

set_option autoImplicit false

/-! # Requests

A request for a partial signature as its caller wrote it, before any check. Its canonical encoding
is a JSON object with all five fields in a fixed order, and its fingerprint is the hash of that:
two submissions of one request have one fingerprint.

On the wire the fields have other names, and absent ones are left out.
-/

namespace BlindSign

/-- A request as its caller wrote it. -/
structure Request where
  /-- The account that pays for the query. -/
  account : String
  /-- The blinded query, in base64. -/
  blindedQuery : String
  /-- The hash of the phone number. -/
  phoneHash : Option String
  /-- When the request was made, in milliseconds since the start of 1970. -/
  timestamp : Option Int64
  /-- The session that the request belongs to. -/
  sessionId : Option String
  deriving Repr, DecidableEq

/-- What identifies a request among those already recorded. -/
structure Fingerprint where
  text : String
  deriving Repr, DecidableEq

namespace Request

/-! ## The canonical encoding -/

/-- The canonical tree: all fields in order, absent ones `null`. -/
def canonicalTree (r : Request) : Json.Tree :=
  .object [Json.member "account" (.ofText r.account),
    Json.member "blinded_query_phone_number" (.ofText r.blindedQuery),
    Json.member "hashed_phone_number" (.orNull .ofText r.phoneHash),
    Json.member "timestamp" (.orNull .ofInt64 r.timestamp),
    Json.member "session_id" (.orNull .ofText r.sessionId)]

def canonical (r : Request) : List UInt8 := r.canonicalTree.render

/-- The fingerprint: the hash of the canonical encoding, in hexadecimal digits. -/
def fingerprint (r : Request) : Fingerprint :=
  ⟨Encoding.Hex.encode (Hash.Sha256.hash r.canonical)⟩

/-! ## The wire -/

/-- The names of the fields on the wire, in order. -/
def wireKeys : List String :=
  ["account", "blindedQueryPhoneNumber", "hashedPhoneNumber", "timestamp", "sessionID"]

/-- The request that a tree denotes. The account and the blinded query must be present. -/
def ofTree? (tree : Json.Tree) : Option Request := do
  -- the slots come in the order of `wireKeys`
  match ← Json.Slots.ofTree? wireKeys tree with
  | [account, blindedQuery, phoneHash, timestamp, sessionId] =>
    some {
      account := ← Json.required Json.Tree.text? account
      blindedQuery := ← Json.required Json.Tree.text? blindedQuery
      phoneHash := ← Json.optional Json.Tree.text? phoneHash
      timestamp := ← Json.optional Json.Tree.int64? timestamp
      sessionId := ← Json.optional Json.Tree.text? sessionId }
  | _ => none

def ofBody? (body : List UInt8) : Option Request := (Json.Tree.parse? body).bind ofTree?

/-- The tree of a request on the wire: absent fields are left out. -/
def wireTree (r : Request) : Json.Tree :=
  .object ([Json.member "account" (.ofText r.account),
    Json.member "blindedQueryPhoneNumber" (.ofText r.blindedQuery)] ++
    Json.optionalMember "hashedPhoneNumber" .ofText r.phoneHash ++
    Json.optionalMember "timestamp" .ofInt64 r.timestamp ++
    Json.optionalMember "sessionID" .ofText r.sessionId)

def body (r : Request) : List UInt8 := r.wireTree.render

end Request

end BlindSign

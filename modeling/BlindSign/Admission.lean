import BlindSign.Values
import BlindSign.Request

set_option autoImplicit false

/-! # Admission of requests

The checks that a request passes before anything else is asked about it: its size, the form of its
account, its blinded query and its phone hash, and the age of its timestamp, in this order. Size is
the greater of the submitted body and the canonical encoding.
-/

namespace BlindSign

/-- Why a request is not admitted. -/
inductive RequestFault
  /-- The body is no request. -/
  | malformedBody
  /-- The request has `actual` bytes and must have fewer than `limit`. -/
  | tooLarge (limit : UInt64) (actual : Nat)
  /-- The account is no address. -/
  | badAccount
  /-- The blinded query is not 96 bytes in base64. -/
  | badQuery
  /-- The phone hash is not 32 bytes in hexadecimal digits. -/
  | badPhoneHash
  /-- The timestamp is too far from the present. -/
  | staleTimestamp
  deriving Repr, DecidableEq

def RequestFault.message : RequestFault → String
  | .malformedBody => "malformed request body"
  | .tooLarge limit actual =>
    "request is " ++ toString actual ++ " bytes, limit is " ++ toString limit.toNat
  | .badAccount => "account is not a valid address"
  | .badQuery => "blinded query is not a valid encoding"
  | .badPhoneHash => "hashed phone number is not a valid hash"
  | .staleTimestamp => "timestamp outside accepted window"

/-- The bounds that admission holds a request to. -/
structure Limits where
  /-- A request must have fewer bytes. -/
  maxBytes : UInt64
  /-- How far a timestamp may lie from the present, in milliseconds; the sign does not matter. -/
  window : Int64
  deriving Repr, DecidableEq

/-- A request that was admitted, with its parts in their own types. -/
structure Admitted where
  account : Account
  query : BlindedQuery
  phoneHash : Option PhoneHash
  fingerprint : Fingerprint
  /-- The request as its caller wrote it. -/
  request : Request

namespace Admitted

/-- The size that counts: that of the body or of the canonical encoding, whichever is greater. -/
def size (request : Request) (bodyLength : Nat) : Nat :=
  max bodyLength request.canonical.length

def isRecent (window now timestamp : Int64) : Bool :=
  -- in unbounded integers: the distance of two timestamps may not fit into 64 bits
  (now.toInt - timestamp.toInt).natAbs ≤ window.toInt.natAbs

def part {α : Type} (fault : RequestFault) : Option α → Except RequestFault α
  | some a => .ok a
  | none => .error fault

def readPhoneHash : Option String → Except RequestFault (Option PhoneHash)
  | none => .ok none
  | some raw => (part .badPhoneHash (PhoneHash.parse? raw)).map some

/-- Admit a request that was submitted in a body of `bodyLength` bytes. -/
def ofRequest (limits : Limits) (now : Int64) (bodyLength : Nat) (request : Request) :
    Except RequestFault Admitted := do
  let actual := size request bodyLength
  if limits.maxBytes.toNat ≤ actual then .error (.tooLarge limits.maxBytes actual)
  else
    let account ← part .badAccount (Account.parse? request.account)
    let query ← part .badQuery (BlindedQuery.parse? request.blindedQuery)
    let phoneHash ← readPhoneHash request.phoneHash
    if request.timestamp.all (isRecent limits.window now) then
      .ok ⟨account, query, phoneHash, request.fingerprint, request⟩
    else .error .staleTimestamp

end Admitted

end BlindSign

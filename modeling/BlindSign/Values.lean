import BlindSign.Encoding.Base64
import BlindSign.Encoding.Hex
import BlindSign.Text.Characters

set_option autoImplicit false

/-! # Values of a request

The parts of a request in types of their own: the account that pays for it, the query that is to be
signed and, optionally, a hash of a phone number. Each is read from a text, and only a text of the
right form is read as one.
-/

namespace BlindSign

/-! ## Accounts

An account is an address of twenty bytes. It is read from text in either case and with blank
characters around it, and always written in lower case, so an account has one name however it was
spelled. -/

/-- An account, by the bytes of its address. -/
structure Account where
  /-- The bytes of the address. -/
  bytes : List UInt8
  /-- There are twenty of them. -/
  length_bytes : bytes.length = 20
  deriving Repr, DecidableEq

namespace Account

/-- The name of an account: `0x` and forty lower-case hexadecimal digits. -/
def text (a : Account) : String := "0x" ++ Encoding.Hex.encode a.bytes

/-- The account that a text names: between blank characters, `0x` or `0X` and forty hexadecimal
digits. -/
def parse? (raw : String) : Option Account :=
  let trimmed := Text.trim raw
  if Encoding.Hex.hasMarkChars trimmed.toList then
    match Encoding.Hex.decode trimmed with
    | .ok bytes => if h : bytes.length = 20 then some ⟨bytes, h⟩ else none
    | .error _ => none
  else none

end Account

/-! ## Blinded queries

What a caller wants signed is a point in its encoding of 96 bytes, sent as base64. Whether the bytes
encode a point is for the signature engine to say. -/

/-- The bytes of a blinded query and their base64 form. -/
structure BlindedQuery where
  /-- The text as it was sent. -/
  text : String
  /-- The bytes that the text spells. -/
  bytes : List UInt8
  /-- The text spells the bytes. -/
  decode_text : Encoding.Base64.decode text = .ok bytes
  /-- There are 96 bytes. -/
  length_bytes : bytes.length = 96

namespace BlindedQuery

/-- The blinded query that a text spells. Nothing may stand around the base64 form. -/
def parse? (raw : String) : Option BlindedQuery :=
  match h : Encoding.Base64.decode raw with
  | .ok bytes => if hl : bytes.length = 96 then some ⟨raw, bytes, h, hl⟩ else none
  | .error _ => none

/-- The form in which a blinded query appears in logs. -/
def inspect (q : BlindedQuery) : String := "BlindedQuery(" ++ Text.Quoted.text q.text ++ ")"

end BlindedQuery

/-! ## Hashed phone numbers

A hash has 32 bytes, in hexadecimal digits. It is kept as it was sent. -/

/-- A hashed phone number, as it was sent. -/
structure PhoneHash where
  /-- The text as it was sent. -/
  text : String
  /-- The text is 64 hexadecimal digits after at most one mark. -/
  isDigits_text : Encoding.Hex.isDigits text 64 = true
  deriving Repr, DecidableEq

/-- The hash that a text spells. Nothing may stand around it. -/
def PhoneHash.parse? (raw : String) : Option PhoneHash :=
  if h : Encoding.Hex.isDigits raw 64 = true then some ⟨raw, h⟩ else none

end BlindSign

import BlindSign.Text.Characters
import BlindSign.Text.Utf8

set_option autoImplicit false

/-! # Hexadecimal text

Bytes as pairs of hexadecimal digits. Writing uses lower case; reading takes either case, after at
most one mark `0x` or `0X`. A reader that fails reports an odd number of digits first, and
otherwise the first byte that is no digit.
-/

namespace BlindSign.Encoding.Hex

/-- Why a text is not the hexadecimal form of any bytes. -/
inductive Fault
  /-- The digits do not pair up. -/
  | oddLength
  /-- `byte`, at offset `position`, is not a hexadecimal digit. -/
  | badDigit (byte : UInt8) (position : Nat)
  deriving Repr, DecidableEq

/-- The wording of a fault; a byte that is no digit is shown as the character with its code. -/
def Fault.message : Fault → String
  | .oddLength => "Odd number of digits"
  | .badDigit byte position =>
    "Invalid character " ++ Text.Quoted.char (Char.ofNat byte.toNat) ++ " at position " ++
      toString position

/-! ## Digits -/

def digit? (b : UInt8) : Option Nat :=
  if 0x30 ≤ b.toNat && b.toNat ≤ 0x39 then some (b.toNat - 0x30)
  else if 0x61 ≤ b.toNat && b.toNat ≤ 0x66 then some (b.toNat - 0x61 + 10)
  else if 0x41 ≤ b.toNat && b.toNat ≤ 0x46 then some (b.toNat - 0x41 + 10)
  else none

/-- Whether a character is a hexadecimal digit, in either case. Digits are ASCII characters. -/
def isDigit (c : Char) : Bool :=
  ('0' ≤ c && c ≤ '9') || ('a' ≤ c && c ≤ 'f') || ('A' ≤ c && c ≤ 'F')

/-- The lower-case digit with a value below sixteen. -/
def digitOf (n : Nat) : Char :=
  if n < 10 then Char.ofNat (0x30 + n) else Char.ofNat (0x61 + (n - 10))

/-! ## The mark -/

def dropMarkChars : List Char → List Char
  | '0' :: 'x' :: rest => rest
  | '0' :: 'X' :: rest => rest
  | cs => cs

def hasMarkChars : List Char → Bool
  | '0' :: 'x' :: _ => true
  | '0' :: 'X' :: _ => true
  | _ => false

/-- Drop one leading `0x` or `0X`. -/
def dropMark (s : String) : String := String.ofList (dropMarkChars s.toList)

/-! ## Writing and reading -/

def encodeByte (b : UInt8) : List Char := [digitOf (b.toNat / 16), digitOf (b.toNat % 16)]

def encodeChars (bytes : List UInt8) : List Char := bytes.flatMap encodeByte

/-- The hexadecimal form of `bytes`, in lower case and without a mark. -/
def encode (bytes : List UInt8) : String := String.ofList (encodeChars bytes)

def digitAt (position : Nat) (b : UInt8) : Except Fault Nat :=
  match digit? b with
  | some d => .ok d
  | none => .error (.badDigit b position)

def decodePairs : Nat → List UInt8 → Except Fault (List UInt8)
  | _, [] => .ok []
  | _, [_] => .error .oddLength
  | position, a :: b :: rest => do
    let high ← digitAt position a
    let low ← digitAt (position + 1) b
    let tail ← decodePairs (position + 2) rest
    .ok (UInt8.ofNat (high * 16 + low) :: tail)

def decodeBytes (digits : List UInt8) : Except Fault (List UInt8) :=
  -- an odd number of digits is noticed before any bad one
  if digits.length % 2 = 0 then decodePairs 0 digits else .error .oddLength

/-- The bytes that a text spells, after at most one mark. -/
def decode (s : String) : Except Fault (List UInt8) :=
  decodeBytes (Text.Utf8.encodeChars (dropMarkChars s.toList))

/-- Whether a text is, after at most one mark, exactly `count` hexadecimal digits. -/
def isDigits (s : String) (count : Nat) : Bool :=
  let body := dropMarkChars s.toList
  body.length = count && body.all isDigit

/-! ## Small laws -/

@[simp] theorem length_encodeChars (bytes : List UInt8) :
    (encodeChars bytes).length = 2 * bytes.length := by
  induction bytes with
  | nil => rfl
  | cons b rest ih =>
    simp only [encodeChars, List.flatMap_cons, List.length_append, List.length_cons] at ih ⊢
    simp only [encodeByte, List.length_cons, List.length_nil]
    omega

end BlindSign.Encoding.Hex

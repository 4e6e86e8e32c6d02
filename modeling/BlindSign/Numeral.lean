set_option autoImplicit false

/-! # Integer numerals

Integers written in digits of a radix, with an optional sign and no other decoration. Digits are
taken from left to right and the first fault wins; on one digit, a character that is no digit wins
over a value out of bounds.
-/

namespace BlindSign.Numeral

/-- Why a text is no integer within bounds. -/
inductive Fault
  /-- There is nothing to read. -/
  | empty
  /-- A character is no digit of the radix, or a sign stands alone. -/
  | badDigit
  /-- The value exceeds the greatest one admitted. -/
  | tooLarge
  /-- The value falls below the least one admitted. -/
  | tooSmall
  deriving Repr, DecidableEq

def Fault.message : Fault → String
  | .empty => "cannot parse integer from empty string"
  | .badDigit => "invalid digit found in string"
  | .tooLarge => "number too large to fit in target type"
  | .tooSmall => "number too small to fit in target type"

/-- The least and the greatest integer that a place admits. -/
structure Bounds where
  /-- The least integer admitted. -/
  least : Int
  /-- The greatest integer admitted. -/
  greatest : Int

/-- The integers that fit into `bits` bits without a sign. -/
def Bounds.unsigned (bits : Nat) : Bounds := ⟨0, Nat.pow 2 bits - 1⟩

/-- The integers that fit into `bits` bits in two's complement. -/
def Bounds.signed (bits : Nat) : Bounds :=
  ⟨-(Nat.pow 2 (bits - 1)), Nat.pow 2 (bits - 1) - 1⟩

def Bounds.contains (b : Bounds) (n : Int) : Bool := b.least ≤ n && n ≤ b.greatest

/-- The value of a digit in a radix of at most sixteen. Only ASCII digits count. -/
def digit? (radix : Nat) (c : Char) : Option Nat :=
  let n := c.toNat
  let value? :=
    if 0x30 ≤ n && n ≤ 0x39 then some (n - 0x30)
    else if 0x61 ≤ n && n ≤ 0x66 then some (n - 0x61 + 10)
    else if 0x41 ≤ n && n ≤ 0x46 then some (n - 0x41 + 10)
    else none
  value?.filter (· < radix)

/-- Append digits to the value `acc` read so far; after a minus sign each digit is subtracted. -/
def readDigits (radix : Nat) (bounds : Bounds) (negative : Bool) :
    Int → List Char → Except Fault Int
  | acc, [] => .ok acc
  | acc, c :: rest =>
    match digit? radix c with
    | none => .error .badDigit
    | some d =>
      let value := acc * radix + (if negative then -(d : Int) else d)
      -- checked after every digit: with more digits the value only moves away from zero
      if bounds.greatest < value then .error .tooLarge
      else if value < bounds.least then .error .tooSmall
      else readDigits radix bounds negative value rest

/-- Read an integer. A plus sign is always allowed, a minus sign only if the bounds admit negative
integers, and a sign needs at least one digit after it. -/
def read (radix : Nat) (bounds : Bounds) : List Char → Except Fault Int
  | [] => .error .empty
  | ['+'] => .error .badDigit
  | ['-'] => .error .badDigit
  | '+' :: rest => readDigits radix bounds false 0 rest
  | '-' :: rest =>
    if bounds.least < 0 then readDigits radix bounds true 0 rest else .error .badDigit
  | cs => readDigits radix bounds false 0 cs

def readDecimal (bounds : Bounds) (s : String) : Except Fault Int := read 10 bounds s.toList

def naturalChars (n : Nat) : List Char := Nat.toDigits 10 n

/-- The decimal form of an integer. -/
def integerChars : Int → List Char
  | .ofNat n => naturalChars n
  | .negSucc n => '-' :: naturalChars (n + 1)

end BlindSign.Numeral

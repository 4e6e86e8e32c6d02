import BlindSign.Decimal.Shortest
import BlindSign.Numeral

set_option autoImplicit false

/-! # Numbers in JSON text

A number as it is spelled: a sign, digits, a fraction and an exponent. A spelling without fraction
and exponent denotes an integer, except for minus zero; all others denote binary64 numbers.
-/

namespace BlindSign.Json

def isDigit (b : UInt8) : Bool := 0x30 ≤ b.toNat && b.toNat ≤ 0x39

def digitsValue (digits : List UInt8) : Nat :=
  digits.foldl (fun n b => n * 10 + (b.toNat - 0x30)) 0

def digitsOf (n : Nat) : List UInt8 := (Numeral.naturalChars n).map fun c => c.toNat.toUInt8

structure Exponent where
  /-- Whether the mark is a capital letter. -/
  capital : Bool
  /-- The sign, if one is written; `true` for minus. -/
  sign : Option Bool
  /-- At least one digit. -/
  digits : List UInt8
  deriving Repr, DecidableEq

/-- A number as it is spelled. -/
structure NumberText where
  /-- Whether a minus sign leads. -/
  negative : Bool
  /-- The digits before the point: at least one, and no leading zero before others. -/
  whole : List UInt8
  /-- The digits after the point, at least one if there is a point. -/
  fraction : Option (List UInt8)
  /-- The exponent, if one is written. -/
  exponent : Option Exponent
  deriving Repr, DecidableEq

namespace NumberText

/-! ## Spelling -/

def exponentBytes (e : Exponent) : List UInt8 :=
  (if e.capital then 0x45 else 0x65) ::
    ((match e.sign with
      | none => []
      | some true => [0x2D]
      | some false => [0x2B]) ++ e.digits)

def bytes (n : NumberText) : List UInt8 :=
  (if n.negative then [0x2D] else []) ++ n.whole ++
    (match n.fraction with
      | none => []
      | some digits => 0x2E :: digits) ++
    (match n.exponent with
      | none => []
      | some e => exponentBytes e)

/-- Read a fraction, if a point leads. -/
def nextFraction? (bs : List UInt8) : Option (Option (List UInt8) × List UInt8) :=
  match bs with
  | 0x2E :: rest =>
    let digits := rest.takeWhile isDigit
    if digits.isEmpty then none else some (some digits, rest.dropWhile isDigit)
  | _ => some (none, bs)

/-- Read the optional sign of an exponent. -/
def nextSign (bs : List UInt8) : Option Bool × List UInt8 :=
  match bs with
  | 0x2B :: rest => (some false, rest)
  | 0x2D :: rest => (some true, rest)
  | _ => (none, bs)

/-- Read an exponent, if its mark leads. -/
def nextExponent? (bs : List UInt8) : Option (Option Exponent × List UInt8) :=
  match bs with
  | b :: rest =>
    if b = 0x65 || b = 0x45 then
      let (sign, rest) := nextSign rest
      let digits := rest.takeWhile isDigit
      if digits.isEmpty then none
      else some (some ⟨b = 0x45, sign, digits⟩, rest.dropWhile isDigit)
    else some (none, bs)
  | [] => some (none, [])

/-- Read the number in front of `bs`. -/
def next? (bs : List UInt8) : Option (NumberText × List UInt8) := do
  let (negative, bs) := match bs with
    | 0x2D :: rest => (true, rest)
    | _ => (false, bs)
  let whole := bs.takeWhile isDigit
  -- a zero may only stand alone before the point
  if whole.isEmpty || (whole.head? == some 0x30 && 1 < whole.length) then none
  else
    let (fraction, bs) ← nextFraction? (bs.dropWhile isDigit)
    let (exponent, bs) ← nextExponent? bs
    some (⟨negative, whole, fraction, exponent⟩, bs)

/-! ## Integers -/

def ofInt (n : Int) : NumberText := ⟨n < 0, digitsOf n.natAbs, none, none⟩

/-- The integer that a spelling denotes. A fraction, an exponent and a minus before zero each make
a spelling one of a binary64 number. -/
def integer? (n : NumberText) : Option Int :=
  match n.fraction, n.exponent with
  | none, none =>
    let value := digitsValue n.whole
    if n.negative then (if value = 0 then none else some (-(value : Int))) else some value
  | _, _ => none

def int64? (n : NumberText) : Option Int64 :=
  n.integer?.bind fun value =>
    if (Numeral.Bounds.signed 64).contains value then some (Int64.ofInt value) else none

/-! ## Binary64 numbers -/

/-- Leading digits of a number, as many as fit into 64 bits, and the power of ten that scales
them. -/
structure Significand where
  value : Nat
  exponent : Int

/-- Append the digits before the point. From the first digit that does not fit on, digits only
scale. -/
def appendWhole : Significand → List UInt8 → Significand
  | s, [] => s
  | s, b :: rest =>
    let value := s.value * 10 + (b.toNat - 0x30)
    if value < UInt64.size then appendWhole ⟨value, s.exponent⟩ rest
    else ⟨s.value, s.exponent + ((b :: rest).length : Int)⟩

/-- Append the digits after the point. From the first digit that does not fit on, digits are
dropped. -/
def appendFraction : Significand → List UInt8 → Significand
  | s, [] => s
  | s, b :: rest =>
    let value := s.value * 10 + (b.toNat - 0x30)
    if value < UInt64.size then appendFraction ⟨value, s.exponent - 1⟩ rest else s

/-- The greatest exponent that is kept apart from larger ones. -/
def exponentLimit : Int := Int32.maxValue.toInt

/-- The magnitude of the binary64 number that a spelling denotes, unless it is too great. An
exponent beyond all bounds leaves zero if it is negative or the digits are all zero. -/
def magnitude? (n : NumberText) : Option Binary64 :=
  let s := appendFraction (appendWhole ⟨0, 0⟩ n.whole) (n.fraction.getD [])
  match n.exponent with
  | none => Binary64.ofDecimal? s.value s.exponent
  | some e =>
    let shift : Int := digitsValue e.digits
    let down := e.sign == some true
    -- out of range of the exponent's type; the digits decide what is left of the number
    if exponentLimit < shift then
      if s.value ≠ 0 && !down then none else some Binary64.zero
    else
      let exponent := if down then s.exponent - shift else s.exponent + shift
      Binary64.ofDecimal? s.value (max (-exponentLimit - 1) (min exponentLimit exponent))

def binary64? (n : NumberText) : Option Binary64 :=
  n.magnitude?.map fun x => if n.negative then x.negate else x

/-- The spelling with all digits before and after the point and no exponent. -/
def positional (negative : Bool) (s : Scientific) : NumberText :=
  let digits := digitsOf s.digits
  -- a point is always written, with a zero where no digit stands before or behind it
  if 0 ≤ s.exponent then
    let zeros := if s.digits = 0 then [] else List.replicate s.exponent.toNat 0x30
    ⟨negative, digits ++ zeros, some [0x30], none⟩
  else
    let places := (-s.exponent).toNat
    if digits.length ≤ places then
      ⟨negative, [0x30], some (List.replicate (places - digits.length) 0x30 ++ digits), none⟩
    else
      let point := digits.length - places
      ⟨negative, digits.take point, some (digits.drop point), none⟩

def leadingExponent (s : Scientific) : Int := s.exponent + (digitsOf s.digits).length - 1

/-- The spelling with one digit before the point and an exponent with a sign. -/
def scientific (negative : Bool) (s : Scientific) : NumberText :=
  let digits := digitsOf s.digits
  let exponent := leadingExponent s
  ⟨negative, digits.take 1, if digits.length ≤ 1 then none else some (digits.drop 1),
    some ⟨false, some (exponent < 0), digitsOf exponent.natAbs⟩⟩

/-- The spelling of a binary64 number, with the fewest digits that read back: positional if the
leading digit stands for a power of ten from `-5` to `15`, scientific otherwise. -/
def ofBinary64 (x : Binary64) : NumberText :=
  let s := x.shortest
  if -5 ≤ leadingExponent s && leadingExponent s ≤ 15 then positional x.negative s
  else scientific x.negative s

end NumberText

end BlindSign.Json

set_option autoImplicit false

/-! # Numbers in binary64

The finite numbers of the 64-bit binary format, as a sign, a mantissa and an exponent of two, with
rounding to the nearest number (of two equally near ones the one with an even mantissa). Products
and quotients are formed exactly and rounded once.
-/

namespace BlindSign

/-- A finite number of the format: `mantissa * 2 ^ exponent`, negated if `negative`. The mantissa
has 53 bits, or fewer with the least exponent. -/
structure Binary64 where
  /-- Whether the sign is minus; zero has both signs. -/
  negative : Bool
  /-- The mantissa, below `2 ^ 53`. -/
  mantissa : Nat
  /-- The exponent of two, at least `-1074`. -/
  exponent : Int
  deriving Repr, DecidableEq

namespace Binary64

def leastExponent : Int := -1074

def greatestExponent : Int := 971

/-- The least mantissa of 53 bits. -/
def leastNormal : Nat := 0x10000000000000

def zero : Binary64 := ⟨false, 0, leastExponent⟩

/-- The quotient of two natural numbers, rounded to the nearest one, a half to the even one. -/
def divideToEven (n d : Nat) : Nat :=
  let q := n / d
  let r := n % d
  if d < 2 * r || (2 * r == d && q % 2 == 1) then q + 1 else q

/-- The quotient of `n` by `d * 2 ^ e`, as a fraction. -/
def shiftDown (n d : Nat) (e : Int) : Nat × Nat :=
  if 0 ≤ e then (n, d * Nat.pow 2 e.toNat) else (n * Nat.pow 2 (-e).toNat, d)

/-- The exponent with which the quotient of `n` by `d` has a mantissa of 53 bits, or the least
exponent if that is greater. -/
def exponentFor (n d : Nat) : Int :=
  -- one too high if the quotient shifted by it is below one
  let guess : Int := (Nat.log2 n : Int) - (Nat.log2 d : Int)
  let (a, b) := shiftDown n d guess
  let exponent := if b ≤ a then guess - 52 else guess - 53
  max exponent leastExponent

/-- The number nearest to the quotient of `n` by `d`, unless it is too great for the format. -/
def ofRatio? (n d : Nat) : Option Binary64 :=
  if n = 0 then some zero
  else
    let exponent := exponentFor n d
    let (a, b) := shiftDown n d exponent
    let mantissa := divideToEven a b
    -- rounding up may have carried into a 54th bit
    let (mantissa, exponent) :=
      if mantissa = 2 * leastNormal then (leastNormal, exponent + 1) else (mantissa, exponent)
    if greatestExponent < exponent then none else some ⟨false, mantissa, exponent⟩

/-- The magnitude of a number as a fraction. -/
def ratio (x : Binary64) : Nat × Nat :=
  if 0 ≤ x.exponent then (x.mantissa * Nat.pow 2 x.exponent.toNat, 1)
  else (x.mantissa, Nat.pow 2 (-x.exponent).toNat)

/-- The product of two magnitudes, rounded. -/
def mul? (x y : Binary64) : Option Binary64 :=
  ofRatio? (x.ratio.1 * y.ratio.1) (x.ratio.2 * y.ratio.2)

def div? (x y : Binary64) : Option Binary64 :=
  ofRatio? (x.ratio.1 * y.ratio.2) (x.ratio.2 * y.ratio.1)

def negate (x : Binary64) : Binary64 := { x with negative := !x.negative }

/-- A power of ten, rounded; `none` above `10 ^ 308`. -/
def powerOfTen? (k : Nat) : Option Binary64 := ofRatio? (Nat.pow 10 k) 1

/-- The number for `significand * 10 ^ exponent`, formed as decimal text is read: the significand
and the power of ten are rounded first, then their product or quotient. Powers below `10 ^ -308`
are divided out in steps, of which the third leaves zero. A number too great for the format has
no result. -/
def ofDecimal? (significand : Nat) (exponent : Int) : Option Binary64 := do
  let x ← ofRatio? significand 1
  if 0 ≤ exponent then
    -- zero has no size to grow: its exponent does not matter
    if significand = 0 then some x
    else if 308 < exponent then none
    else x.mul? (← powerOfTen? exponent.toNat)
  else
    let down := (-exponent).toNat
    let steps := (down - 1) / 308
    let top ← powerOfTen? 308
    let x ← (List.replicate (min steps 3) top).foldlM div? x
    x.div? (← powerOfTen? (down - steps * 308))

end Binary64

end BlindSign

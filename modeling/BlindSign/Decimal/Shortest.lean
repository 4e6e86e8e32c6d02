import BlindSign.Decimal.Binary64

set_option autoImplicit false

/-! # The shortest decimal that reads back

For a binary64 number, the decimal with the fewest digits among those that round to it, and of
these the nearest to it; of two equally near ones, the one with an even last digit. The search goes
through one digit, two digits, up to seventeen, and tests on each decimal grid the two points next
to the number.
-/

namespace BlindSign

/-- The decimal number `digits * 10 ^ exponent`. -/
structure Scientific where
  digits : Nat
  exponent : Int
  deriving Repr, DecidableEq

namespace Binary64

/-- The reals that round to a magnitude: from `low / scale` to `high / scale`, the ends included if
the mantissa is even. -/
structure RoundingInterval where
  low : Nat
  high : Nat
  scale : Nat
  closed : Bool

/-- The reals that round to the magnitude of `x`: up to half a step above and below; below a power
of two the steps are half as wide. -/
def roundingInterval (x : Binary64) : RoundingInterval :=
  -- in quarters of a step: half a step is two of them
  let below := if x.mantissa = leastNormal && leastExponent < x.exponent then 1 else 2
  let closed := x.mantissa % 2 == 0
  if 0 ≤ x.exponent then
    let step := Nat.pow 2 x.exponent.toNat
    ⟨(4 * x.mantissa - below) * step, (4 * x.mantissa + 2) * step, 4, closed⟩
  else
    ⟨4 * x.mantissa - below, 4 * x.mantissa + 2, 4 * Nat.pow 2 (-x.exponent).toNat, closed⟩

def RoundingInterval.contains (i : RoundingInterval) (n d : Nat) : Bool :=
  if i.closed then i.low * d ≤ n * i.scale && n * i.scale ≤ i.high * d
  else i.low * d < n * i.scale && n * i.scale < i.high * d

/-- The exponent of the leading decimal digit of the fraction `n / d`, which is not zero and not
below `10 ^ -400`. -/
def leadingExponent (n d : Nat) : Int :=
  ((Nat.toDigits 10 (n * Nat.pow 10 400 / d)).length : Int) - 401

/-- The magnitude `c * 10 ^ e` as a fraction. -/
def decimalRatio (c : Nat) (e : Int) : Nat × Nat :=
  if 0 ≤ e then (c * Nat.pow 10 e.toNat, 1) else (c, Nat.pow 10 (-e).toNat)

/-- Of the two points next to `n / d` on the grid with step `10 ^ e`, the nearer one of those in
the interval. -/
def gridPoint? (i : RoundingInterval) (n d : Nat) (e : Int) : Option Nat :=
  let (a, b) := if 0 ≤ e then (n, d * Nat.pow 10 e.toNat) else (n * Nat.pow 10 (-e).toNat, d)
  let under := a / b
  let inside (c : Nat) : Bool := let r := decimalRatio c e; i.contains r.1 r.2
  match inside under, inside (under + 1) with
  | true, true => some (divideToEven a b)
  | true, false => some under
  | false, true => some (under + 1)
  | false, false => none

/-- Move the trailing zeros of the digits into the exponent; `fuel` bounds how many. -/
def dropZeros : Nat → Nat → Int → Scientific
  | 0, c, e => ⟨c, e⟩
  | fuel + 1, c, e => if c % 10 = 0 then dropZeros fuel (c / 10) (e + 1) else ⟨c, e⟩

/-- The shortest decimal that rounds to the magnitude of `x`; zero is `0 * 10 ^ 0`. -/
def shortest (x : Binary64) : Scientific :=
  if x.mantissa = 0 then ⟨0, 0⟩
  else
    let (n, d) := x.ratio
    let i := x.roundingInterval
    let top := leadingExponent n d
    -- from coarse grids to fine ones, so the first point found has the fewest digits
    let found := (List.range 17).findSome? fun (k : Nat) =>
      (gridPoint? i n d (top - (k : Int))).map fun c => dropZeros 18 c (top - (k : Int))
    found.getD ⟨n / d, 0⟩

end Binary64

end BlindSign

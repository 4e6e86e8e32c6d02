import BlindSign.Encoding.Digits

set_option autoImplicit false

/-! # The group G2 of BLS12-381

Points over the quadratic extension of a prime field on the curve `y² = x³ + 4(1 + u)`, in the
subgroup of prime order. A point is encoded in 96 bytes: the two coefficients of `x`, each in 48
bytes, that of `u` first. The three leading bits are flags: whether the encoding is compressed,
whether the point is the one at infinity, and whether `y` is the greater of the two ordinates with
this `x`. Decoding accepts one encoding of each point of the subgroup and nothing else.
-/

namespace BlindSign.Curve.Bls12381

def fieldOrder : Nat :=
  0x1a0111ea397fe69a4b1ba7b6434bacd764774b84f38512bf6730d2a0f6b0f6241eabfffeb153ffffb9feffffffffaaab

def groupOrder : Nat := 0x73eda753299d7d483339d80809a1d80553bda402fffe5bfeffffffff00000001

instance : @NeZero Nat Zero.ofOfNat0 fieldOrder := ⟨by decide⟩

abbrev Fp := Fin fieldOrder

/-- An element `re + im * u` of the extension, where `u² = -1`. -/
structure Fp2 where
  re : Fp
  im : Fp
  deriving Repr, DecidableEq

namespace Fp2

instance : Zero Fp2 := ⟨⟨0, 0⟩⟩
instance : One Fp2 := ⟨⟨1, 0⟩⟩
instance : Add Fp2 := ⟨fun a b => ⟨a.re + b.re, a.im + b.im⟩⟩
instance : Sub Fp2 := ⟨fun a b => ⟨a.re - b.re, a.im - b.im⟩⟩
instance : Neg Fp2 := ⟨fun a => ⟨-a.re, -a.im⟩⟩
instance : Mul Fp2 :=
  ⟨fun a b => ⟨a.re * b.re - a.im * b.im, a.re * b.im + a.im * b.re⟩⟩

def power (a : Fp2) (n : Nat) : Fp2 := times (· * ·) 1 n a

def inverse (a : Fp2) : Fp2 :=
  let norm := a.re * a.re + a.im * a.im
  -- `a` times its conjugate is its norm, and a power of that is the inverse of the norm
  let scale : Fp := times (· * ·) 1 (fieldOrder - 2) norm
  ⟨a.re * scale, -(a.im * scale)⟩

/-- A square root, if there is one. The order of the prime field is 3 modulo 4, so a candidate is a
product of powers; it is returned only if its square is `a`. -/
def sqrt? (a : Fp2) : Option Fp2 :=
  -- `unit` is `a` to half of `fieldOrder - 1`; for a square its norm is one
  let s := a.power ((fieldOrder - 3) / 4)
  let t := s * a
  let unit := s * t
  let root :=
    if unit = -1 then ⟨-t.im, t.re⟩
    else (1 + unit).power ((fieldOrder - 1) / 2) * t
  if root * root = a then some root else none

/-- Whether `a` comes after `b`, the coefficient of `u` counting first. -/
def after (a b : Fp2) : Bool :=
  b.im.val < a.im.val || (a.im = b.im && b.re.val < a.re.val)

end Fp2

/-! ## Points -/

inductive Point
  | infinity
  | affine (x y : Fp2)
  deriving Repr, DecidableEq

/-- A point by coordinates up to a common factor; `z` is zero for the point at infinity. -/
structure Projective where
  x : Fp2
  y : Fp2
  z : Fp2

def tripleConstant : Fp2 := ⟨12, 12⟩

def curveSide (x : Fp2) : Fp2 := x * x * x + ⟨4, 4⟩

def Point.projective : Point → Projective
  | .infinity => ⟨0, 1, 0⟩
  | .affine x y => ⟨x, y, 1⟩

/-- The sum of two points. These formulas hold without exception on a curve with no point of order
two. -/
def Projective.add (p q : Projective) : Projective :=
  let xx := p.x * q.x
  let yy := p.y * q.y
  let zz := p.z * q.z
  -- the sums of two mixed products, with one multiplication each
  let xy := (p.x + p.y) * (q.x + q.y) - (xx + yy)
  let yz := (p.y + p.z) * (q.y + q.z) - (yy + zz)
  let xz := (p.x + p.z) * (q.x + q.z) - (xx + zz)
  let xx3 := xx + xx + xx
  let bzz := tripleConstant * zz
  let bxz := tripleConstant * xz
  let sum := yy + bzz
  let difference := yy - bzz
  ⟨xy * difference - yz * bxz, difference * sum + xx3 * bxz, yz * sum + xx3 * xy⟩

def Projective.point (p : Projective) : Point :=
  if p.z = 0 then .infinity
  else
    let scale := p.z.inverse
    .affine (p.x * scale) (p.y * scale)

def Point.multiple (n : Nat) (p : Point) : Point :=
  (times Projective.add Point.infinity.projective n p.projective).point

/-- Whether a point of the curve lies in the group: its multiple by the group's order is the point
at infinity. -/
def Point.inGroup (p : Point) : Bool := p.multiple groupOrder = .infinity

/-! ## Encoding -/

def compressedFlag : Nat := 128

def infinityFlag : Nat := 64

def greaterFlag : Nat := 32

def addFlags (flags : Nat) : List UInt8 → List UInt8
  | [] => []
  | b :: rest => (b.toNat + flags).toUInt8 :: rest

def encode : Point → List UInt8
  | .infinity => addFlags (compressedFlag + infinityFlag) (List.replicate 96 0)
  | .affine x y =>
    let flags := if y.after (-y) then compressedFlag + greaterFlag else compressedFlag
    addFlags flags (Encoding.bytesOfNat 48 x.im.val ++ Encoding.bytesOfNat 48 x.re.val)

/-- The element of the prime field that 48 bytes spell, if they spell a number below its order. -/
def fieldElement? (bytes : List UInt8) : Option Fp :=
  let n := Encoding.natOfBytes bytes
  if h : n < fieldOrder then some ⟨n, h⟩ else none

/-- The point with abscissa `x` and the greater or the lesser ordinate. -/
def pointAt? (x : Fp2) (greater : Bool) : Option Point := do
  let y ← (curveSide x).sqrt?
  let y := if y.after (-y) = greater then y else -y
  -- where `y = -y` there is no greater ordinate
  if y.after (-y) = greater then some (.affine x y) else none

/-- The point of the group that 96 bytes encode. -/
def decode? : List UInt8 → Option Point
  | [] => none
  | first :: rest =>
    -- the flags as a number of three bits; a compressed encoding has the highest one
    let flags := first.toNat / 32
    let body := (first.toNat % 32).toUInt8 :: rest
    if body.length ≠ 96 || flags < 4 then none
    else if flags / 2 % 2 = 1 then
      -- infinity has no ordinate to choose, so its third flag is clear
      if flags = 6 && body.all (· = 0) then some .infinity else none
    else do
      let im ← fieldElement? (body.take 48)
      let re ← fieldElement? (body.drop 48)
      let point ← pointAt? ⟨re, im⟩ (flags % 2 = 1)
      if point.inGroup then some point else none

/-- The scalar that 32 bytes spell, the most significant byte first, if it is below the order of
the group. -/
def scalar? (bytes : List UInt8) : Option Nat :=
  let n := Encoding.natOfBytes bytes
  if n < groupOrder then some n else none

end BlindSign.Curve.Bls12381

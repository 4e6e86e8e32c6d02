import BlindSign.Encoding.Digits
import BlindSign.Hash.Sha512

set_option autoImplicit false

/-! # Signatures over Ed25519

Verification of signatures on the twisted Edwards curve `-x² + y² = 1 + d x² y²`, without the
cofactor and strictly: the scalar of the signature is reduced, and neither the key nor the point of
the signature has small order.
-/

namespace BlindSign.Curve.Ed25519

/-- The order of the prime field: 19 less than the weight of the highest bit of 32 bytes. -/
def fieldOrder : Nat :=
  0x7fffffffffffffffffffffffffffffffffffffffffffffffffffffffffffffed

def groupOrder : Nat :=
  0x1000000000000000000000000000000014def9dea2f79cd65812631a5cf5d3ed

/-- The weight of the highest bit of 32 bytes. -/
def signWeight : Nat := fieldOrder + 19

instance : @NeZero Nat Zero.ofOfNat0 fieldOrder := ⟨by decide⟩

abbrev Fp := Fin fieldOrder

def power (a : Fp) (n : Nat) : Fp := times (· * ·) 1 n a

def inverse (a : Fp) : Fp := power a (fieldOrder - 2)

/-- The coefficient `d` of the curve's equation, `-121665 / 121666`. -/
def coefficient : Fp := -(121665 * inverse 121666)

def rootOfMinusOne : Fp := power 2 ((fieldOrder - 1) / 4)

/-- A square root, if there is one. The order of the field is 5 modulo 8, so the root is a power, up
to a root of `-1`. -/
def sqrt? (a : Fp) : Option Fp :=
  let r := power a ((fieldOrder + 3) / 8)
  if r * r = a then some r
  else
    let r := r * rootOfMinusOne
    if r * r = a then some r else none

/-! ## Points -/

/-- A point by coordinates up to a common factor, with `x * y = z * t`. -/
structure Point where
  x : Fp
  y : Fp
  z : Fp
  t : Fp

def Point.neutral : Point := ⟨0, 1, 1, 0⟩

def Point.add (p q : Point) : Point :=
  let a := (p.y - p.x) * (q.y - q.x)
  let b := (p.y + p.x) * (q.y + q.x)
  let c := p.t * 2 * coefficient * q.t
  let d := p.z * 2 * q.z
  let e := b - a
  let f := d - c
  let g := d + c
  let h := b + a
  ⟨e * f, g * h, f * g, e * h⟩

def Point.negate (p : Point) : Point := ⟨-p.x, p.y, p.z, -p.t⟩

def Point.multiple (n : Nat) (p : Point) : Point := times Point.add Point.neutral n p

def Point.isNeutral (p : Point) : Bool := p.x = 0 && p.y = p.z

/-- Whether the order of a point divides the cofactor eight. -/
def Point.hasSmallOrder (p : Point) : Bool := (p.multiple 8).isNeutral

/-- The point with ordinate `y` whose abscissa is odd, or even, as `odd` says. -/
def pointAt? (y : Fp) (odd : Bool) : Option Point := do
  let x ← sqrt? ((y * y - 1) * inverse (coefficient * (y * y) + 1))
  let x := if (x.val % 2 == 1) = odd then x else -x
  some ⟨x, y, 1, x * y⟩

/-- The point that 32 bytes encode: the ordinate, the least significant byte first, and in the
highest bit whether the abscissa is odd. An ordinate not below the order of the field counts modulo
that order. -/
def decode? (bytes : List UInt8) : Option Point :=
  if bytes.length = 32 then
    let n := Encoding.natOfBytesReversed bytes
    pointAt? (Fin.ofNat fieldOrder (n % signWeight)) (n / signWeight == 1)
  else none

def encode (p : Point) : List UInt8 :=
  let scale := inverse p.z
  let x := p.x * scale
  let y := p.y * scale
  Encoding.bytesOfNatReversed 32 (y.val + (x.val % 2) * signWeight)

/-- The base point: its ordinate is `4 / 5` and its abscissa even. -/
def basePoint : Point := (pointAt? (4 * inverse 5) false).getD Point.neutral

/-! ## Verification -/

/-- A key: its encoding and the point encoded. -/
structure PublicKey where
  bytes : List UInt8
  point : Point

def PublicKey.ofBytes? (bytes : List UInt8) : Option PublicKey :=
  (decode? bytes).map fun point => ⟨bytes, point⟩

/-- Whether 64 bytes are a signature of `message` under `key`. The first half encodes a point `R`,
the second a scalar `s`; with `k` the hash of `R`, the key and the message, `s B - k A` must encode
to the very bytes of `R`. -/
def PublicKey.verifies (key : PublicKey) (message signature : List UInt8) : Bool :=
  let first := signature.take 32
  let scalar := Encoding.natOfBytesReversed (signature.drop 32)
  if signature.length = 64 && scalar < groupOrder then
    match decode? first with
    | some r =>
      -- such points would make one signature valid for many messages
      if r.hasSmallOrder || key.point.hasSmallOrder then false
      else
        let digest := Hash.Sha512.hash (first ++ key.bytes ++ message)
        let k := Encoding.natOfBytesReversed digest % groupOrder
        let expected := (basePoint.multiple scalar).add (key.point.negate.multiple k)
        encode expected == first
    | none => false
  else false

end BlindSign.Curve.Ed25519

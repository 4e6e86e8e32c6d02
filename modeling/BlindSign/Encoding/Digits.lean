set_option autoImplicit false

/-! # Numbers by their digits

Natural numbers written in a fixed count of bytes, in either order, and in binary digits. A number
that needs more bytes loses its high ones.

Powers in a field and multiples of a point are what an operation yields that is repeated by
doubling, one binary digit after the other.
-/

namespace BlindSign.Encoding

/-- The number that bytes spell, the most significant byte first. -/
def natOfBytes (bytes : List UInt8) : Nat := bytes.foldl (fun n b => n * 256 + b.toNat) 0

/-- The number that bytes spell, the least significant byte first. -/
def natOfBytesReversed (bytes : List UInt8) : Nat := natOfBytes bytes.reverse

/-- The `count` low bytes of a number, the least significant byte first. -/
def bytesOfNatReversed : (count : Nat) → Nat → List UInt8
  | 0, _ => []
  | count + 1, n => (n % 256).toUInt8 :: bytesOfNatReversed count (n / 256)

/-- The `count` low bytes of a number, the most significant byte first. -/
def bytesOfNat (count n : Nat) : List UInt8 := (bytesOfNatReversed count n).reverse

/-! ## Small laws -/

@[simp] theorem length_bytesOfNatReversed (count n : Nat) :
    (bytesOfNatReversed count n).length = count := by
  induction count generalizing n with
  | zero => rfl
  | succ count ih => simp [bytesOfNatReversed, ih]

@[simp] theorem length_bytesOfNat (count n : Nat) : (bytesOfNat count n).length = count := by
  simp [bytesOfNat]

end BlindSign.Encoding

namespace BlindSign.Curve

/-! ## Repeated operations -/

/-- The binary digits of a number, the most significant digit first. -/
def binaryDigits (n : Nat) : List Bool :=
  (List.range (n.log2 + 1)).reverse.map n.testBit

/-- `x` combined with itself `n` times by an associative operation with neutral element `unit`. -/
def times {α : Type} (combine : α → α → α) (unit : α) (n : Nat) (x : α) : α :=
  (binaryDigits n).foldl
    (fun acc digit => let twice := combine acc acc; if digit then combine twice x else twice) unit

end BlindSign.Curve

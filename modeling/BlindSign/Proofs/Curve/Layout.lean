import Mathlib.Tactic.Ring
import BlindSign.Curve.Bls12381
import BlindSign.Proofs.Digits

set_option autoImplicit false

/-! # What an encoding holds

The 96 bytes of an encoding hold three flags and two numbers, and any 96 bytes hold just one choice
of these (`IsLaidOut`, `IsLaidOut.unique`). They denote a point if the first flag is set and the
others and the numbers are those of the point (`Denotes`): the point at infinity has the second flag
and no numbers, any other point the coefficients of its abscissa, and the third flag just if its
ordinate comes after the negative of it.

**What denotes a point is its encoding, and nothing else** (`denotes_iff`).
-/

namespace BlindSign.Curve.Bls12381

open Encoding

/-! ## The layout of an encoding -/

structure Flags where
  /-- The encoding is compressed. -/
  compressed : Bool
  /-- The point is the one at infinity. -/
  infinity : Bool
  /-- The ordinate comes after its negative. -/
  greater : Bool

def Flags.value (flags : Flags) : Nat :=
  4 * flags.compressed.toNat + 2 * flags.infinity.toNat + flags.greater.toNat

def Flags.ofNat (n : Nat) : Flags := ⟨n / 4 % 2 = 1, n / 2 % 2 = 1, n % 2 = 1⟩

/-- 96 bytes hold flags, a number of 381 bits and a number of 384 bits. -/
structure IsLaidOut (bytes : List UInt8) (flags : Flags) (im re : Nat) : Prop where
  length_eq : bytes.length = 96
  im_lt : im < 2 ^ 381
  re_lt : re < 2 ^ 384
  value_eq : natOfBytes bytes = (flags.value * 2 ^ 381 + im) * 2 ^ 384 + re

variable {bytes rest : List UInt8} {first : UInt8} {flags flags' : Flags} {im im' re re' n : Nat}

theorem Flags.value_lt (flags : Flags) : flags.value < 8 := by
  have hcompressed := Bool.toNat_lt flags.compressed
  have hinfinity := Bool.toNat_lt flags.infinity
  have hgreater := Bool.toNat_lt flags.greater
  unfold value
  omega

theorem Flags.value_ofNat (h : n < 8) : (Flags.ofNat n).value = n := by
  have hall : ∀ n < 8, (Flags.ofNat n).value = n := by decide
  exact hall n h

theorem Flags.ofNat_value (flags : Flags) : Flags.ofNat flags.value = flags := by
  obtain ⟨compressed, infinity, greater⟩ := flags
  cases compressed <;> cases infinity <;> cases greater <;> rfl

theorem Flags.value_injective (h : flags.value = flags'.value) : flags = flags' := by
  rw [← Flags.ofNat_value flags, h, Flags.ofNat_value]

/-- The flags of the point at infinity. -/
theorem Flags.ofNat_eq_infinity_iff (h : n < 8) : Flags.ofNat n = ⟨true, true, false⟩ ↔ n = 6 := by
  constructor
  · intro hflags
    rw [← Flags.value_ofNat h, hflags]
    rfl
  · rintro rfl
    rfl

/-- The flags of any other point. -/
theorem Flags.ofNat_eq_affine_iff (h : n < 8) {greater : Bool} :
    Flags.ofNat n = ⟨true, false, greater⟩ ↔
      ¬ n < 4 ∧ ¬ n / 2 % 2 = 1 ∧ greater = decide (n % 2 = 1) := by
  rw [ofNat, Flags.mk.injEq, decide_eq_true_eq, decide_eq_false_iff_not, eq_comm (b := greater)]
  exact and_congr_left fun _ => by omega

/-- Numbers below a bound are told apart in a sum. -/
theorem eq_of_mul_add_eq {m a a' b b' : Nat} (hb : b < m) (hb' : b' < m)
    (h : a * m + b = a' * m + b') : a = a' ∧ b = b' := by
  have hm : 0 < m := Nat.zero_lt_of_lt hb
  obtain ⟨hdiv, hmod⟩ := (Nat.div_mod_unique hm).2 ⟨show b + m * a = a' * m + b' by
    rw [← h, Nat.mul_comm, Nat.add_comm], hb⟩
  obtain ⟨hdiv', hmod'⟩ := (Nat.div_mod_unique hm).2 ⟨show b' + m * a' = a' * m + b' by
    rw [Nat.mul_comm, Nat.add_comm], hb'⟩
  exact ⟨hdiv.symm.trans hdiv', hmod.symm.trans hmod'⟩

/-- Bytes hold one thing. -/
theorem IsLaidOut.unique (h : IsLaidOut bytes flags im re) (h' : IsLaidOut bytes flags' im' re') :
    flags = flags' ∧ im = im' ∧ re = re' := by
  obtain ⟨hhigh, hre⟩ :=
    eq_of_mul_add_eq h.re_lt h'.re_lt (h.value_eq.symm.trans h'.value_eq)
  obtain ⟨hflags, him⟩ := eq_of_mul_add_eq h.im_lt h'.im_lt hhigh
  exact ⟨Flags.value_injective hflags, him, hre⟩

/-- One thing is held by no two lists of bytes. -/
theorem IsLaidOut.bytes_unique {bytes' : List UInt8} (h : IsLaidOut bytes flags im re)
    (h' : IsLaidOut bytes' flags im re) : bytes = bytes' :=
  natOfBytes_inj (h.length_eq.trans h'.length_eq.symm) (h.value_eq.trans h'.value_eq.symm)

/-- Each number has 48 bytes. -/
theorem weight_number : 256 ^ 48 = 2 ^ 384 := by decide +kernel

/-- The flags are the three high bits of the first byte. -/
theorem weight_flags : 32 * 256 ^ 95 = 2 ^ 381 * 2 ^ 384 := by decide +kernel

theorem toNat_low (b : UInt8) : (b.toNat % 32).toUInt8.toNat = b.toNat % 32 := by
  refine UInt8.toNat_ofNat_of_lt' ?_
  show b.toNat % 32 < 256
  omega

/-- The bytes of the numbers, without the flags. -/
def body (first : UInt8) (rest : List UInt8) : List UInt8 := (first.toNat % 32).toUInt8 :: rest

theorem natOfBytes_body (hlength : rest.length = 95) : natOfBytes (first :: rest) =
    first.toNat / 32 * 2 ^ 381 * 2 ^ 384 + natOfBytes (body first rest) := by
  rw [body, natOfBytes_cons, natOfBytes_cons, toNat_low, hlength]
  calc first.toNat * 256 ^ 95 + natOfBytes rest
      = (32 * (first.toNat / 32) + first.toNat % 32) * 256 ^ 95 + natOfBytes rest := by
        rw [Nat.div_add_mod]
    _ = first.toNat / 32 * (32 * 256 ^ 95) +
          (first.toNat % 32 * 256 ^ 95 + natOfBytes rest) := by ring
    _ = first.toNat / 32 * 2 ^ 381 * 2 ^ 384 +
          (first.toNat % 32 * 256 ^ 95 + natOfBytes rest) := by rw [weight_flags, Nat.mul_assoc]

theorem length_body (hlength : rest.length = 95) : (body first rest).length = 96 := by
  rw [body, List.length_cons, hlength]

/-- The body is two numbers in a row. -/
theorem natOfBytes_halves (hlength : rest.length = 95) : natOfBytes (body first rest) =
    natOfBytes ((body first rest).take 48) * 2 ^ 384 + natOfBytes ((body first rest).drop 48) := by
  have hdrop : ((body first rest).drop 48).length = 48 := by
    rw [List.length_drop, length_body hlength]
  have happend := natOfBytes_append ((body first rest).take 48) ((body first rest).drop 48)
  rwa [List.take_append_drop, hdrop, weight_number] at happend

/-- **What 96 bytes hold.** -/
theorem isLaidOut_cons (hlength : rest.length = 95) :
    IsLaidOut (first :: rest) (.ofNat (first.toNat / 32)) (natOfBytes ((body first rest).take 48))
      (natOfBytes ((body first rest).drop 48)) := by
  have hfirst := first.toNat_lt
  refine ⟨by rw [List.length_cons, hlength], ?_, ?_, ?_⟩
  · -- the first byte of the body is below 32
    have hbound : 32 * 256 ^ 47 = 2 ^ 381 := by decide +kernel
    have hlengthTail : (rest.take 47).length = 47 := by rw [List.length_take, hlength]; rfl
    have htail := natOfBytes_lt (rest.take 47)
    rw [hlengthTail] at htail
    rw [body, List.take_succ_cons, natOfBytes_cons, toNat_low, hlengthTail, ← hbound]
    calc first.toNat % 32 * 256 ^ 47 + natOfBytes (rest.take 47)
        < first.toNat % 32 * 256 ^ 47 + 256 ^ 47 := by omega
      _ = (first.toNat % 32 + 1) * 256 ^ 47 := by ring
      _ ≤ 32 * 256 ^ 47 := Nat.mul_le_mul_right _ (by omega)
  · have hlt := natOfBytes_lt ((body first rest).drop 48)
    rwa [List.length_drop, length_body hlength, weight_number] at hlt
  · rw [natOfBytes_body hlength, natOfBytes_halves hlength, Flags.value_ofNat (by omega),
      ← Nat.add_assoc, ← Nat.add_mul]

/-- Any 96 bytes hold something. -/
theorem exists_isLaidOut (h : bytes.length = 96) : ∃ flags im re, IsLaidOut bytes flags im re := by
  cases bytes with
  | nil => cases h
  | cons first rest => exact ⟨_, _, _, isLaidOut_cons (Nat.succ.inj h)⟩

/-! ## What is encoded -/

/-- Bytes denote a point: they hold its flags and numbers. -/
def Denotes (bytes : List UInt8) : Point → Prop
  | .infinity => IsLaidOut bytes ⟨true, true, false⟩ 0 0
  | .affine x y => IsLaidOut bytes ⟨true, false, y.after (-y)⟩ x.im.val x.re.val

/-- Flags weigh as much as there are numbers for the bytes behind. -/
theorem natOfBytes_addFlags {f : Nat} (h : first.toNat + f < 256) :
    natOfBytes (addFlags f (first :: rest)) =
      f * 256 ^ rest.length + natOfBytes (first :: rest) := by
  have hbyte : (first.toNat + f).toUInt8.toNat = first.toNat + f := UInt8.toNat_ofNat_of_lt' h
  rw [addFlags, natOfBytes_cons, natOfBytes_cons, hbyte]
  ring

@[simp] theorem length_addFlags (f : Nat) (bytes : List UInt8) :
    (addFlags f bytes).length = bytes.length := by
  cases bytes with
  | nil => rfl
  | cons first rest => rfl

/-- Flags are added to what leaves room for them. -/
theorem isLaidOut_addFlags {numbers : List UInt8} (hlength : numbers.length = 96) (him : im < 2 ^ 381)
    (hre : re < 2 ^ 384) (hvalue : natOfBytes numbers = im * 2 ^ 384 + re) (flags : Flags) :
    IsLaidOut (addFlags (32 * flags.value) numbers) flags im re := by
  cases numbers with
  | nil => cases hlength
  | cons first rest =>
      have hrest : rest.length = 95 := Nat.succ.inj hlength
      have hflags := flags.value_lt
      -- the numbers are below `2 ^ 765`, so the three highest bits of the first byte are free
      have hroom : first.toNat < 32 := by
        refine Nat.lt_of_mul_lt_mul_right (a := 256 ^ 95) ?_
        rw [weight_flags]
        calc first.toNat * 256 ^ 95 ≤ natOfBytes (first :: rest) := by
              rw [natOfBytes_cons, hrest]
              exact Nat.le_add_right _ _
          _ < (im + 1) * 2 ^ 384 := by
              rw [hvalue, Nat.add_mul, Nat.one_mul]
              exact Nat.add_lt_add_left hre _
          _ ≤ 2 ^ 381 * 2 ^ 384 := Nat.mul_le_mul_right _ him
      refine ⟨by rw [length_addFlags, hlength], him, hre, ?_⟩
      calc natOfBytes (addFlags (32 * flags.value) (first :: rest))
          = 32 * flags.value * 256 ^ 95 + natOfBytes (first :: rest) := by
            rw [natOfBytes_addFlags (by omega), hrest]
        _ = flags.value * (32 * 256 ^ 95) + natOfBytes (first :: rest) := by ring
        _ = (flags.value * 2 ^ 381 + im) * 2 ^ 384 + re := by
            rw [weight_flags, hvalue, Nat.add_mul, Nat.mul_assoc, Nat.add_assoc]

/-- **The encoding of a point denotes it.** -/
theorem denotes_encode (point : Point) : Denotes (encode point) point := by
  cases point with
  | infinity =>
      have hzero : natOfBytes (List.replicate 96 0) = 0 * 2 ^ 384 + 0 := by decide +kernel
      exact isLaidOut_addFlags (List.length_replicate ..) (by positivity) (by positivity) hzero
        ⟨true, true, false⟩
  | affine x y =>
      have hbound : fieldOrder ≤ 2 ^ 381 := by decide +kernel
      have hbound' : fieldOrder ≤ 2 ^ 384 := by decide +kernel
      have him := x.im.isLt
      have hre := x.re.isLt
      have hflags : (if y.after (-y) then compressedFlag + greaterFlag else compressedFlag) =
          32 * (Flags.mk true false (y.after (-y))).value := by
        cases y.after (-y) with
        | false => rfl
        | true => rfl
      have hvalue : natOfBytes (bytesOfNat 48 x.im.val ++ bytesOfNat 48 x.re.val) =
          x.im.val * 2 ^ 384 + x.re.val := by
        rw [natOfBytes_append, length_bytesOfNat, weight_number,
          natOfBytes_bytesOfNat_of_lt (by rw [weight_number]; omega),
          natOfBytes_bytesOfNat_of_lt (by rw [weight_number]; omega)]
      rw [Denotes, encode, hflags]
      exact isLaidOut_addFlags (by simp) (by omega) (by omega) hvalue _

/-- **What denotes a point is its encoding.** -/
theorem denotes_iff {point : Point} : Denotes bytes point ↔ encode point = bytes := by
  constructor
  · intro h
    have hencode := denotes_encode point
    cases point with
    | infinity => exact hencode.bytes_unique h
    | affine x y => exact hencode.bytes_unique h
  · rintro rfl
    exact denotes_encode point

end BlindSign.Curve.Bls12381

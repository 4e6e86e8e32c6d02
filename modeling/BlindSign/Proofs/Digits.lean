import Mathlib.Algebra.Group.Defs
import Mathlib.Data.Nat.Bitwise
import Mathlib.Data.Nat.Digits.Lemmas
import BlindSign.Encoding.Digits

set_option autoImplicit false

/-! # Numbers and the digits that spell them

Bytes are the digits of a number to the base 256. So as many bytes spell one number each below a
power of the base (`natOfBytes_lt`), different ones spell different numbers (`natOfBytes_inj`), and
what is written for a number below that power spells it (`natOfBytes_bytesOfNat`).

The binary digits of an exponent are taken from the most significant one on; each doubles the
exponent that was reached and adds the digit. So whatever is combined in this way represents the
power, in any monoid in which the operation represents the product (`map_times`).
-/

namespace BlindSign.Encoding

variable {bytes bytes' : List UInt8} {n count : Nat}

/-- Bytes spell the number of which they are the digits. -/
theorem natOfBytes_eq_ofDigits (bytes : List UInt8) :
    natOfBytes bytes = Nat.ofDigits 256 (bytes.reverse.map UInt8.toNat) := by
  rw [Nat.ofDigits_eq_foldr, List.foldr_map, List.foldr_reverse, natOfBytes]
  congr 1
  funext n b
  rw [Nat.add_comm, Nat.mul_comm, Nat.cast_id]

/-- A byte is a digit to the base 256. -/
theorem toNat_lt_of_mem (bytes : List UInt8) : ∀ d ∈ bytes.map UInt8.toNat, d < 256 := by
  intro d hd
  obtain ⟨b, -, rfl⟩ := List.mem_map.1 hd
  exact b.toNat_lt

theorem natOfBytes_lt (bytes : List UInt8) : natOfBytes bytes < 256 ^ bytes.length := by
  have hlt := Nat.ofDigits_lt_base_pow_length (by decide) (toNat_lt_of_mem bytes.reverse)
  rw [natOfBytes_eq_ofDigits]
  simpa using hlt

/-- Bytes in front weigh as much as there are numbers for the bytes behind. -/
theorem natOfBytes_append (front back : List UInt8) :
    natOfBytes (front ++ back) = natOfBytes front * 256 ^ back.length + natOfBytes back := by
  simp only [natOfBytes_eq_ofDigits, List.reverse_append, List.map_append, Nat.ofDigits_append,
    List.length_map, List.length_reverse]
  rw [Nat.add_comm, Nat.mul_comm]

theorem natOfBytes_cons (b : UInt8) (rest : List UInt8) :
    natOfBytes (b :: rest) = b.toNat * 256 ^ rest.length + natOfBytes rest := by
  rw [← List.singleton_append, natOfBytes_append]
  simp [natOfBytes]

/-- Zeros spell zero, and nothing else does. -/
theorem natOfBytes_eq_zero_iff : natOfBytes bytes = 0 ↔ ∀ b ∈ bytes, b = 0 := by
  induction bytes with
  | nil => simp [natOfBytes]
  | cons b rest ih =>
      have hbyte : b.toNat * 256 ^ rest.length = 0 ↔ b = 0 := by
        rw [Nat.mul_eq_zero, or_iff_left (by positivity)]
        exact UInt8.toNat_inj (b := 0)
      rw [natOfBytes_cons, Nat.add_eq_zero_iff, hbyte, ih, List.forall_mem_cons]

/-- **As many bytes that spell the same number are the same bytes.** -/
theorem natOfBytes_inj (hlength : bytes.length = bytes'.length)
    (h : natOfBytes bytes = natOfBytes bytes') : bytes = bytes' := by
  rw [natOfBytes_eq_ofDigits, natOfBytes_eq_ofDigits] at h
  have hdigits := Nat.ofDigits_inj_of_len_eq (by decide) (by simpa using hlength)
    (toNat_lt_of_mem bytes.reverse) (toNat_lt_of_mem bytes'.reverse) h
  have hmap : Function.Injective UInt8.toNat := fun _ _ => UInt8.toNat_inj.1
  exact List.reverse_injective (List.map_injective_iff.2 hmap hdigits)

theorem ofDigits_bytesOfNatReversed (count n : Nat) :
    Nat.ofDigits 256 ((bytesOfNatReversed count n).map UInt8.toNat) = n % 256 ^ count := by
  induction count generalizing n with
  | zero => rw [Nat.pow_zero, Nat.mod_one]; rfl
  | succ count ih =>
      have hbyte : (n % 256).toUInt8.toNat = n % 256 :=
        UInt8.toNat_ofNat_of_lt' (Nat.mod_lt n (by decide))
      rw [bytesOfNatReversed, List.map_cons, Nat.ofDigits_cons, ih, hbyte, Nat.pow_succ',
        Nat.mod_mul]

/-- **What is written for a number spells it**, but for what needs more bytes. -/
theorem natOfBytes_bytesOfNat (count n : Nat) :
    natOfBytes (bytesOfNat count n) = n % 256 ^ count := by
  rw [natOfBytes_eq_ofDigits, bytesOfNat, List.reverse_reverse, ofDigits_bytesOfNatReversed]

theorem natOfBytes_bytesOfNat_of_lt (h : n < 256 ^ count) :
    natOfBytes (bytesOfNat count n) = n := by
  rw [natOfBytes_bytesOfNat, Nat.mod_eq_of_lt h]

end BlindSign.Encoding

namespace BlindSign.Curve

/-! ## Powers by doubling -/

variable {α M : Type} [Monoid M] {f : α → M} {combine : α → α → α} {unit : α}

/-- The digit at a place, after those above it. -/
theorem shiftRight_eq_two_mul (n k : Nat) :
    n >>> k = 2 * (n >>> (k + 1)) + (n.testBit k).toNat := by
  rw [Nat.toNat_testBit, ← Nat.shiftRight_eq_div_pow, Nat.shiftRight_succ]
  omega

/-- One digit is taken: the exponent doubles, and grows by the digit. -/
theorem map_double (hcombine : ∀ x y, f (combine x y) = f x * f y) (x acc : α) (digit : Bool) :
    f (if digit then combine (combine acc acc) x else combine acc acc) =
      f acc * f acc * f x ^ digit.toNat := by
  cases digit with
  | false => simp [hcombine]
  | true => simp [hcombine]

/-- The digits below place `k` are taken, when those above it are done. -/
theorem map_foldl_digits (hcombine : ∀ x y, f (combine x y) = f x * f y) (n : Nat) (x : α) :
    ∀ (k : Nat) (acc : α), f acc = f x ^ (n >>> k) →
      f (((List.range k).reverse.map n.testBit).foldl (fun acc digit =>
        let twice := combine acc acc; if digit then combine twice x else twice) acc) =
      f x ^ n := by
  intro k
  induction k with
  | zero =>
      intro acc hacc
      simpa using hacc
  | succ k ih =>
      intro acc hacc
      rw [List.range_succ, List.reverse_append, List.reverse_singleton, List.singleton_append,
        List.map_cons, List.foldl_cons]
      apply ih
      calc f (if n.testBit k then combine (combine acc acc) x else combine acc acc)
          = f acc * f acc * f x ^ (n.testBit k).toNat := map_double hcombine x acc _
        _ = f x ^ (2 * (n >>> (k + 1)) + (n.testBit k).toNat) := by
            rw [hacc, ← pow_add, ← Nat.two_mul, ← pow_add]
        _ = f x ^ (n >>> k) := by rw [← shiftRight_eq_two_mul]

/-- **What is combined `n` times represents the `n`th power.** -/
theorem map_times (hunit : f unit = 1) (hcombine : ∀ x y, f (combine x y) = f x * f y) (n : Nat)
    (x : α) : f (times combine unit n x) = f x ^ n := by
  refine map_foldl_digits hcombine n x (n.log2 + 1) unit ?_
  rw [Nat.shiftRight_eq_zero n _ Nat.lt_log2_self, pow_zero, hunit]

end BlindSign.Curve

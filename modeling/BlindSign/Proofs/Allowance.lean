import Mathlib.Algebra.Order.Ring.Int
import BlindSign.Quota

set_option autoImplicit false

/-! # The allowance of a policy

An allowance is worked out in three steps, each of which stops at the ends of 64 bits: the number of
transactions, its product with what one transaction earns, and the sum with the base. As long as
nothing is negative, all of them can only stop at the upper end, and then it does not matter at
which of them (`min_add_min_mul_min`).

**The allowance of a policy without negative settings is the exact one, up to the greatest integer
of 64 bits; it is never negative, and grows with transactions and balance. No policy makes a step
wrap around** (`AllowancePolicy.total_isExact`).
-/

namespace BlindSign

/-! ## Saturation -/

/-- A 64-bit integer stands for an integer that may lie beyond 64 bits: it is that integer if it
fits, and else the end of the range that the integer has passed. -/
structure IsSaturated (n : Int) (v : Int64) : Prop where
  exact : -2 ^ 63 ≤ n → n < 2 ^ 63 → v.toInt = n
  below : n < -2 ^ 63 → v = Int64.minValue
  above : 2 ^ 63 ≤ n → v = Int64.maxValue

theorem toInt_saturate (n : Int) : (saturate n).toInt = max (-2 ^ 63) (min (2 ^ 63 - 1) n) := by
  have hmin : Int64.minValue.toInt = -2 ^ 63 := by decide
  have hmax : Int64.maxValue.toInt = 2 ^ 63 - 1 := by decide
  rw [saturate, hmin, hmax]
  exact Int64.toInt_ofInt_of_le (by omega) (by omega)

theorem isSaturated_saturate (n : Int) : IsSaturated n (saturate n) where
  exact hlow hhigh := by
    rw [toInt_saturate]
    omega
  below h := by
    refine Int64.toInt_inj.1 ?_
    rw [toInt_saturate, show Int64.minValue.toInt = -2 ^ 63 by decide]
    omega
  above h := by
    refine Int64.toInt_inj.1 ?_
    rw [toInt_saturate, show Int64.maxValue.toInt = 2 ^ 63 - 1 by decide]
    omega

/-- What is not negative stops at the upper end only. -/
theorem toInt_saturate_of_nonneg {n : Int} (h : 0 ≤ n) :
    (saturate n).toInt = min (2 ^ 63 - 1) n := by
  rw [toInt_saturate]
  omega

/-- **A product and a sum of what is not negative may be cut off at every step or only at the end.**
A factor is cut off in vain if the other one is zero, and otherwise the product is cut off with
it. -/
theorem min_add_min_mul_min {limit base n factor : Int} (hlimit : 0 ≤ limit) (hbase : 0 ≤ base)
    (hn : 0 ≤ n) (hfactor : 0 ≤ factor) :
    min limit (base + min limit (min limit n * factor)) = min limit (base + n * factor) := by
  by_cases hcut : n ≤ limit
  · have hproduct : 0 ≤ n * factor := Int.mul_nonneg hn hfactor
    rw [min_eq_right hcut]
    omega
  · rw [min_eq_left (Int.le_of_lt (Int.not_le.1 hcut))]
    -- rfl | past the limit the product is past it too, unless nothing is earned
    rcases Int.lt_or_eq_of_le hfactor with hpos | rfl
    · have hlarge : limit ≤ limit * factor := le_mul_of_one_le_right hlimit hpos
      have hlarger : limit * factor ≤ n * factor :=
        Int.mul_le_mul_of_nonneg_right (Int.le_of_lt (Int.not_le.1 hcut)) hfactor
      omega
    · rw [Int.mul_zero, Int.mul_zero]
      omega

namespace AllowancePolicy

variable {p : AllowancePolicy} {t t' : UInt64} {b b' : Nat}

/-! ## Single steps -/

theorem total_of_lt (h : b < p.minBalance) : p.total t b = 0 := if_pos h

theorem total_of_le (h : p.minBalance ≤ b) : p.total t b =
    saturate (p.base.toInt +
      (saturate ((saturate t.toNat).toInt * p.perTransaction.toInt)).toInt) :=
  if_neg (Nat.not_lt.2 h)

/-- **The allowance is exact up to the end of the range.** -/
theorem toInt_total (hbase : 0 ≤ p.base) (hper : 0 ≤ p.perTransaction) :
    (p.total t b).toInt = if b < p.minBalance then 0
      else min (2 ^ 63 - 1) (p.base.toInt + t.toNat * p.perTransaction.toInt) := by
  by_cases h : b < p.minBalance
  · rw [total_of_lt h, if_pos h]
    rfl
  · have hbase' : 0 ≤ p.base.toInt := Int64.le_iff_toInt_le.1 hbase
    have hper' : 0 ≤ p.perTransaction.toInt := Int64.le_iff_toInt_le.1 hper
    have hcounted : (saturate t.toNat).toInt = min (2 ^ 63 - 1) (t.toNat : Int) :=
      toInt_saturate_of_nonneg (Int.natCast_nonneg _)
    have hearned : 0 ≤ min (2 ^ 63 - 1) (t.toNat : Int) * p.perTransaction.toInt :=
      Int.mul_nonneg (by omega) hper'
    rw [total_of_le (Nat.not_lt.1 h), if_neg h, hcounted, toInt_saturate_of_nonneg hearned,
      toInt_saturate_of_nonneg (by omega)]
    exact min_add_min_mul_min (by decide) hbase' (Int.natCast_nonneg _) hper'

theorem total_nonneg (hbase : 0 ≤ p.base) (hper : 0 ≤ p.perTransaction) : 0 ≤ p.total t b := by
  have hbase' : 0 ≤ p.base.toInt := Int64.le_iff_toInt_le.1 hbase
  have hproduct : 0 ≤ (t.toNat : Int) * p.perTransaction.toInt :=
    Int.mul_nonneg (Int.natCast_nonneg _) (Int64.le_iff_toInt_le.1 hper)
  rw [Int64.le_iff_toInt_le, toInt_total hbase hper]
  show (0 : Int) ≤ _
  split <;> omega

/-- More transactions and a greater balance never lower the allowance. -/
theorem total_le_total (hbase : 0 ≤ p.base) (hper : 0 ≤ p.perTransaction) (ht : t ≤ t')
    (hb : b ≤ b') : p.total t b ≤ p.total t' b' := by
  by_cases h : b < p.minBalance
  · rw [total_of_lt h]
    exact total_nonneg hbase hper
  · have hmore : (t.toNat : Int) * p.perTransaction.toInt ≤ t'.toNat * p.perTransaction.toInt :=
      Int.mul_le_mul_of_nonneg_right (Int.ofNat_le.2 (UInt64.le_iff_toNat_le.1 ht))
        (Int64.le_iff_toInt_le.1 hper)
    rw [Int64.le_iff_toInt_le, toInt_total hbase hper, toInt_total hbase hper, if_neg h,
      if_neg (by omega)]
    omega

/-! ## The allowance -/

/-- **Allowances are exact and grow.** For every policy the number of transactions, what they earn
and the sum each stop at the ends of 64 bits, and no step wraps around. If neither setting is
negative, an account with too small a balance may make no query, and any other one as many as the
exact sum says, up to the greatest integer of 64 bits; so the allowance is never negative, and more
transactions or a greater balance never lower it. -/
theorem total_isExact (p : AllowancePolicy) :
    (∀ (t : UInt64) (b : Nat), p.minBalance ≤ b → ∃ counted earned : Int64,
      IsSaturated t.toNat counted ∧ IsSaturated (counted.toInt * p.perTransaction.toInt) earned ∧
        IsSaturated (p.base.toInt + earned.toInt) (p.total t b)) ∧
    (0 ≤ p.base → 0 ≤ p.perTransaction →
      (∀ (t : UInt64) (b : Nat), (p.total t b).toInt = if b < p.minBalance then 0
        else min (2 ^ 63 - 1) (p.base.toInt + t.toNat * p.perTransaction.toInt)) ∧
      (∀ (t : UInt64) (b : Nat), 0 ≤ p.total t b) ∧
      ∀ (t t' : UInt64) (b b' : Nat), t ≤ t' → b ≤ b' → p.total t b ≤ p.total t' b') := by
  refine ⟨fun t b h => ?_, fun hbase hper => ⟨fun _ _ => toInt_total hbase hper,
    fun _ _ => total_nonneg hbase hper, fun _ _ _ _ => total_le_total hbase hper⟩⟩
  rw [total_of_le h]
  exact ⟨_, _, isSaturated_saturate _, isSaturated_saturate _, isSaturated_saturate _⟩

/-- What the first transactions earn is cut off by the end of the range, and no further transaction
adds to it. -/
theorem total_isExact_of_generous :
    let p : AllowancePolicy := ⟨5, 1099511627776, 100⟩
    (0 ≤ p.base ∧ 0 ≤ p.perTransaction) ∧ (p.total 3 100).toInt = 5 + 3 * 1099511627776 ∧
      (p.total 8388608 100).toInt = 2 ^ 63 - 1 ∧ (p.total 8388608 99).toInt = 0 ∧
      p.total 3 100 ≤ p.total 18446744073709551615 101 := by
  intro p
  obtain ⟨-, hexact⟩ := total_isExact p
  have hsettings : 0 ≤ p.base ∧ 0 ≤ p.perTransaction := by decide
  obtain ⟨htotal, -, hgrows⟩ := hexact hsettings.1 hsettings.2
  refine ⟨hsettings, ?_, ?_, ?_, hgrows _ _ _ _ (by decide) (by decide)⟩
  · rw [htotal]
    decide
  · rw [htotal]
    decide
  · rw [htotal]
    decide

/-- With a negative setting it does matter where a number is cut off. -/
example : total ⟨Int64.maxValue, -1, 0⟩ 18446744073709551615 0 = 0 ∧
    saturate (Int64.maxValue.toInt - 18446744073709551615) = Int64.minValue := by
  decide

end AllowancePolicy

end BlindSign

import Mathlib.Algebra.CharP.Lemmas
import Mathlib.Algebra.QuadraticAlgebra.Basic
import Mathlib.NumberTheory.LegendreSymbol.Basic
import BlindSign.Proofs.Curve.FieldOrder

set_option autoImplicit false

/-! # The extension as a field

The elements of the extension are those of the field `Bls12381.Extension`, with the same sums,
negatives and products (`Fp2.toField`). The field has `p²` elements, where `p` is the order of the
prime field.

**A root is found of every square, and of nothing else** (`Fp2.exists_sqrt?`,
`Fp2.mul_self_of_sqrt?`). Since `p` has the form `4k + 3`, two powers of a square `a` lead to a root.
Let `t` be the power of `a` to `(p + 1) / 4`, so that `t² = u a` where `u` is the power to
`(p - 1) / 2`. If `u` is `-1` then `t` times a root of `-1` is a root of `a`. Otherwise the power of
`1 + u` to `(p - 1) / 2`, times `t`, is one: the `p`th power of `u` is its inverse, so the power of
`1 + u` to `p - 1` is the inverse of `u`.

**No abscissa has the ordinate zero** (`curveSide_ne_zero`): its norm would be a cube root of 32,
which is no cube. So the two ordinates of an abscissa differ.
-/

namespace BlindSign.Curve

/-! ## Square roots -/

section SquareRoots

variable {K : Type} [Field K] {p : Nat} {a i y : K}

/-- The factor by which the square of the power to `(p + 1) / 4` misses `a`. -/
theorem unit_eq_pow (hp : p % 4 = 3) (a : K) :
    a ^ ((p - 3) / 4) * (a ^ ((p - 3) / 4) * a) = a ^ ((p - 1) / 2) := by
  have hexponent : (p - 3) / 4 + ((p - 3) / 4 + 1) = (p - 1) / 2 := by omega
  rw [← pow_succ, ← pow_add, hexponent]

/-- The power of a square to `(p - 1) / 2` has its `p`th power for its inverse. -/
theorem pow_half_mul_pow [Fintype K] (hp : p % 4 = 3) (hcard : Fintype.card K = p ^ 2)
    (hy : y ≠ 0) : (y * y) ^ ((p - 1) / 2) * ((y * y) ^ ((p - 1) / 2)) ^ p = 1 := by
  have hhalf : 2 * ((p - 1) / 2) = p - 1 := by omega
  have hexponent : (p - 1) + (p - 1) * p = p ^ 2 - 1 := by
    obtain ⟨k, rfl⟩ : ∃ k, p = k + 1 := ⟨p - 1, by omega⟩
    rw [Nat.add_sub_cancel, pow_two]
    exact Nat.eq_sub_of_add_eq (by ring)
  calc (y * y) ^ ((p - 1) / 2) * ((y * y) ^ ((p - 1) / 2)) ^ p
      = y ^ (p - 1) * (y ^ (p - 1)) ^ p := by rw [← pow_two, ← pow_mul, hhalf]
    _ = y ^ (p ^ 2 - 1) := by rw [← pow_mul, ← pow_add, hexponent]
    _ = 1 := by rw [← hcard, FiniteField.pow_card_sub_one_eq_one y hy]

/-- **The root of a square with the factor `-1`.** -/
theorem root_of_eq_neg_one (hi : i * i = -1)
    (hunit : a ^ ((p - 3) / 4) * (a ^ ((p - 3) / 4) * a) = -1) :
    (i * (a ^ ((p - 3) / 4) * a)) * (i * (a ^ ((p - 3) / 4) * a)) = a := by
  calc (i * (a ^ ((p - 3) / 4) * a)) * (i * (a ^ ((p - 3) / 4) * a))
      = (i * i) * (a ^ ((p - 3) / 4) * (a ^ ((p - 3) / 4) * a)) * a := by ring
    _ = a := by rw [hi, hunit]; ring

/-- **The root of a square with any other factor.** -/
theorem root_of_ne_neg_one [Fintype K] [Fact p.Prime] [CharP K p] (hp : p % 4 = 3)
    (hcard : Fintype.card K = p ^ 2) (ha : IsSquare a) {u t : K}
    (hu : u = a ^ ((p - 3) / 4) * (a ^ ((p - 3) / 4) * a)) (ht : t = a ^ ((p - 3) / 4) * a)
    (hunit : u ≠ -1) :
    ((1 + u) ^ ((p - 1) / 2) * t) * ((1 + u) ^ ((p - 1) / 2) * t) = a := by
  obtain ⟨y, rfl⟩ := ha
  have hsquare : t * t = u * (y * y) := by
    rw [hu, ht]
    ring
  by_cases hy : y = 0
  · rw [ht, hy]
    ring
  · -- `u` has norm one, so `(1 + u) ^ p = 1 + u⁻¹`: the factor is a root of `u⁻¹`
    have hnorm : u * u ^ p = 1 := by
      rw [hu, unit_eq_pow hp]
      exact pow_half_mul_pow hp hcard hy
    have hsum : 1 + u ≠ 0 := fun hzero => hunit (eq_neg_of_add_eq_zero_right hzero)
    have hinverse : (1 + u) ^ (p - 1) * u = 1 := by
      have hpower : ((1 + u) ^ (p - 1) * u) * (1 + u) = 1 * (1 + u) := by
        calc ((1 + u) ^ (p - 1) * u) * (1 + u)
            = (1 + u) ^ (p - 1 + 1) * u := by ring
          _ = (1 + u) ^ p * u := by rw [Nat.sub_add_cancel (by omega)]
          _ = u + u * u ^ p := by rw [add_pow_char, one_pow]; ring
          _ = 1 * (1 + u) := by rw [hnorm]; ring
      exact mul_right_cancel₀ hsum hpower
    calc ((1 + u) ^ ((p - 1) / 2) * t) * ((1 + u) ^ ((p - 1) / 2) * t)
        = (1 + u) ^ ((p - 1) / 2 + (p - 1) / 2) * (t * t) := by ring
      _ = ((1 + u) ^ (p - 1) * u) * (y * y) := by
          rw [hsquare, show (p - 1) / 2 + (p - 1) / 2 = p - 1 by omega]
          ring
      _ = y * y := by rw [hinverse, one_mul]

end SquareRoots

namespace Bls12381

/-! ## The field -/

instance : Fact fieldOrder.Prime := ⟨prime_fieldOrder⟩

theorem fieldOrder_mod_four : fieldOrder % 4 = 3 := by decide +kernel

/-- The order is no small number. -/
theorem natCast_ne_zero {n : Nat} (hpos : 0 < n) (hlt : n < fieldOrder) :
    (n : ZMod fieldOrder) ≠ 0 := by
  intro hzero
  exact absurd (Nat.le_of_dvd hpos ((ZMod.natCast_eq_zero_iff n _).1 hzero)) (by omega)

/-- The elements `re + im * u`, where `u² = -1`, over the prime field. -/
abbrev Extension : Type := QuadraticAlgebra (ZMod fieldOrder) (-1) 0

/-- The square of `u` is no square in the prime field. -/
instance : Fact (∀ r : ZMod fieldOrder, r ^ 2 ≠ -1 + 0 * r) := by
  refine ⟨fun r hr => ?_⟩
  have hsquare : IsSquare (-1 : ZMod fieldOrder) := ⟨r, by linear_combination -hr⟩
  exact ZMod.exists_sq_eq_neg_one_iff.1 hsquare fieldOrder_mod_four

instance : CharP Extension fieldOrder :=
  charP_of_injective_algebraMap QuadraticAlgebra.algebraMap_injective fieldOrder

noncomputable instance : Fintype Extension :=
  Fintype.ofEquiv _ (QuadraticAlgebra.equivProd (-1 : ZMod fieldOrder) 0).symm

theorem card_extension : Fintype.card Extension = fieldOrder ^ 2 := by
  rw [Fintype.card_congr (QuadraticAlgebra.equivProd (-1 : ZMod fieldOrder) 0), Fintype.card_prod,
    ZMod.card, pow_two]

/-! ## Elements -/

/-- The class of an element of the prime field. -/
def residue (a : Fp) : ZMod fieldOrder := (a.val : ZMod fieldOrder)

theorem residue_injective : Function.Injective residue := by
  intro a b h
  have hmod : a.val % fieldOrder = b.val % fieldOrder := (ZMod.natCast_eq_natCast_iff' _ _ _).1 h
  rw [Nat.mod_eq_of_lt a.isLt, Nat.mod_eq_of_lt b.isLt] at hmod
  exact Fin.ext hmod

theorem residue_add (a b : Fp) : residue (a + b) = residue a + residue b := by
  rw [residue, Fin.val_add, ZMod.natCast_mod, Nat.cast_add]
  rfl

theorem residue_mul (a b : Fp) : residue (a * b) = residue a * residue b := by
  rw [residue, Fin.val_mul, ZMod.natCast_mod, Nat.cast_mul]
  rfl

theorem residue_sub (a b : Fp) : residue (a - b) = residue a - residue b := by
  rw [residue, Fin.sub_def]
  simp only [ZMod.natCast_mod]
  rw [Nat.cast_add, Nat.cast_sub b.isLt.le, ZMod.natCast_self, residue, residue]
  ring

theorem residue_neg (a : Fp) : residue (-a) = -residue a := by
  rw [residue, Fin.neg_def]
  simp only [ZMod.natCast_mod]
  rw [Nat.cast_sub a.isLt.le, ZMod.natCast_self, residue]
  ring

namespace Fp2

variable {a b x y : Fp2}

def toField (a : Fp2) : Extension := ⟨residue a.re, residue a.im⟩

theorem toField_injective : Function.Injective toField := by
  intro a b h
  have hre : a.re = b.re := residue_injective (congrArg QuadraticAlgebra.re h)
  have him : a.im = b.im := residue_injective (congrArg QuadraticAlgebra.im h)
  cases a
  cases b
  cases hre
  cases him
  rfl

theorem toField_zero : toField 0 = 0 := by
  refine QuadraticAlgebra.ext ?_ ?_
  · exact Nat.cast_zero
  · exact Nat.cast_zero

theorem toField_one : toField 1 = 1 := by
  refine QuadraticAlgebra.ext ?_ ?_
  · exact Nat.cast_one
  · exact Nat.cast_zero

theorem toField_add (a b : Fp2) : toField (a + b) = toField a + toField b := by
  refine QuadraticAlgebra.ext ?_ ?_
  · exact residue_add a.re b.re
  · exact residue_add a.im b.im

theorem toField_neg (a : Fp2) : toField (-a) = -toField a := by
  refine QuadraticAlgebra.ext ?_ ?_
  · exact residue_neg a.re
  · exact residue_neg a.im

theorem toField_mul (a b : Fp2) : toField (a * b) = toField a * toField b := by
  refine QuadraticAlgebra.ext ?_ ?_
  · calc residue (a.re * b.re - a.im * b.im)
        = residue a.re * residue b.re - residue a.im * residue b.im := by
          rw [residue_sub, residue_mul, residue_mul]
      _ = (toField a * toField b).re := by
          rw [QuadraticAlgebra.re_mul, toField, toField]
          ring
  · calc residue (a.re * b.im + a.im * b.re)
        = residue a.re * residue b.im + residue a.im * residue b.re := by
          rw [residue_add, residue_mul, residue_mul]
      _ = (toField a * toField b).im := by
          rw [QuadraticAlgebra.im_mul, toField, toField]
          ring

theorem toField_power (a : Fp2) (n : Nat) : toField (a.power n) = toField a ^ n :=
  map_times toField_one toField_mul n a

/-! ### Negatives -/

theorem neg_mul_neg (a b : Fp2) : -a * -b = a * b := by
  apply toField_injective
  rw [toField_mul, toField_neg, toField_neg, toField_mul]
  ring

theorem neg_neg (a : Fp2) : - -a = a := by
  apply toField_injective
  rw [toField_neg, toField_neg]
  ring

/-- Elements with the same square differ in their sign, if at all. -/
theorem eq_or_eq_neg_of_mul_self (h : a * a = b * b) : a = b ∨ a = -b := by
  have hfield : toField a * toField a = toField b * toField b := by
    rw [← toField_mul, h, toField_mul]
  rcases mul_self_eq_mul_self_iff.1 hfield with heq | heq
  · exact .inl (toField_injective heq)
  · exact .inr (toField_injective (by rw [heq, toField_neg]))

/-- Only zero is its own negative. -/
theorem eq_zero_of_eq_neg (h : a = -a) : a = 0 := by
  have htwo : (2 : Extension) ≠ 0 := by
    intro hzero
    have hdvd : fieldOrder ∣ 2 := (CharP.cast_eq_zero_iff Extension fieldOrder 2).1 hzero
    exact absurd (Nat.le_of_dvd (by decide) hdvd) (by decide)
  have hsum : 2 * toField a = 0 := by
    have hfield : toField a = -toField a := by rw [← toField_neg, ← h]
    linear_combination hfield
  apply toField_injective
  rw [toField_zero]
  exact (mul_eq_zero.1 hsum).resolve_left htwo

/-! ### Roots -/

/-- What is tried as a root. -/
def candidate (a : Fp2) : Fp2 :=
  let s := a.power ((fieldOrder - 3) / 4)
  let t := s * a
  let unit := s * t
  if unit = -1 then ⟨-t.im, t.re⟩ else (1 + unit).power ((fieldOrder - 1) / 2) * t

theorem sqrt?_eq (a : Fp2) :
    a.sqrt? = if a.candidate * a.candidate = a then some a.candidate else none := rfl

/-- A root of `-1`. -/
theorem omega_mul_self : (QuadraticAlgebra.omega : Extension) * QuadraticAlgebra.omega = -1 := by
  rw [QuadraticAlgebra.omega_mul_omega_eq_mk]
  refine QuadraticAlgebra.ext rfl ?_
  exact neg_zero.symm

/-- The product with `u`. -/
theorem toField_turn (t : Fp2) :
    toField ⟨-t.im, t.re⟩ = QuadraticAlgebra.omega * toField t := by
  rw [toField, toField, QuadraticAlgebra.omega_mul_mk, residue_neg]
  refine QuadraticAlgebra.ext ?_ ?_
  · exact (neg_one_mul _).symm
  · ring

/-- **What is tried for a square is a root.** -/
theorem candidate_mul_self (h : IsSquare (toField a)) : a.candidate * a.candidate = a := by
  have hs : toField (a.power ((fieldOrder - 3) / 4)) = toField a ^ ((fieldOrder - 3) / 4) :=
    toField_power a _
  have ht : toField (a.power ((fieldOrder - 3) / 4) * a) =
      toField a ^ ((fieldOrder - 3) / 4) * toField a := by rw [toField_mul, hs]
  have hu : toField (a.power ((fieldOrder - 3) / 4) * (a.power ((fieldOrder - 3) / 4) * a)) =
      toField a ^ ((fieldOrder - 3) / 4) * (toField a ^ ((fieldOrder - 3) / 4) * toField a) := by
    rw [toField_mul, hs, ht]
  have hminus : toField (-1) = -1 := by rw [toField_neg, toField_one]
  apply toField_injective
  rw [toField_mul, candidate]
  by_cases hunit : a.power ((fieldOrder - 3) / 4) * (a.power ((fieldOrder - 3) / 4) * a) = -1
  · rw [if_pos hunit, toField_turn, ht]
    rw [hunit, hminus] at hu
    exact root_of_eq_neg_one omega_mul_self hu.symm
  · rw [if_neg hunit, toField_mul, toField_power, toField_add, toField_one]
    refine root_of_ne_neg_one fieldOrder_mod_four card_extension h hu ht fun heq => hunit ?_
    exact toField_injective (by rw [heq, hminus])

/-- What is found is a root. -/
theorem mul_self_of_sqrt? (h : a.sqrt? = some y) : y * y = a := by
  rw [sqrt?_eq] at h
  by_cases hroot : a.candidate * a.candidate = a
  · rw [if_pos hroot] at h
    rw [← Option.some.inj h, hroot]
  · rw [if_neg hroot] at h
    cases h

/-- **A root is found of every square.** -/
theorem exists_sqrt? (h : y * y = a) : ∃ root, a.sqrt? = some root ∧ (root = y ∨ root = -y) := by
  have hsquare : IsSquare (toField a) := ⟨toField y, by rw [← toField_mul, h]⟩
  have hroot := candidate_mul_self hsquare
  refine ⟨a.candidate, ?_, eq_or_eq_neg_of_mul_self (hroot.trans h.symm)⟩
  rw [sqrt?_eq, if_pos hroot]

/-! ### Order -/

/-- **Of two elements that differ, one comes after the other.** -/
theorem after_swap (h : a ≠ b) : a.after b = !b.after a := by
  have hdiffer : ¬ (a.im.val = b.im.val ∧ a.re.val = b.re.val) := by
    rintro ⟨him, hre⟩
    apply h
    cases a
    cases b
    cases Fin.ext him
    cases Fin.ext hre
    rfl
  have hiff : a.after b = true ↔ ¬ b.after a = true := by
    simp only [after, Bool.or_eq_true, Bool.and_eq_true, decide_eq_true_eq, Fin.ext_iff]
    omega
  cases hb : b.after a with
  | false => exact hiff.2 (by simp [hb])
  | true => simpa [hb] using hiff

end Fp2

/-! ## The curve -/

open Fp2

/-- 32 is no cube. -/
theorem cube_ne (n : ZMod fieldOrder) : n ^ 3 ≠ 32 := by
  intro hcube
  have hn : n ≠ 0 := by
    rintro rfl
    have hzero : ((32 : Nat) : ZMod fieldOrder) = 0 := by
      rw [Nat.cast_ofNat, ← hcube]
      ring
    exact natCast_ne_zero (by decide) (by decide) hzero
  have hexponent : 3 * ((fieldOrder - 1) / 3) = fieldOrder - 1 := by decide +kernel
  have hone : ((32 : Nat) : ZMod fieldOrder) ^ ((fieldOrder - 1) / 3) = 1 := by
    calc ((32 : Nat) : ZMod fieldOrder) ^ ((fieldOrder - 1) / 3)
        = n ^ (fieldOrder - 1) := by rw [Nat.cast_ofNat, ← hcube, ← pow_mul, hexponent]
      _ = 1 := ZMod.pow_card_sub_one_eq_one hn
  rw [← cast_powerMod (dvd_refl fieldOrder)] at hone
  have hmod := (ZMod.natCast_eq_natCast_iff' _ 1 fieldOrder).1 (hone.trans Nat.cast_one.symm)
  exact absurd hmod (by decide +kernel)

/-- **No abscissa has the ordinate zero.** -/
theorem curveSide_ne_zero (x : Fp2) : curveSide x ≠ 0 := by
  intro hzero
  have hfour : toField ⟨4, 4⟩ = (⟨4, 4⟩ : Extension) := by
    have hresidue : residue 4 = 4 := by
      have hval : (4 : Fp).val = 4 := by decide
      rw [residue, hval, Nat.cast_ofNat]
    rw [toField, hresidue]
  have hcube : toField x ^ 3 = -⟨4, 4⟩ := by
    have hside := congrArg toField hzero
    rw [curveSide, toField_add, toField_mul, toField_mul, hfour, toField_zero] at hside
    calc toField x ^ 3 = toField x * toField x * toField x := by ring
      _ = -⟨4, 4⟩ := eq_neg_of_add_eq_zero_left hside
  have hnorm := congrArg QuadraticAlgebra.norm hcube
  rw [map_pow, QuadraticAlgebra.norm_neg, QuadraticAlgebra.norm_def ⟨4, 4⟩] at hnorm
  refine cube_ne _ (hnorm.trans ?_)
  ring

/-- **The two ordinates of an abscissa differ.** -/
theorem ne_neg_of_mul_self {x y : Fp2} (h : y * y = curveSide x) : y ≠ -y := by
  intro heq
  have hzero : toField y = 0 := by rw [eq_zero_of_eq_neg heq, toField_zero]
  apply curveSide_ne_zero x
  apply toField_injective
  rw [← h, toField_mul, hzero, toField_zero, mul_zero]

end Bls12381

end BlindSign.Curve

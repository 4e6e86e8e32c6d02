import Mathlib.FieldTheory.Finite.Basic
import Mathlib.GroupTheory.OrderOfElement
import Mathlib.Tactic.NormNum.Prime
import BlindSign.Curve.Bls12381
import BlindSign.Proofs.Digits

set_option autoImplicit false

/-! # The order of the field is prime

Pocklington's criterion: if a power of a number is one modulo `n` and some other powers are far from
one, each prime divisor of `n` is large (`factor_lt_of_prime_dvd`). With a divisor of `n - 1` above
the square root of `n` this leaves no room for two of them (`prime_of_factor`).

The criterion takes the primality of the order back to that of a divisor of its predecessor, and so
on down to six digits.
-/

namespace BlindSign.Curve

variable {m n r a : Nat}

def powerMod (m a n : Nat) : Nat := times (fun x y => x * y % m) 1 n a

/-- It is the power also modulo each divisor of `m`. -/
theorem cast_powerMod (h : r ∣ m) (a n : Nat) : (powerMod m a n : ZMod r) = (a : ZMod r) ^ n := by
  refine map_times Nat.cast_one (fun x y => ?_) n a
  rw [← Nat.cast_mul, ZMod.natCast_eq_natCast_iff', Nat.mod_mod_of_dvd _ h]

/-- What is prime to `n` is not zero modulo a prime divisor of `n`. -/
theorem powerMod_ne_one (hr : r.Prime) (hn : r ∣ n) (hpos : 0 < n)
    (h : Nat.Coprime (powerMod n a m + (n - 1)) n) : (a : ZMod r) ^ m ≠ 1 := by
  intro hone
  have hzero : ((powerMod n a m + (n - 1) : Nat) : ZMod r) = 0 := by
    have hcast : ((n : Nat) : ZMod r) = 0 := (ZMod.natCast_eq_zero_iff n r).2 hn
    rw [Nat.cast_add, cast_powerMod hn, hone, Nat.cast_sub hpos, hcast, Nat.cast_one]
    ring
  have hdvd : r ∣ powerMod n a m + (n - 1) := (ZMod.natCast_eq_zero_iff _ r).1 hzero
  exact hr.one_lt.ne' (Nat.dvd_one.1 (h ▸ Nat.dvd_gcd hdvd hn))

/-- **A prime divisor of `n` is above a divisor of `n - 1`**, if the powers to the quotients by the
primes of this divisor are far from one. -/
theorem factor_lt_of_prime_dvd {factor : Nat} (hpos : 1 < n) (hdvd : factor ∣ n - 1)
    (hone : powerMod n a (n - 1) = 1)
    (hfar : ∀ q, q.Prime → q ∣ factor → Nat.Coprime (powerMod n a ((n - 1) / q) + (n - 1)) n)
    (hr : r.Prime) (hn : r ∣ n) : factor < r := by
  have := Fact.mk hr
  obtain ⟨rest, hrest⟩ := hdvd
  have hfactor : 0 < factor := Nat.pos_of_ne_zero fun hzero => by
    rw [hzero, Nat.zero_mul] at hrest
    omega
  have hpower : ((a : ZMod r) ^ rest) ^ factor = 1 := by
    rw [← pow_mul, Nat.mul_comm, ← hrest, ← cast_powerMod hn, hone, Nat.cast_one]
  -- modulo `r` the power has the order `factor`, which divides `r - 1`
  have horder : orderOf ((a : ZMod r) ^ rest) = factor := by
    refine orderOf_eq_of_pow_and_pow_div_prime hfactor hpower fun q hq hqf => ?_
    have hexponent : rest * (factor / q) = (n - 1) / q := by
      rw [hrest, Nat.mul_comm factor, Nat.mul_div_assoc _ hqf]
    rw [← pow_mul, hexponent]
    exact powerMod_ne_one hr hn (by omega) (hfar q hq hqf)
  have hunit : (a : ZMod r) ^ rest ≠ 0 := by
    intro hzero
    rw [hzero, zero_pow hfactor.ne'] at hpower
    exact zero_ne_one hpower
  have hle : factor ≤ r - 1 := by
    refine Nat.le_of_dvd (Nat.sub_pos_of_lt hr.one_lt) ?_
    rw [← horder]
    exact orderOf_dvd_of_pow_eq_one (ZMod.pow_card_sub_one_eq_one hunit)
  have hgt := hr.one_lt
  omega

/-- **Pocklington's criterion.** -/
theorem prime_of_factor (factor a : Nat) (hpos : 1 < n) (hdvd : factor ∣ n - 1)
    (hlarge : n < factor * factor) (hone : powerMod n a (n - 1) = 1)
    (hfar : ∀ q, q.Prime → q ∣ factor → Nat.Coprime (powerMod n a ((n - 1) / q) + (n - 1)) n) :
    n.Prime := by
  by_contra hcomposite
  have hr : n.minFac.Prime := Nat.minFac_prime hpos.ne'
  have hlt : factor < n.minFac :=
    factor_lt_of_prime_dvd hpos hdvd hone hfar hr (Nat.minFac_dvd n)
  have hsquare : n.minFac ^ 2 ≤ n := Nat.minFac_sq_le_self (by omega) hcomposite
  have hmul : factor * factor ≤ n.minFac * n.minFac := Nat.mul_le_mul hlt.le hlt.le
  rw [pow_two] at hsquare
  omega

/-- The criterion with a prime. -/
theorem prime_of_prime_factor (q a : Nat) (hq : q.Prime) (hpos : 1 < n) (hdvd : q ∣ n - 1)
    (hlarge : n < q * q) (hone : powerMod n a (n - 1) = 1)
    (hfar : Nat.Coprime (powerMod n a ((n - 1) / q) + (n - 1)) n) : n.Prime := by
  refine prime_of_factor q a hpos hdvd hlarge hone fun q' hq' hdvd' => ?_
  rw [(Nat.prime_dvd_prime_iff_eq hq' hq).1 hdvd']
  exact hfar

namespace Bls12381

/-- **The order of the field is prime.** -/
theorem prime_fieldOrder : fieldOrder.Prime := by
  have h34 : Nat.Prime 13090036741 :=
    prime_of_prime_factor 421987 10 (by norm_num) (by decide) (by decide +kernel)
      (by decide +kernel) (by decide +kernel) (by decide +kernel)
  have h72 : Nat.Prime 3819663927398918131021 := by
    refine prime_of_factor (755057 * 13090036741) 6 (by decide) (by decide +kernel)
      (by decide +kernel) (by decide +kernel) fun q hq hdvd => ?_
    rcases (hq.dvd_mul).1 hdvd with hdvd | hdvd
    · rw [(Nat.prime_dvd_prime_iff_eq hq (by norm_num)).1 hdvd]
      decide +kernel
    · rw [(Nat.prime_dvd_prime_iff_eq hq h34).1 hdvd]
      decide +kernel
  have h120 : Nat.Prime 1125266252156850182658904441386709967 :=
    prime_of_prime_factor _ 5 h72 (by decide) (by decide +kernel) (by decide +kernel)
      (by decide +kernel) (by decide +kernel)
  have h233 : Nat.Prime 15778400344354997994418419698270088123916926905054652752758194827714659 :=
    prime_of_prime_factor _ 2 h120 (by decide) (by decide +kernel) (by decide +kernel)
      (by decide +kernel) (by decide +kernel)
  exact prime_of_prime_factor _ 2 h233 (by decide) (by decide +kernel) (by decide +kernel)
    (by decide +kernel) (by decide +kernel)

end Bls12381

end BlindSign.Curve

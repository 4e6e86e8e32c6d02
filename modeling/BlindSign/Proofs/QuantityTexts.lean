import BlindSign.Proofs.Integers
import BlindSign.Proofs.Quantities

set_option autoImplicit false

/-! # Which texts are read as quantities

A quantity is the mark `0x`, in this case, and after it one or more hexadecimal digits in either
case, which spell a number of at most 128 bits (`Rpc.IsQuantity`).

**A text is read just if it is a quantity, or would be one without a plus sign after its mark; all
others are malformed** (`Rpc.parseQuantity_eq_ok_iff`). The plus sign comes from the reader of the
digits, to which it is part of a numeral; no quantity has one, and a text with one is read
nevertheless (`Rpc.parseQuantity_of_plus`).
-/

namespace BlindSign

namespace Numeral

variable {radix bits : Nat} {cs : List Char} {z : Int}

/-- A numeral where no integer is negative: digits, with a plus sign before them or none. -/
theorem isNumeral_unsigned_iff : IsNumeral radix (.unsigned bits) cs z ↔
    ∃ n : Nat, z = n ∧ n < 2 ^ bits ∧
      (Spells radix cs n ∨ ∃ digits, cs = '+' :: digits ∧ Spells radix digits n) := by
  have hfits : ∀ n : Nat, (Bounds.unsigned bits).contains n = true ↔ n < 2 ^ bits := by
    intro n
    rw [contains_unsigned_iff]
    constructor
    · rintro ⟨m, hm, hlt⟩
      obtain rfl := Int.ofNat.inj hm
      exact hlt
    · exact fun hlt => ⟨n, rfl, hlt⟩
  constructor
  · rintro ⟨hspells, hin, hminus⟩
    cases hspells with
    | @plain _ n h => exact ⟨n, rfl, (hfits n).1 hin, .inl h⟩
    | @plus digits n h => exact ⟨n, rfl, (hfits n).1 hin, .inr ⟨digits, rfl, h⟩⟩
    | minus h => exact absurd (hminus rfl) (Int.lt_irrefl 0)
  · rintro ⟨n, rfl, hn, h | ⟨digits, rfl, h⟩⟩
    · refine ⟨.plain h, (hfits n).2 hn, fun hminus => ?_⟩
      -- a minus sign is no digit
      cases cs with
      | nil => cases hminus
      | cons c cs => exact absurd (Option.some.inj hminus) h.head_ne_sign.2
    · exact ⟨.plus h, (hfits n).2 hn, fun hminus => absurd (Option.some.inj hminus) (by decide)⟩

end Numeral

namespace Rpc

variable {s : String} {n : Nat}

/-- A text is a quantity: the mark `0x` and hexadecimal digits that spell a number of at most 128
bits. -/
def IsQuantity (s : String) (n : Nat) : Prop :=
  ∃ digits, s.toList = '0' :: 'x' :: digits ∧ Numeral.Spells 16 digits n ∧ n < 2 ^ 128

/-- A text is a quantity with a plus sign between mark and digits. -/
def IsSignedQuantity (s : String) (n : Nat) : Prop :=
  ∃ digits, s.toList = '0' :: 'x' :: '+' :: digits ∧ Numeral.Spells 16 digits n ∧ n < 2 ^ 128

/-- A text has the mark of quantities, or is malformed. -/
theorem parseQuantity_cases (s : String) :
    (∃ cs, s.toList = '0' :: 'x' :: cs ∧
      parseQuantity s = if cs.isEmpty then .error (.malformed "empty quantity") else
        match Numeral.read 16 (.unsigned 128) cs with
        | .ok n => .ok n.toNat
        | .error fault => .error (.malformed ("bad quantity " ++ s ++ ": " ++ fault.message))) ∨
    ((∀ cs, s.toList ≠ '0' :: 'x' :: cs) ∧
      parseQuantity s = .error (.malformed ("quantity without 0x prefix: " ++ s))) := by
  unfold parseQuantity
  split
  · next cs hs => exact .inl ⟨cs, hs, rfl⟩
  · next hs => exact .inr ⟨hs, rfl⟩

/-- **What is read after the mark is a numeral of at most 128 bits.** -/
theorem parseQuantity_of_mark {cs : List Char} (hs : s.toList = '0' :: 'x' :: cs) :
    parseQuantity s = .ok n ↔ Numeral.IsNumeral 16 (.unsigned 128) cs n := by
  rw [← Numeral.read_eq_ok_iff (Numeral.contains_unsigned_zero 128)]
  rcases parseQuantity_cases s with ⟨cs', hs', hparse⟩ | ⟨hno, -⟩
  · obtain rfl : cs' = cs := by
      rw [hs] at hs'
      exact ((List.cons.inj (List.cons.inj hs').2).2).symm
    rw [hparse]
    cases cs' with
    | nil => simp [Numeral.read]
    | cons c cs =>
        rw [if_neg (by simp)]
        cases hread : Numeral.read 16 (.unsigned 128) (c :: cs) with
        | error fault => simp
        | ok z =>
            -- what is read is not negative
            obtain ⟨hin, -⟩ := Numeral.contains_iff.1
              ((Numeral.read_eq_ok_iff (Numeral.contains_unsigned_zero 128)).1 hread).contains
            have hz : 0 ≤ z := hin
            simp only [Except.ok.injEq]
            omega
  · exact absurd hs (hno cs)

/-- **The texts that are read.** -/
theorem parseQuantity_eq_ok_iff :
    parseQuantity s = .ok n ↔ IsQuantity s n ∨ IsSignedQuantity s n := by
  constructor
  · intro h
    rcases parseQuantity_cases s with ⟨cs, hs, -⟩ | ⟨-, hfailed⟩
    · obtain ⟨m, hm, hlt, hspells⟩ :=
        Numeral.isNumeral_unsigned_iff.1 ((parseQuantity_of_mark hs).1 h)
      obtain rfl := Int.ofNat.inj hm
      rcases hspells with hspells | ⟨digits, rfl, hspells⟩
      · exact .inl ⟨cs, hs, hspells, hlt⟩
      · exact .inr ⟨digits, hs, hspells, hlt⟩
    · rw [hfailed] at h
      cases h
  · rintro (⟨digits, hs, hspells, hlt⟩ | ⟨digits, hs, hspells, hlt⟩)
    · exact (parseQuantity_of_mark hs).2
        (Numeral.isNumeral_unsigned_iff.2 ⟨n, rfl, hlt, .inl hspells⟩)
    · exact (parseQuantity_of_mark hs).2
        (Numeral.isNumeral_unsigned_iff.2 ⟨n, rfl, hlt, .inr ⟨digits, rfl, hspells⟩⟩)

/-- What is not read is malformed. -/
theorem parseQuantity_ok_or_malformed (s : String) :
    (∃ n, parseQuantity s = .ok n) ∨ ∃ reason, parseQuantity s = .error (.malformed reason) := by
  rcases parseQuantity_cases s with ⟨cs, -, hparse⟩ | ⟨-, hfailed⟩
  · rw [hparse]
    split
    · exact .inr ⟨_, rfl⟩
    · cases Numeral.read 16 (.unsigned 128) cs with
      | error fault => exact .inr ⟨_, rfl⟩
      | ok z => exact .inl ⟨_, rfl⟩
  · exact .inr ⟨_, hfailed⟩

/-- A quantity has no plus sign. -/
theorem not_isQuantity_of_isSignedQuantity (h : IsSignedQuantity s n) (m : Nat) :
    ¬ IsQuantity s m := by
  obtain ⟨digits, hs, -, -⟩ := h
  rintro ⟨digits', hs', hspells, -⟩
  rw [hs] at hs'
  obtain rfl := (List.cons.inj (List.cons.inj hs').2).2
  exact hspells.head_ne_sign.1 rfl

/-- A text is read strictly: it is read as a number only if it is a quantity that spells it, and is
malformed if it is no quantity. -/
def IsReadStrictly (s : String) : Prop :=
  (∀ n, parseQuantity s = .ok n → IsQuantity s n) ∧
    ((∀ n, ¬ IsQuantity s n) → ∃ reason, parseQuantity s = .error (.malformed reason))

/-- **A text is read strictly if and only if it is no quantity with a plus sign in it.** Just the
quantities are read, and those with a plus sign after the mark, each as the number that its digits
spell; whatever is not read is malformed. -/
theorem isReadStrictly_iff (s : String) :
    (IsReadStrictly s ↔ ∀ n, ¬ IsSignedQuantity s n) ∧
    (∀ n, parseQuantity s = .ok n ↔ IsQuantity s n ∨ IsSignedQuantity s n) ∧
    ((∀ n, ¬ IsQuantity s n) → (∀ n, ¬ IsSignedQuantity s n) →
      ∃ reason, parseQuantity s = .error (.malformed reason)) := by
  have hmalformed : (∀ n, ¬ IsQuantity s n) → (∀ n, ¬ IsSignedQuantity s n) →
      ∃ reason, parseQuantity s = .error (.malformed reason) := by
    intro hplain hsigned
    rcases parseQuantity_ok_or_malformed s with ⟨n, hn⟩ | h
    · rcases parseQuantity_eq_ok_iff.1 hn with h | h
      · exact absurd h (hplain n)
      · exact absurd h (hsigned n)
    · exact h
  refine ⟨⟨?_, ?_⟩, fun n => parseQuantity_eq_ok_iff, hmalformed⟩
  · rintro ⟨hstrict, -⟩ n hsigned
    exact not_isQuantity_of_isSignedQuantity hsigned n
      (hstrict n (parseQuantity_eq_ok_iff.2 (.inr hsigned)))
  · intro hsigned
    refine ⟨fun n hn => ?_, fun hplain => hmalformed hplain hsigned⟩
    rcases parseQuantity_eq_ok_iff.1 hn with h | h
    · exact h
    · exact absurd h (hsigned n)

/-- A mark without digits is malformed, and so read strictly. -/
theorem isReadStrictly_of_mark :
    IsReadStrictly "0x" ∧ ∃ reason, parseQuantity "0x" = .error (.malformed reason) := by
  have hplain : ∀ n, ¬ IsQuantity "0x" n := by
    rintro n ⟨digits, hs, ⟨hne, -⟩, -⟩
    exact hne (List.cons.inj (List.cons.inj hs).2).2.symm
  have hsigned : ∀ n, ¬ IsSignedQuantity "0x" n := by
    rintro n ⟨digits, hs, -, -⟩
    cases (List.cons.inj (List.cons.inj hs).2).2
  exact ⟨(isReadStrictly_iff "0x").1.2 hsigned, (isReadStrictly_iff "0x").2.2 hplain hsigned⟩

/-- **Five with a plus sign is read**, also as the height of the chain, and yet it is no
quantity. -/
theorem parseQuantity_of_plus :
    parseQuantity "0x+5" = .ok 5 ∧ (∀ n, ¬ IsQuantity "0x+5" n) ∧
      (Chain.height (.constant (Text.Utf8.encode "\x7b\"result\":\"0x+5\"\x7d")) .fresh).1 = .ok 5 ∧
      ¬ ∀ s n, parseQuantity s = .ok n → IsQuantity s n := by
  have hread : parseQuantity "0x+5" = .ok 5 := by decide +kernel
  have hnone : ∀ n, ¬ IsQuantity "0x+5" n := by
    rintro n ⟨digits, hs, hspells, -⟩
    obtain rfl := (List.cons.inj (List.cons.inj hs).2).2
    exact hspells.head_ne_sign.1 rfl
  exact ⟨hread, hnone, by decide +kernel, fun hall => hnone 5 (hall _ _ hread)⟩

end Rpc

end BlindSign

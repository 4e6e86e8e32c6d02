import Mathlib.Data.List.Forall2
import BlindSign.Proofs.Numerals
import BlindSign.Text.Characters

set_option autoImplicit false

/-! # Integers with a sign, and as they are written

An integer is spelled by digits with a sign before them or none (`SpellsInteger`). What digits spell
is what is read from them one by one (`spells_iff`).

**A text is read as an integer within bounds just if it spells that integer, and has no minus sign
where no integer is negative** (`read_eq_ok_iff`); not even a negative zero is read there. What is
written for an integer spells it (`spellsInteger_integerChars`), so it is read back.
-/

namespace BlindSign.Numeral

variable {radix d n : Nat} {bounds : Bounds} {c : Char} {cs : List Char} {z : Int}

/-! ## Written numbers -/

theorem isDigit_digitChar (hd : d < radix) (hradix : radix ≤ 16) :
    IsDigit radix d.digitChar d :=
  ⟨hd, Nat.lt_of_lt_of_le hd hradix, .inl rfl⟩

theorem spells_singleton (h : IsDigit radix c d) : Spells radix [c] d := by
  refine ⟨List.cons_ne_nil _ _, [d], .cons h .nil, ?_⟩
  rw [← extend_zero]
  simp [extend]

/-- What digits spell is what is read from them one by one. -/
theorem spells_iff : Spells radix cs n ↔ cs ≠ [] ∧ (∀ c ∈ cs, (digit? radix c).isSome = true) ∧
    n = cs.foldl (fun n c => n * radix + (digit? radix c).getD 0) 0 := by
  -- a digit has one value, so the values are a function of the characters
  have hvalues : ∀ {cs : List Char} {ds : List Nat}, List.Forall₂ (IsDigit radix) cs ds ↔
      (∀ c ∈ cs, (digit? radix c).isSome = true) ∧ ds = cs.map fun c => (digit? radix c).getD 0 := by
    intro cs
    induction cs with
    | nil => simp
    | cons c cs ih =>
        intro ds
        cases ds with
        | nil => simp
        | cons d ds =>
            rw [List.forall₂_cons, ih, ← digit?_eq_some_iff, List.forall_mem_cons, List.map_cons,
              List.cons_eq_cons]
            cases hc : digit? radix c with
            | none => simp
            | some e =>
                simp only [Option.some.injEq, Option.isSome_some, Option.getD_some, true_and]
                constructor
                · rintro ⟨rfl, hcs, rfl⟩
                  exact ⟨hcs, rfl, rfl⟩
                · rintro ⟨hcs, rfl, rfl⟩
                  exact ⟨rfl, hcs, rfl⟩
  refine and_congr_right fun _ => ?_
  constructor
  · rintro ⟨ds, hds, rfl⟩
    obtain ⟨hcs, rfl⟩ := hvalues.1 hds
    rw [← extend_zero, extend, List.foldl_map]
    exact ⟨hcs, rfl⟩
  · rintro ⟨hcs, rfl⟩
    refine ⟨_, hvalues.2 ⟨hcs, rfl⟩, ?_⟩
    rw [← extend_zero, extend, List.foldl_map]

/-- A digit at the end counts for itself, and the others for one place more. -/
theorem Spells.concat (h : Spells radix cs n) (hc : IsDigit radix c d) :
    Spells radix (cs ++ [c]) (n * radix + d) := by
  obtain ⟨_, ds, hds, rfl⟩ := h
  refine ⟨by simp, ds ++ [d], List.rel_append hds (.cons hc .nil), ?_⟩
  rw [← extend_zero, ← extend_zero, extend, extend, List.foldl_append]
  rfl

/-- **The digits that are written for a number spell it.** -/
theorem spells_toDigits (hradix : 1 < radix) (hradix' : radix ≤ 16) (n : Nat) :
    Spells radix (Nat.toDigits radix n) n := by
  induction n using Nat.strongRecOn with
  | ind n ih =>
      by_cases hsmall : n < radix
      · rw [Nat.toDigits_of_lt_base hsmall]
        exact spells_singleton (isDigit_digitChar hsmall hradix')
      · have hn : 0 < n := by omega
        have hlast : n % radix < radix := Nat.mod_lt n (by omega)
        have hprefix := (ih (n / radix) (Nat.div_lt_self hn hradix)).concat
          (isDigit_digitChar hlast hradix')
        rw [Nat.toDigits_of_base_le hradix (Nat.le_of_not_lt hsmall)]
        rwa [Nat.div_add_mod'] at hprefix

/-! ## Integers -/

/-- Characters spell an integer: digits, with a sign before them or none. -/
inductive SpellsInteger (radix : Nat) : List Char → Int → Prop
  | plain {cs : List Char} {n : Nat} (h : Spells radix cs n) : SpellsInteger radix cs n
  | plus {cs : List Char} {n : Nat} (h : Spells radix cs n) : SpellsInteger radix ('+' :: cs) n
  | minus {cs : List Char} {n : Nat} (h : Spells radix cs n) : SpellsInteger radix ('-' :: cs) (-n)

theorem SpellsInteger.ne_nil (h : SpellsInteger radix cs z) : cs ≠ [] := by
  cases h with
  | plain h => exact h.1
  | plus _ => exact List.cons_ne_nil _ _
  | minus _ => exact List.cons_ne_nil _ _

/-- Characters are a numeral of an integer within bounds. -/
structure IsNumeral (radix : Nat) (bounds : Bounds) (cs : List Char) (z : Int) : Prop where
  spells : SpellsInteger radix cs z
  contains : bounds.contains z = true
  /-- A minus sign stands only where some integers are negative. -/
  minus : cs.head? = some '-' → bounds.least < 0

/-- The integer of a number after a sign. -/
def signed (isNegative : Bool) (n : Nat) : Int := if isNegative then -n else n

theorem contains_iff : bounds.contains z = true ↔ bounds.least ≤ z ∧ z ≤ bounds.greatest := by
  simp [Bounds.contains]

/-- An integer within the bounds of `bits` bits without a sign is a natural number below the power. -/
theorem contains_unsigned_iff {bits : Nat} {z : Int} :
    (Bounds.unsigned bits).contains z = true ↔ ∃ n : Nat, z = n ∧ n < Nat.pow 2 bits := by
  rw [contains_iff, Bounds.unsigned]
  dsimp only
  constructor
  · rintro ⟨hleast, hgreatest⟩
    exact ⟨z.toNat, by omega, by omega⟩
  · rintro ⟨n, rfl, hn⟩
    omega

theorem contains_unsigned_zero (bits : Nat) : (Bounds.unsigned bits).contains 0 = true :=
  contains_unsigned_iff.2 ⟨0, rfl, Nat.pow_pos (by decide)⟩

/-- One more digit moves an integer away from zero. -/
theorem signed_mul_add (isNegative : Bool) (n radix d : Nat) :
    signed isNegative n * radix + (if isNegative then -(d : Int) else d) =
      signed isNegative (n * radix + d) := by
  cases isNegative with
  | false => simp [signed]
  | true =>
      simp only [signed, if_true]
      push_cast
      rw [Int.neg_mul, Int.neg_add]

/-- Bounds that contain zero and an integer contain all integers between them. -/
theorem contains_signed_of_le (hzero : bounds.contains 0 = true) {isNegative : Bool} {m : Nat}
    (h : n ≤ m) (hm : bounds.contains (signed isNegative m) = true) :
    bounds.contains (signed isNegative n) = true := by
  rw [contains_iff] at *
  cases isNegative with
  | false =>
      simp only [signed, Bool.false_eq_true, if_false] at *
      omega
  | true =>
      simp only [signed, if_true] at *
      omega

/-- **Digits are read after a sign just if the integer that they make lies within the bounds.** -/
theorem readDigits_eq_ok_iff (hzero : bounds.contains 0 = true) {isNegative : Bool}
    (hn : bounds.contains (signed isNegative n) = true) :
    readDigits radix bounds isNegative (signed isNegative n) cs = .ok z ↔
      ∃ ds, List.Forall₂ (IsDigit radix) cs ds ∧ z = signed isNegative (extend radix n ds) ∧
        bounds.contains z = true := by
  induction cs generalizing n with
  | nil =>
      constructor
      · intro h
        obtain rfl := Except.ok.inj h
        exact ⟨[], .nil, rfl, hn⟩
      · rintro ⟨ds, hds, rfl, _⟩
        cases hds
        rfl
  | cons c cs ih =>
      rw [readDigits]
      cases hd : digit? radix c with
      | none =>
          constructor
          · intro h
            cases h
          · rintro ⟨ds, hds, _⟩
            cases hds with
            | cons hc _ =>
                rw [digit?_eq_some_iff.2 hc] at hd
                cases hd
      | some d =>
          have hdigit := digit?_eq_some_iff.1 hd
          have hradix : 0 < radix := Nat.zero_lt_of_lt hdigit.1
          simp only [signed_mul_add]
          -- the first digit is d in every reading
          have hrest : (∃ ds, List.Forall₂ (IsDigit radix) (c :: cs) ds ∧
              z = signed isNegative (extend radix n ds) ∧ bounds.contains z = true) ↔
              ∃ ds, List.Forall₂ (IsDigit radix) cs ds ∧
                z = signed isNegative (extend radix (n * radix + d) ds) ∧
                bounds.contains z = true := by
            constructor
            · rintro ⟨ds, hds, hz⟩
              cases hds with
              | @cons _ d' _ ds hc hcs =>
                  obtain rfl := Option.some.inj ((digit?_eq_some_iff.2 hc).symm.trans hd)
                  exact ⟨ds, hcs, hz⟩
            · rintro ⟨ds, hds, hz⟩
              exact ⟨d :: ds, .cons hdigit hds, hz⟩
          rw [hrest]
          by_cases hin : bounds.contains (signed isNegative (n * radix + d)) = true
          · rw [← ih hin]
            obtain ⟨hleast, hgreatest⟩ := contains_iff.1 hin
            rw [if_neg (by omega), if_neg (by omega)]
          · -- what comes after does not bring the integer back
            have hout : ¬ ∃ ds, List.Forall₂ (IsDigit radix) cs ds ∧
                z = signed isNegative (extend radix (n * radix + d) ds) ∧
                bounds.contains z = true := by
              rintro ⟨ds, _, rfl, hz⟩
              exact hin (contains_signed_of_le hzero (le_extend hradix _ ds) hz)
            have hoff : bounds.greatest < signed isNegative (n * radix + d) ∨
                signed isNegative (n * radix + d) < bounds.least := by
              rw [contains_iff] at hin
              omega
            simp only [hout, iff_false]
            rcases hoff with hlarge | hsmall
            · rw [if_pos hlarge]
              simp
            · by_cases hlarge : bounds.greatest < signed isNegative (n * radix + d)
              · rw [if_pos hlarge]
                simp
              · rw [if_neg hlarge, if_pos hsmall]
                simp

/-- Digits are read just if the integer that they spell after the sign lies within the bounds. -/
theorem readDigits_zero_eq_ok_iff (hzero : bounds.contains 0 = true) (isNegative : Bool)
    (hne : cs ≠ []) : readDigits radix bounds isNegative 0 cs = .ok z ↔
      ∃ n, Spells radix cs n ∧ z = signed isNegative n ∧ bounds.contains z = true := by
  have hsigned : signed isNegative 0 = 0 := by cases isNegative <;> rfl
  have hread : readDigits radix bounds isNegative (signed isNegative 0) cs = .ok z ↔
      ∃ ds, List.Forall₂ (IsDigit radix) cs ds ∧ z = signed isNegative (extend radix 0 ds) ∧
        bounds.contains z = true :=
    readDigits_eq_ok_iff hzero (by rw [hsigned]; exact hzero)
  rw [hsigned] at hread
  rw [hread]
  constructor
  · rintro ⟨ds, hds, hz, hin⟩
    rw [extend_zero] at hz
    exact ⟨_, ⟨hne, ds, hds, rfl⟩, hz, hin⟩
  · rintro ⟨n, ⟨_, ds, hds, rfl⟩, hz, hin⟩
    rw [← extend_zero] at hz
    exact ⟨ds, hds, hz, hin⟩

theorem Spells.head_ne_sign (h : Spells radix (c :: cs) n) : c ≠ '+' ∧ c ≠ '-' := by
  obtain ⟨_, ds, hds, _⟩ := h
  cases hds with
  | cons hc _ => exact hc.ne_sign

/-! ## Reading by the first character -/

theorem read_plus (hne : cs ≠ []) :
    read radix bounds ('+' :: cs) = readDigits radix bounds false 0 cs := by
  cases cs with
  | nil => exact absurd rfl hne
  | cons c cs => rfl

theorem read_minus (hne : cs ≠ []) : read radix bounds ('-' :: cs) =
    if bounds.least < 0 then readDigits radix bounds true 0 cs else .error .badDigit := by
  cases cs with
  | nil => exact absurd rfl hne
  | cons c cs => rfl

theorem read_plain (hplus : c ≠ '+') (hminus : c ≠ '-') :
    read radix bounds (c :: cs) = readDigits radix bounds false 0 (c :: cs) := by
  simp [read, hplus, hminus]

theorem isNumeral_plus_iff : IsNumeral radix bounds ('+' :: cs) z ↔
    ∃ n, Spells radix cs n ∧ z = signed false n ∧ bounds.contains z = true := by
  constructor
  · rintro ⟨hspells, hin, _⟩
    cases hspells with
    | plain h => exact absurd rfl h.head_ne_sign.1
    | plus h => exact ⟨_, h, rfl, hin⟩
  · rintro ⟨n, h, rfl, hin⟩
    exact ⟨.plus h, hin, by simp⟩

theorem isNumeral_minus_iff : IsNumeral radix bounds ('-' :: cs) z ↔
    bounds.least < 0 ∧ ∃ n, Spells radix cs n ∧ z = signed true n ∧ bounds.contains z = true := by
  constructor
  · rintro ⟨hspells, hin, hleast⟩
    cases hspells with
    | plain h => exact absurd rfl h.head_ne_sign.2
    | minus h => exact ⟨hleast rfl, _, h, rfl, hin⟩
  · rintro ⟨hleast, n, h, rfl, hin⟩
    exact ⟨.minus h, hin, fun _ => hleast⟩

theorem isNumeral_plain_iff (hplus : c ≠ '+') (hminus : c ≠ '-') :
    IsNumeral radix bounds (c :: cs) z ↔
      ∃ n, Spells radix (c :: cs) n ∧ z = signed false n ∧ bounds.contains z = true := by
  constructor
  · rintro ⟨hspells, hin, _⟩
    cases hspells with
    | plain h => exact ⟨_, h, rfl, hin⟩
    | plus h => exact absurd rfl hplus
    | minus h => exact absurd rfl hminus
  · rintro ⟨n, h, rfl, hin⟩
    exact ⟨.plain h, hin, fun h => absurd (Option.some.inj h) hminus⟩

/-- **A text is read as an integer just if it is a numeral of it.** -/
theorem read_eq_ok_iff (hzero : bounds.contains 0 = true) :
    read radix bounds cs = .ok z ↔ IsNumeral radix bounds cs z := by
  cases cs with
  | nil =>
      constructor
      · intro h
        cases h
      · rintro ⟨hspells, _, _⟩
        cases hspells with
        | plain h => exact absurd rfl h.1
  | cons c cs =>
      by_cases hplus : c = '+'
      · subst hplus
        rw [isNumeral_plus_iff]
        -- a sign alone is no numeral
        by_cases hne : cs = []
        · subst hne
          simp [read, Spells]
        · rw [read_plus hne]
          exact readDigits_zero_eq_ok_iff hzero false hne
      · by_cases hminus : c = '-'
        · subst hminus
          rw [isNumeral_minus_iff]
          by_cases hne : cs = []
          · subst hne
            simp [read, Spells]
          · rw [read_minus hne]
            -- a type without negative numbers has no numeral with a minus, not even of zero
            by_cases hleast : bounds.least < 0
            · simp only [hleast, true_and, if_true]
              exact readDigits_zero_eq_ok_iff hzero true hne
            · simp [hleast]
        · rw [read_plain hplus hminus, isNumeral_plain_iff hplus hminus]
          exact readDigits_zero_eq_ok_iff hzero false (List.cons_ne_nil c cs)

/-! ## Written integers -/

/-- **What is written for an integer spells it.** -/
theorem spellsInteger_integerChars (z : Int) : SpellsInteger 10 (integerChars z) z := by
  cases z with
  | ofNat n => exact .plain (spells_toDigits (by decide) (by decide) n)
  | negSucc n => exact .minus (spells_toDigits (by decide) (by decide) (n + 1))

/-- An integer within bounds is read back from what is written for it. -/
theorem isNumeral_integerChars (h : bounds.contains z = true) :
    IsNumeral 10 bounds (integerChars z) z := by
  refine ⟨spellsInteger_integerChars z, h, fun hminus => ?_⟩
  cases z with
  | ofNat n =>
      have hspells : Spells 10 (integerChars (.ofNat n)) n :=
        spells_toDigits (by decide) (by decide) n
      cases hchars : integerChars (.ofNat n) with
      | nil =>
          rw [hchars] at hminus
          cases hminus
      | cons c cs =>
          rw [hchars] at hminus hspells
          exact absurd (Option.some.inj hminus) hspells.head_ne_sign.2
  | negSucc n =>
      have hleast := (contains_iff.1 h).1
      omega

/-! ## No blank characters -/

theorem IsDigit.isBlank_eq_false (h : IsDigit radix c d) : Text.isBlank c = false := by
  have hdigits : ∀ d < 16, Text.isBlank d.digitChar = false ∧
      Text.isBlank d.digitChar.toUpper = false := by decide
  obtain ⟨_, hd, rfl | rfl⟩ := h
  · exact (hdigits d hd).1
  · exact (hdigits d hd).2

theorem Spells.isBlank_eq_false (h : Spells radix cs n) : ∀ c ∈ cs, Text.isBlank c = false := by
  intro c hc
  obtain ⟨d, hd⟩ := Option.isSome_iff_exists.1 ((spells_iff.1 h).2.1 c hc)
  exact (digit?_eq_some_iff.1 hd).isBlank_eq_false

theorem SpellsInteger.isBlank_eq_false (h : SpellsInteger radix cs z) :
    ∀ c ∈ cs, Text.isBlank c = false := by
  cases h with
  | plain h => exact h.isBlank_eq_false
  | plus h => exact List.forall_mem_cons.2 ⟨by decide, h.isBlank_eq_false⟩
  | minus h => exact List.forall_mem_cons.2 ⟨by decide, h.isBlank_eq_false⟩

end BlindSign.Numeral

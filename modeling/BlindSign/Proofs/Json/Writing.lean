import BlindSign.Json.Value
import BlindSign.Proofs.Json.Records

set_option autoImplicit false

/-! # Values are written as legal text

Whatever a value is, its text is one that the grammar admits, so it is read back as the tree of the
value (`Value.parse?_render`). The numbers take most of the work: a binary64 number is spelled from
its digits and a power of ten, with the point among them, before them or behind them, and whatever
these are, the spelling is legal (`NumberText.isLegal_ofBinary64`).
-/

namespace BlindSign.Json

/-! ## Numbers -/

namespace NumberText

variable {digits digits' : List UInt8}

theorem areDigits_digitsOf (n : Nat) : AreDigits (digitsOf n) :=
  ⟨digitsOf_ne_nil n, isDigit_of_mem_digitsOf⟩

theorem AreDigits.take (h : AreDigits digits) {n : Nat} (hn : 0 < n) :
    AreDigits (digits.take n) := by
  refine ⟨?_, fun b hb => h.2 b (List.mem_of_mem_take hb)⟩
  rw [Ne, List.take_eq_nil_iff]
  rintro (h0 | hnil)
  · omega
  · exact h.1 hnil

theorem AreDigits.drop (h : AreDigits digits) {n : Nat} (hn : n < digits.length) :
    AreDigits (digits.drop n) := by
  refine ⟨?_, fun b hb => h.2 b (List.mem_of_mem_drop hb)⟩
  rw [Ne, List.drop_eq_nil_iff]
  omega

theorem isDigit_of_mem_zeros {n : Nat} :
    ∀ b ∈ List.replicate n (0x30 : UInt8), isDigit b = true := by
  intro b hb
  obtain rfl := List.eq_of_mem_replicate hb
  rfl

theorem AreDigits.append_zeros (h : AreDigits digits) {n : Nat} :
    AreDigits (digits ++ List.replicate n 0x30) :=
  ⟨List.append_ne_nil_of_left_ne_nil h.1 _, List.forall_mem_append.2 ⟨h.2, isDigit_of_mem_zeros⟩⟩

theorem AreDigits.zeros_append (h : AreDigits digits) {n : Nat} :
    AreDigits (List.replicate n 0x30 ++ digits) :=
  ⟨List.append_ne_nil_of_right_ne_nil _ h.1, List.forall_mem_append.2 ⟨isDigit_of_mem_zeros, h.2⟩⟩

/-- Digits that do not begin with a zero may be those before the point. -/
theorem noZero_of_head? (h : digits.head? ≠ some 0x30) :
    (digits.head? == some 0x30 && decide (1 < digits.length)) = false := by
  simp [h]

theorem noZero_of_length_le (h : digits.length ≤ 1) :
    (digits.head? == some 0x30 && decide (1 < digits.length)) = false := by
  simp [h]

/-- The digits of a number, more than one, do not begin with a zero. -/
theorem head?_digitsOf_of_length {n : Nat} (h : 1 < (digitsOf n).length) :
    (digitsOf n).head? ≠ some 0x30 := by
  refine head?_digitsOf (Nat.pos_of_ne_zero ?_)
  rintro rfl
  exact absurd h (by decide)

/-- Digits on both sides of a point are legal if those before it do not begin with a zero that
others follow. -/
theorem isLegal_of_point {negative : Bool} {whole fraction : List UInt8} (hwhole : AreDigits whole)
    (hzero : (whole.head? == some 0x30 && decide (1 < whole.length)) = false)
    (hfraction : AreDigits fraction) : IsLegal ⟨negative, whole, some fraction, none⟩ := by
  refine ⟨hwhole, hzero, ?_, by simp⟩
  intro digits h
  obtain rfl := Option.some.inj h
  exact hfraction

/-- Digits with a point among them, before them or behind them are legal. -/
theorem isLegal_positional (negative : Bool) (s : Scientific) :
    (positional negative s).IsLegal := by
  have hdigits := areDigits_digitsOf s.digits
  have hzero : AreDigits [0x30] := areDigits_digitsOf 0
  unfold positional
  by_cases hexp : 0 ≤ s.exponent
  · rw [if_pos hexp]
    by_cases h0 : s.digits = 0
    · rw [if_pos h0, h0]
      exact isLegal_of_point hzero (noZero_of_length_le (Nat.le_refl _)) hzero
    · rw [if_neg h0]
      refine isLegal_of_point hdigits.append_zeros (noZero_of_head? ?_) hzero
      rw [List.head?_append_of_ne_nil _ hdigits.1]
      exact head?_digitsOf (Nat.pos_of_ne_zero h0)
  · rw [if_neg hexp]
    by_cases hshort : (digitsOf s.digits).length ≤ (-s.exponent).toNat
    · rw [if_pos hshort]
      exact isLegal_of_point hzero (noZero_of_length_le (Nat.le_refl _)) hdigits.zeros_append
    · rw [if_neg hshort]
      -- there is a digit on each side of the point
      have hpoint : 0 < (digitsOf s.digits).length - (-s.exponent).toNat := by omega
      refine isLegal_of_point (hdigits.take hpoint) (noZero_of_head? ?_) (hdigits.drop (by omega))
      rw [List.head?_take, if_neg (by omega)]
      exact head?_digitsOf_of_length (by omega)

/-- Digits with a point behind the first one, and an exponent, are legal. -/
theorem isLegal_scientific (negative : Bool) (s : Scientific) :
    (scientific negative s).IsLegal := by
  have hdigits := areDigits_digitsOf s.digits
  refine ⟨hdigits.take Nat.one_pos, noZero_of_length_le (List.length_take_le _ _), ?_, ?_⟩
  · intro fraction h
    by_cases hlength : (digitsOf s.digits).length ≤ 1
    · rw [scientific, if_pos hlength] at h
      cases h
    · obtain rfl : (digitsOf s.digits).drop 1 = fraction := by
        rw [scientific, if_neg hlength] at h
        exact Option.some.inj h
      exact hdigits.drop (by omega)
  · intro e h
    obtain rfl := Option.some.inj h
    exact areDigits_digitsOf _

/-- **A written binary64 number is legal.** -/
theorem isLegal_ofBinary64 (x : Binary64) : (ofBinary64 x).IsLegal := by
  simp only [ofBinary64]
  split
  · exact isLegal_positional x.negative x.shortest
  · exact isLegal_scientific x.negative x.shortest

end NumberText

/-! ## Trees -/

theorem Tree.isLegal_number {n : NumberText} (h : n.IsLegal) : Tree.IsLegal (.number n) := by
  intro x hx
  obtain rfl := List.mem_singleton.1 hx
  exact h

theorem Tree.isLegal_itemTokens {items : List Tree} (h : ∀ item ∈ items, item.IsLegal) :
    ∀ x ∈ itemTokens items, x.IsLegal := by
  have hcomma : Token.comma.IsLegal := trivial
  induction items with
  | nil => simp [itemTokens]
  | cons item rest ih =>
      have hitem := h item List.mem_cons_self
      have hrest := ih fun item hi => h item (List.mem_cons_of_mem _ hi)
      cases rest with
      | nil => exact hitem
      | cons next rest =>
          simp only [itemTokens, List.forall_mem_cons, List.forall_mem_append]
          exact ⟨hitem, hcomma, hrest⟩

/-- An array is legal if its items are. -/
theorem Tree.isLegal_array {items : List Tree} (h : ∀ item ∈ items, item.IsLegal) :
    Tree.IsLegal (.array items) := by
  unfold IsLegal
  simp only [tokens, List.cons_append, List.forall_mem_cons, List.forall_mem_append]
  exact ⟨trivial, isLegal_itemTokens h, trivial, by simp⟩

/-! ## Values -/

namespace Value

mutual

/-- **Whatever a value is, its tree is legal.** -/
theorem isLegal_tree (v : Value) : v.tree.IsLegal := by
  cases v with
  | null => exact Tree.isLegal_null
  | bool value => exact Tree.isLegal_bool value
  | integer value => exact Tree.isLegal_number (NumberText.isLegal_ofInt value)
  | float value => exact Tree.isLegal_number (NumberText.isLegal_ofBinary64 value)
  | text value => exact Tree.isLegal_ofText value
  | array items => exact Tree.isLegal_array (isLegal_itemTrees items)
  | object fields => exact Tree.isLegal_object (isLegal_fieldTrees fields)

theorem isLegal_itemTrees (items : List Value) : ∀ t ∈ itemTrees items, t.IsLegal := by
  cases items with
  | nil => simp [itemTrees]
  | cons item rest =>
      rw [itemTrees, List.forall_mem_cons]
      exact ⟨isLegal_tree item, isLegal_itemTrees rest⟩

theorem isLegal_fieldTrees (fields : Fields) :
    ∀ m ∈ fieldTrees fields, (Token.text m.1).IsLegal ∧ m.2.IsLegal := by
  match fields with
  | [] => simp [fieldTrees]
  | (key, value) :: rest =>
      rw [fieldTrees, List.forall_mem_cons]
      exact ⟨⟨Token.isLegal_text key, isLegal_tree value⟩, isLegal_fieldTrees rest⟩

end

/-- A value is read back from its text as its tree. -/
theorem parse?_render (v : Value) : Tree.parse? v.render = some v.tree :=
  Tree.parse?_render v.isLegal_tree

/-- The members of an object are its fields in their order. -/
theorem fieldTrees_eq (fields : Fields) :
    fieldTrees fields = fields.map fun e => member e.1 e.2.tree := by
  induction fields with
  | nil => rfl
  | cons e rest ih =>
      obtain ⟨key, value⟩ := e
      rw [fieldTrees, ih]
      rfl

end Value

end BlindSign.Json

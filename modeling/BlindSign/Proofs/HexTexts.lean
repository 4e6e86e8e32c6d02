import BlindSign.Proofs.Hex

set_option autoImplicit false

/-! # The check for digits and the reader agree

Hexadecimal text is looked at in two ways: a text is taken for so many digits (`isDigits`), or it is
read as bytes (`decode`). The check counts characters; as all digits are ASCII, counting the bytes of
the text comes to the same (`isDigits_eq_areDigits`), also where other characters have as many bytes
as digits are asked for.

**A text is taken for two digits for each of some bytes if and only if it is read as that many
bytes** (`isDigits_agrees_decode`). Both pass all spellings of bytes, in either case and after at most
one mark, and both refuse a second mark, an odd number of digits, and any character that is no digit.
-/

namespace BlindSign.Encoding.Hex

open Text

variable {c : Char} {cs digits text : List Char} {bytes : List UInt8} {s : String} {n : Nat}

/-! ## Characters and bytes -/

/-- Whether a byte is the code of a hexadecimal digit, in either case. -/
def isDigitByte (b : UInt8) : Bool :=
  (0x30 ≤ b && b ≤ 0x39) || (0x61 ≤ b && b ≤ 0x66) || (0x41 ≤ b && b ≤ 0x46)

/-- Whether there are as many bytes as are asked for, and each is a digit. -/
def areDigits (bytes : List UInt8) (count : Nat) : Bool :=
  bytes.length = count && bytes.all isDigitByte

/-- The reader knows the same digits. -/
theorem isDigitByte_iff {b : UInt8} : isDigitByte b = true ↔ ∃ d, digit? b = some d := by
  have hall : ∀ n < 256, isDigitByte (UInt8.ofNat n) = (digit? (UInt8.ofNat n)).isSome := by
    decide +kernel
  have hb := hall b.toNat b.toNat_lt
  rw [UInt8.ofNat_toNat] at hb
  rw [hb, Option.isSome_iff_exists]

/-- A character is a digit just if all of its bytes are. -/
theorem forall_isDigitByte_iff :
    (∀ b ∈ Utf8.encodeChar c, isDigitByte b = true) ↔ IsDigit c := by
  constructor
  · intro h
    cases hbytes : Utf8.encodeChar c with
    | nil => exact absurd (Utf8.length_encodeChar_pos c) (by rw [hbytes]; decide)
    | cons b rest =>
        obtain ⟨d, hd⟩ := isDigitByte_iff.1 (h b (by rw [hbytes]; exact List.mem_cons_self))
        obtain ⟨hlt, c', hc', hlower⟩ := digit?_eq_some hd
        -- the first byte alone is a character, and that is what is read there
        have hnext := Utf8.next?_encodeChar c []
        rw [List.append_nil, hbytes, ← List.singleton_append, ← hc', Utf8.next?_encodeChar] at hnext
        obtain ⟨rfl, -⟩ := Prod.mk.inj (Option.some.inj hnext)
        exact isDigit_iff_exists.2 ⟨d, hlt, hlower⟩
  · intro h b hb
    obtain ⟨d, hd, hlower⟩ := isDigit_iff_exists.1 h
    obtain ⟨b', hb', hdigit⟩ := digit?_of_toLower hd hlower
    rw [hb', List.mem_singleton] at hb
    exact isDigitByte_iff.2 ⟨d, hb ▸ hdigit⟩

/-- Digits are one byte each. -/
theorem length_encodeChars_of_isDigit (h : ∀ c ∈ cs, IsDigit c) :
    (Utf8.encodeChars cs).length = cs.length := by
  induction cs with
  | nil => rfl
  | cons c cs ih =>
      obtain ⟨hc, hcs⟩ := List.forall_mem_cons.1 h
      rw [Utf8.encodeChars_cons, Utf8.encodeChar_ascii hc.toNat_lt, List.length_append, ih hcs,
        List.length_singleton, List.length_cons, Nat.add_comm]

/-- **To count the bytes of a text comes to the same as to count its characters.** -/
theorem isDigits_eq_areDigits (s : String) (n : Nat) :
    isDigits s n = areDigits (Utf8.encodeChars (dropMarkChars s.toList)) n := by
  have hdigits : (∀ b ∈ Utf8.encodeChars (dropMarkChars s.toList), isDigitByte b = true) ↔
      ∀ c ∈ dropMarkChars s.toList, IsDigit c := by
    simp only [Utf8.encodeChars, List.forall_mem_flatMap, forall_isDigitByte_iff]
  rw [Bool.eq_iff_iff]
  simp only [isDigits, areDigits, Bool.and_eq_true, decide_eq_true_eq, List.all_eq_true,
    isDigit_iff, hdigits]
  refine and_congr_left fun h => ?_
  rw [length_encodeChars_of_isDigit h]

/-! ## Both agree -/

/-- **Two digits for each byte are taken for digits just if they are read as bytes.** -/
theorem isDigits_two_mul_iff :
    isDigits s (2 * n) = true ↔ ∃ bytes, decode s = .ok bytes ∧ bytes.length = n := by
  rw [isDigits_iff]
  constructor
  · rintro ⟨cs, hmark, hdigits⟩
    obtain ⟨bytes, hlength, hspells⟩ := exists_spells_iff.2 hdigits
    exact ⟨bytes, decode_eq_ok_iff.2 ⟨cs, hmark, hspells⟩, hlength⟩
  · rintro ⟨bytes, hdecode, hlength⟩
    obtain ⟨cs, hmark, hspells⟩ := decode_eq_ok_iff.1 hdecode
    exact ⟨cs, hmark, exists_spells_iff.1 ⟨bytes, hlength, hspells⟩⟩

theorem isDigits_eq_false (h : ∀ cs, MayBeMarked s.toList cs → cs.length = n →
    ¬ ∀ c ∈ cs, IsDigit c) : isDigits s n = false := by
  refine Bool.eq_false_iff.2 fun hdigits => ?_
  obtain ⟨cs, hmark, hlength, hcs⟩ := isDigits_iff.1 hdigits
  exact h cs hmark hlength hcs

/-- What is not taken for digits of any bytes is not read. -/
theorem exists_fault (h : ∀ n, isDigits s (2 * n) = false) : ∃ fault, decode s = .error fault := by
  cases hdecode : decode s with
  | error fault => exact ⟨fault, rfl⟩
  | ok bytes =>
      have hdigits := isDigits_two_mul_iff.2 ⟨bytes, hdecode, rfl⟩
      rw [h] at hdigits
      cases hdigits

/-- A character stands in a text that is neither a digit nor the letter of a mark in front. -/
def HasStray (text : List Char) : Prop := ∃ before c after, text = before ++ c :: after ∧
  ¬ IsDigit c ∧ ¬ (before = ['0'] ∧ (c = 'x' ∨ c = 'X'))

/-- A mark is a zero and a letter. -/
theorem IsMarked.exists_letter (h : IsMarked text digits) :
    ∃ letter, text = '0' :: letter :: digits ∧ (letter = 'x' ∨ letter = 'X') := by
  rcases h with h | h
  · exact ⟨'x', h, .inl rfl⟩
  · exact ⟨'X', h, .inr rfl⟩

/-- Such a character is still there when the mark is dropped. -/
theorem HasStray.not_forall_isDigit (h : HasStray text) (hmark : MayBeMarked text digits) :
    ¬ ∀ c ∈ digits, IsDigit c := by
  obtain ⟨before, c, after, rfl, hc, hletter⟩ := h
  intro hdigits
  rcases hmark with rfl | hmark
  · exact hc (hdigits c (by simp))
  · obtain ⟨letter, heq, hmark⟩ := hmark.exists_letter
    -- it is not one of the first two characters, which are the mark
    rcases before with _ | ⟨zero, _ | ⟨letter', before⟩⟩
    · obtain ⟨rfl, -⟩ := List.cons.inj heq
      exact hc (by decide)
    · obtain ⟨rfl, hrest⟩ := List.cons.inj heq
      obtain ⟨rfl, -⟩ := List.cons.inj hrest
      exact hletter ⟨rfl, hmark⟩
    · obtain ⟨-, hrest⟩ := List.cons.inj heq
      obtain ⟨-, hrest⟩ := List.cons.inj hrest
      exact hc (hdigits c (by rw [← hrest]; simp))

/-- After a mark, another one is more than digits. -/
theorem hasStray_of_isMarked (h : IsMarked text cs) (hcs : IsMarked cs digits) : HasStray text := by
  obtain ⟨letter, rfl, -⟩ := h.exists_letter
  obtain ⟨letter', rfl, hletter'⟩ := hcs.exists_letter
  refine ⟨['0', letter, '0'], letter', digits, rfl, ?_, fun h => by simp at h⟩
  rcases hletter' with rfl | rfl <;> decide

/-- **The check for digits and the reader agree.** The check, which may count bytes as well as
characters, passes twice as many digits as the reader reads bytes. The reader reads all spellings of
bytes after at most one mark. A second mark and a character that is no digit are refused by both, and
so is an odd number of digits, except where the check is asked for that odd number. -/
theorem isDigits_agrees_decode :
    (∀ s n, isDigits s n = areDigits (Utf8.encodeChars (dropMarkChars s.toList)) n) ∧
    (∀ s n, isDigits s (2 * n) = true ↔ ∃ bytes, decode s = .ok bytes ∧ bytes.length = n) ∧
    (∀ s digits bytes, MayBeMarked s.toList digits → Spells digits bytes →
      decode s = .ok bytes) ∧
    (∀ s text digits, IsMarked s.toList text → IsMarked text digits →
      (∀ n, isDigits s n = false) ∧ ∃ fault, decode s = .error fault) ∧
    (∀ s, HasStray s.toList → (∀ n, isDigits s n = false) ∧ ∃ fault, decode s = .error fault) ∧
    ∀ s digits, MayBeMarked s.toList digits → (∀ c ∈ digits, IsDigit c) → digits.length % 2 = 1 →
      (∀ n, isDigits s (2 * n) = false) ∧ ∃ fault, decode s = .error fault := by
  have hstray : ∀ s : String, HasStray s.toList →
      (∀ n, isDigits s n = false) ∧ ∃ fault, decode s = .error fault := by
    intro s h
    have hfalse : ∀ n, isDigits s n = false := fun n =>
      isDigits_eq_false fun cs hmark _ => h.not_forall_isDigit hmark
    exact ⟨hfalse, exists_fault fun n => hfalse (2 * n)⟩
  refine ⟨isDigits_eq_areDigits, fun s n => isDigits_two_mul_iff, ?_, ?_, hstray, ?_⟩
  · exact fun s digits bytes hmark hspells => decode_eq_ok_iff.2 ⟨digits, hmark, hspells⟩
  · exact fun s text digits h htext => hstray s (hasStray_of_isMarked h htext)
  · intro s digits hmark hdigits hodd
    have hfalse : ∀ n, isDigits s (2 * n) = false := by
      intro n
      refine isDigits_eq_false fun cs hcs hlength hall => ?_
      -- either way the digits are what is left of the text without its mark
      obtain rfl : cs = digits :=
        ((dropMarkChars_eq_iff hall).2 hcs).symm.trans ((dropMarkChars_eq_iff hdigits).2 hmark)
      omega
    exact ⟨hfalse, exists_fault hfalse⟩

/-- One byte in either case after a mark; a second mark, a half of a byte, and a letter of two bytes
where two digits are asked for. -/
theorem isDigits_agrees_decode_of_mixed :
    (isDigits "0XaB" (2 * 1) = true ∧ decode "0XaB" = .ok [0xAB]) ∧
    (isDigits "0x0xab" (2 * 1) = false ∧ ∃ fault, decode "0x0xab" = .error fault) ∧
    (isDigits "0xabc" (2 * 1) = false ∧ ∃ fault, decode "0xabc" = .error fault) ∧
    (isDigits "\u00e9" (2 * 1) = false ∧ ∃ fault, decode "\u00e9" = .error fault) := by
  obtain ⟨-, hagree, hread, hmark, hstray, hodd⟩ := isDigits_agrees_decode
  have hdecode : decode "0XaB" = .ok [0xAB] :=
    hread "0XaB" ['a', 'B'] [0xAB] (.inr (.inr rfl)) rfl
  obtain ⟨hmark, hmark'⟩ := hmark "0x0xab" "0xab".toList "ab".toList (.inl rfl) (.inl rfl)
  obtain ⟨hodd, hodd'⟩ := hodd "0xabc" ['a', 'b', 'c'] (.inr (.inl rfl)) (by simp; decide) rfl
  obtain ⟨hstray, hstray'⟩ := hstray "\u00e9" ⟨[], '\u00e9', [], rfl, by decide, by simp⟩
  exact ⟨⟨(hagree _ 1).2 ⟨_, hdecode, rfl⟩, hdecode⟩, ⟨hmark _, hmark'⟩, ⟨hodd _, hodd'⟩,
    hstray _, hstray'⟩

end BlindSign.Encoding.Hex

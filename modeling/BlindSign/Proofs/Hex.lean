import BlindSign.Encoding.Hex
import BlindSign.Proofs.Admission
import BlindSign.Proofs.Utf8
import BlindSign.Text.Characters

set_option autoImplicit false

/-! # What hexadecimal digits spell

Bytes are written in lower case. Digits spell bytes if in lower case they are what is written for
the bytes (`Spells`), so each letter may be in either case.

**A text is read as bytes if and only if it spells them after at most one mark**
(`decode_eq_ok_iff`), and it is taken for digits just if it is digits after at most one mark
(`isDigits_iff`).

The reader works on bytes, the digits are characters. All of them are ASCII, one byte each, so
single digits are compared one by one, and no other character is changed by its lower case.
-/

namespace BlindSign.Encoding.Hex

open Text Text.Utf8

variable {c : Char} {cs text : List Char} {b : UInt8} {bytes : List UInt8} {d n : Nat}

/-! ## Digits -/

def IsDigit (c : Char) : Prop := c.toLower ∈ "0123456789abcdef".toList

instance (c : Char) : Decidable (IsDigit c) := inferInstanceAs (Decidable (_ ∈ _))

/-- Beyond ASCII there are no cases. -/
theorem toLower_of_le (h : 0x80 ≤ c.toNat) : c.toLower = c := by
  refine dif_neg fun hupper => ?_
  have hz : c.toNat ≤ 0x5A := hupper.2
  omega

/-- What has a digit for its lower case is ASCII. -/
theorem toNat_lt_of_toLower (h : c.toLower.toNat < 0x80) : c.toNat < 0x80 := by
  refine Nat.lt_of_not_le fun hc => ?_
  rw [toLower_of_le hc] at h
  omega

/-- The digits in lower case are those with a value below sixteen. -/
theorem mem_digits_iff : c ∈ "0123456789abcdef".toList ↔ ∃ d < 16, c = digitOf d := by
  have hdigits : "0123456789abcdef".toList = (List.range 16).map digitOf := by decide
  rw [hdigits]
  simp [eq_comm]

theorem toNat_digitOf_lt (hd : d < 16) : (digitOf d).toNat < 0x80 := by
  have hall : ∀ d < 16, (digitOf d).toNat < 0x80 := by decide
  exact hall d hd

theorem isDigit_iff_exists : IsDigit c ↔ ∃ d < 16, c.toLower = digitOf d := mem_digits_iff

theorem IsDigit.toNat_lt (h : IsDigit c) : c.toNat < 0x80 := by
  obtain ⟨d, hd, hc⟩ := isDigit_iff_exists.1 h
  exact toNat_lt_of_toLower (hc ▸ toNat_digitOf_lt hd)

/-- What holds of all codes of ASCII holds of each character of ASCII. -/
theorem of_ascii {p : Char → Prop} (hall : ∀ n < 0x80, p (Char.ofNat n)) (hc : c.toNat < 0x80) :
    p c := by
  have hn := hall c.toNat hc
  rwa [Char.ofNat_toNat] at hn

/-- Digits are not blank. -/
theorem IsDigit.isBlank_eq_false (h : IsDigit c) : isBlank c = false :=
  of_ascii (p := fun c => IsDigit c → isBlank c = false) (by decide +kernel) h.toNat_lt h

theorem isDigit_iff : isDigit c = true ↔ IsDigit c := by
  have hascii : c.toNat < 0x80 → (isDigit c = true ↔ IsDigit c) :=
    of_ascii (p := fun c => isDigit c = true ↔ IsDigit c) (by decide +kernel)
  constructor
  · intro h
    refine (hascii ?_).1 h
    simp only [isDigit, Bool.or_eq_true, Bool.and_eq_true, decide_eq_true_eq] at h
    rcases h with (⟨-, hle⟩ | ⟨-, hle⟩) | ⟨-, hle⟩ <;> exact Nat.lt_of_le_of_lt hle (by decide)
  · intro h
    exact (hascii h.toNat_lt).2 h

/-- A byte that is read as a digit is a character which has the digit for its lower case. -/
theorem digit?_eq_some (h : digit? b = some d) :
    d < 16 ∧ ∃ c : Char, encodeChar c = [b] ∧ c.toLower = digitOf d := by
  have hall : ∀ n < 256, ∀ d ∈ digit? (UInt8.ofNat n), d < 16 ∧
      encodeChar (Char.ofNat n) = [UInt8.ofNat n] ∧ (Char.ofNat n).toLower = digitOf d := by
    decide +kernel
  have hb := hall b.toNat b.toNat_lt d
  rw [UInt8.ofNat_toNat] at hb
  obtain ⟨hd, hc⟩ := hb h
  exact ⟨hd, _, hc⟩

/-- A character which has a digit for its lower case is one byte, and read as the digit. -/
theorem digit?_of_toLower (hd : d < 16) (h : c.toLower = digitOf d) :
    ∃ b, encodeChar c = [b] ∧ digit? b = some d := by
  have hall : ∀ n < 0x80, ∀ d < 16, (Char.ofNat n).toLower = digitOf d →
      digit? (UInt8.ofNat n) = some d := by
    decide +kernel
  have hc : c.toNat < 0x80 := toNat_lt_of_toLower (h ▸ toNat_digitOf_lt hd)
  refine ⟨_, encodeChar_ascii hc, hall c.toNat hc d hd ?_⟩
  rwa [Char.ofNat_toNat]

/-! ## Bytes -/

/-- Digits spell bytes: in lower case they are what is written for the bytes. -/
def Spells (cs : List Char) (bytes : List UInt8) : Prop := cs.map Char.toLower = encodeChars bytes

theorem encodeChars_cons_byte (b : UInt8) (bytes : List UInt8) :
    encodeChars (b :: bytes) = encodeByte b ++ encodeChars bytes := rfl

theorem digitAt_eq_ok {position : Nat} : digitAt position b = .ok d ↔ digit? b = some d := by
  unfold digitAt
  cases digit? b with
  | none => simp
  | some d' => simp

/-- Two digits are those of the byte that they make up. -/
theorem encodeByte_ofNat {high low : Nat} (hhigh : high < 16) (hlow : low < 16) :
    encodeByte (UInt8.ofNat (high * 16 + low)) = [digitOf high, digitOf low] := by
  have hfirst : (high * 16 + low) / 16 = high := by omega
  have hsecond : (high * 16 + low) % 16 = low := by omega
  rw [encodeByte, toNat_ofNat_of_lt (by omega), hfirst, hsecond]

/-- What is read in pairs was spelled. -/
theorem exists_spells_of_decodePairs {position : Nat} {digits : List UInt8}
    (h : decodePairs position digits = .ok bytes) :
    digits.length = 2 * bytes.length ∧ ∃ cs, digits = Utf8.encodeChars cs ∧ Spells cs bytes := by
  fun_induction decodePairs position digits generalizing bytes with
  | case1 =>
      obtain rfl := Except.ok.inj h
      exact ⟨rfl, [], rfl, rfl⟩
  | case2 => cases h
  | case3 position a b rest ih =>
      obtain ⟨high, hhigh, h⟩ := bind_eq_ok.1 h
      obtain ⟨low, hlow, h⟩ := bind_eq_ok.1 h
      obtain ⟨tail, htail, h⟩ := bind_eq_ok.1 h
      obtain rfl := Except.ok.inj h
      -- a byte that is a digit is the whole encoding of a character
      obtain ⟨hhigh, c, hc, hfirst⟩ := digit?_eq_some (digitAt_eq_ok.1 hhigh)
      obtain ⟨hlow, c', hc', hsecond⟩ := digit?_eq_some (digitAt_eq_ok.1 hlow)
      obtain ⟨hlength, cs, hrest, hspells⟩ := ih htail
      refine ⟨?_, c :: c' :: cs, ?_, ?_⟩
      · simp only [List.length_cons, hlength]
        omega
      · rw [Utf8.encodeChars_cons, Utf8.encodeChars_cons, hc, hc', hrest]
        rfl
      · rw [Spells, encodeChars_cons_byte, encodeByte_ofNat hhigh hlow, List.map_cons,
          List.map_cons, hfirst, hsecond, hspells]
        rfl

/-- What was spelled is read in pairs. -/
theorem decodePairs_of_spells (h : Spells cs bytes) (position : Nat) :
    decodePairs position (Utf8.encodeChars cs) = .ok bytes := by
  induction bytes generalizing cs position with
  | nil =>
      obtain rfl : cs = [] := List.map_eq_nil_iff.1 h
      rfl
  | cons b bytes ih =>
      obtain ⟨c, cs, rfl, hc, h⟩ := List.map_eq_cons_iff.1 h
      obtain ⟨c', cs, rfl, hc', hrest⟩ := List.map_eq_cons_iff.1 h
      have hb := b.toNat_lt
      obtain ⟨x, hx, hhigh⟩ := digit?_of_toLower (d := b.toNat / 16) (by omega) hc
      obtain ⟨y, hy, hlow⟩ := digit?_of_toLower (d := b.toNat % 16) (by omega) hc'
      have hbyte : UInt8.ofNat (b.toNat / 16 * 16 + b.toNat % 16) = b := by
        rw [Nat.div_add_mod', UInt8.ofNat_toNat]
      rw [Utf8.encodeChars_cons, Utf8.encodeChars_cons, hx, hy]
      refine bind_eq_ok.2 ⟨_, digitAt_eq_ok.2 hhigh, bind_eq_ok.2 ⟨_, digitAt_eq_ok.2 hlow,
        bind_eq_ok.2 ⟨_, ih hrest (position + 2), ?_⟩⟩⟩
      rw [hbyte]

/-- **Characters are read as bytes just if they spell them.** -/
theorem decodeBytes_eq_ok_iff :
    decodeBytes (Utf8.encodeChars cs) = .ok bytes ↔ Spells cs bytes := by
  constructor
  · intro h
    unfold decodeBytes at h
    split at h
    · obtain ⟨-, cs', hcs, hspells⟩ := exists_spells_of_decodePairs h
      rwa [Utf8.encodeChars_inj hcs]
    · cases h
  · intro h
    have hpairs := decodePairs_of_spells h 0
    obtain ⟨hlength, -⟩ := exists_spells_of_decodePairs hpairs
    unfold decodeBytes
    rw [if_pos (by omega), hpairs]

/-- What is written for bytes is digits in lower case. -/
theorem mem_encodeChars (h : c ∈ encodeChars bytes) : c ∈ "0123456789abcdef".toList := by
  obtain ⟨b, -, hc⟩ := List.mem_flatMap.1 h
  have hb := b.toNat_lt
  simp only [encodeByte, List.mem_cons, List.not_mem_nil, or_false] at hc
  rcases hc with rfl | rfl
  · exact mem_digits_iff.2 ⟨_, by omega, rfl⟩
  · exact mem_digits_iff.2 ⟨_, by omega, rfl⟩

theorem toLower_of_mem_encodeChars (h : c ∈ encodeChars bytes) : c.toLower = c := by
  have hall : ∀ d < 16, (digitOf d).toLower = digitOf d := by decide
  obtain ⟨d, hd, rfl⟩ := mem_digits_iff.1 (mem_encodeChars h)
  exact hall d hd

/-- What is written for bytes spells them. -/
theorem spells_encodeChars (bytes : List UInt8) : Spells (encodeChars bytes) bytes :=
  (List.map_congr_left fun _ hc => toLower_of_mem_encodeChars hc).trans (List.map_id _)

/-- **Twice as many digits spell bytes, and nothing else does.** -/
theorem exists_spells_iff :
    (∃ bytes, bytes.length = n ∧ Spells cs bytes) ↔ cs.length = 2 * n ∧ ∀ c ∈ cs, IsDigit c := by
  constructor
  · rintro ⟨bytes, rfl, h⟩
    refine ⟨by rw [← length_encodeChars bytes, ← h, List.length_map], fun c hc => ?_⟩
    exact mem_encodeChars (h ▸ List.mem_map_of_mem hc)
  · rintro ⟨hlength, hdigits⟩
    induction n generalizing cs with
    | zero =>
        obtain rfl := List.eq_nil_of_length_eq_zero hlength
        exact ⟨[], rfl, rfl⟩
    | succ n ih =>
        match cs, hlength with
        | c :: c' :: cs, hlength =>
            simp only [List.forall_mem_cons] at hdigits
            obtain ⟨hc, hc', hcs⟩ := hdigits
            obtain ⟨high, hhigh, hc⟩ := isDigit_iff_exists.1 hc
            obtain ⟨low, hlow, hc'⟩ := isDigit_iff_exists.1 hc'
            simp only [List.length_cons] at hlength
            obtain ⟨bytes, hbytes, hspells⟩ := ih (by omega) hcs
            refine ⟨UInt8.ofNat (high * 16 + low) :: bytes, by rw [List.length_cons, hbytes], ?_⟩
            rw [Spells, encodeChars_cons_byte, encodeByte_ofNat hhigh hlow, List.map_cons,
              List.map_cons, hc, hc', hspells]
            rfl

/-! ## Marks -/

/-- A text is some characters after a mark. -/
def IsMarked (text cs : List Char) : Prop := text = '0' :: 'x' :: cs ∨ text = '0' :: 'X' :: cs

theorem IsMarked.dropMarkChars_eq (h : IsMarked text cs) : dropMarkChars text = cs := by
  rcases h with rfl | rfl <;> rfl

/-- A text has a mark, or nothing is dropped of it. -/
theorem mark_cases (text : List Char) :
    (hasMarkChars text = true ∧ IsMarked text (dropMarkChars text)) ∨
      (hasMarkChars text = false ∧ dropMarkChars text = text) := by
  unfold hasMarkChars dropMarkChars
  split
  · exact .inl ⟨rfl, .inl rfl⟩
  · exact .inl ⟨rfl, .inr rfl⟩
  · exact .inr ⟨rfl, rfl⟩

/-- **A text with a mark is what follows the mark.** -/
theorem isMarked_iff : IsMarked text cs ↔ hasMarkChars text = true ∧ dropMarkChars text = cs := by
  constructor
  · intro h
    refine ⟨?_, h.dropMarkChars_eq⟩
    rcases h with rfl | rfl <;> rfl
  · rintro ⟨hmark, rfl⟩
    rcases mark_cases text with ⟨-, h⟩ | ⟨hnone, -⟩
    · exact h
    · cases hmark.symm.trans hnone

/-- The letter of a mark is no digit, so digits have no mark. -/
theorem dropMarkChars_of_isDigit (h : ∀ c ∈ cs, IsDigit c) : dropMarkChars cs = cs := by
  rcases mark_cases cs with ⟨-, hmark | hmark⟩ | ⟨-, heq⟩
  · rw [hmark] at h
    exact absurd (h 'x' (by simp)) (by decide)
  · rw [hmark] at h
    exact absurd (h 'X' (by simp)) (by decide)
  · exact heq

/-- Neither a mark nor digits are blank. -/
theorem IsMarked.isBlank_eq_false (h : IsMarked text cs) (hcs : ∀ c ∈ cs, IsDigit c) :
    ∀ c ∈ text, isBlank c = false := by
  have hdigits : ∀ c ∈ cs, isBlank c = false := fun c hc => (hcs c hc).isBlank_eq_false
  rcases h with rfl | rfl
  · exact List.forall_mem_cons.2 ⟨by decide, List.forall_mem_cons.2 ⟨by decide, hdigits⟩⟩
  · exact List.forall_mem_cons.2 ⟨by decide, List.forall_mem_cons.2 ⟨by decide, hdigits⟩⟩

/-- A text is some characters after at most one mark. -/
def MayBeMarked (text cs : List Char) : Prop := text = cs ∨ IsMarked text cs

theorem dropMarkChars_eq_iff (h : ∀ c ∈ cs, IsDigit c) :
    dropMarkChars text = cs ↔ MayBeMarked text cs := by
  constructor
  · rintro rfl
    rcases mark_cases text with ⟨-, hmark⟩ | ⟨-, heq⟩
    · exact .inr hmark
    · exact .inl heq.symm
  · rintro (rfl | hmark)
    · exact dropMarkChars_of_isDigit h
    · exact hmark.dropMarkChars_eq

/-! ## Texts -/

/-- **What is read as bytes.** -/
theorem decode_eq_ok_iff {s : String} :
    decode s = .ok bytes ↔ ∃ cs, MayBeMarked s.toList cs ∧ Spells cs bytes := by
  rw [decode, decodeBytes_eq_ok_iff]
  constructor
  · intro h
    obtain ⟨-, hdigits⟩ := exists_spells_iff.1 ⟨bytes, rfl, h⟩
    exact ⟨_, (dropMarkChars_eq_iff hdigits).1 rfl, h⟩
  · rintro ⟨cs, hmark, h⟩
    obtain ⟨-, hdigits⟩ := exists_spells_iff.1 ⟨bytes, rfl, h⟩
    rwa [(dropMarkChars_eq_iff hdigits).2 hmark]

/-- **What is taken for digits.** -/
theorem isDigits_iff {s : String} : isDigits s n = true ↔
    ∃ cs, MayBeMarked s.toList cs ∧ cs.length = n ∧ ∀ c ∈ cs, IsDigit c := by
  have hbody : isDigits s n = true ↔ (dropMarkChars s.toList).length = n ∧
      ∀ c ∈ dropMarkChars s.toList, IsDigit c := by
    simp [isDigits, isDigit_iff]
  rw [hbody]
  constructor
  · rintro ⟨hlength, hdigits⟩
    exact ⟨_, (dropMarkChars_eq_iff hdigits).1 rfl, hlength, hdigits⟩
  · rintro ⟨cs, hmark, hlength, hdigits⟩
    rw [(dropMarkChars_eq_iff hdigits).2 hmark]
    exact ⟨hlength, hdigits⟩

end BlindSign.Encoding.Hex

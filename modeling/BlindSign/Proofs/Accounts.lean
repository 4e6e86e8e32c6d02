import BlindSign.Values
import BlindSign.Proofs.Hex
import BlindSign.Proofs.Ledger
import BlindSign.Proofs.Trimming

set_option autoImplicit false

/-! # An account has one name

A text names an account by forty digits after a mark, with nothing but blank characters around them
(`IsWrittenWith`); the account is the one whose bytes the digits spell (`parse?_eq_some_iff`). Its
own name is such a text, with all letters in lower case.

**However an account is written, it is the same account with the same name, and different addresses
are different accounts** (`parse?_isNormal`). The ledger counts queries by the names of accounts, so
each address has a count of its own.
-/

namespace BlindSign

open Encoding

namespace Text

variable {c c' : Char} {cs cs' : List Char} {s s' text : String}

/-- Characters that differ at most in the case of letters. Only ASCII letters have a case here. -/
def SameLetters (cs cs' : List Char) : Prop := cs.map Char.toLower = cs'.map Char.toLower

instance (cs cs' : List Char) : Decidable (SameLetters cs cs') :=
  inferInstanceAs (Decidable (_ = _))

/-- No letter is blank, in either case. -/
theorem isBlank_toLower (c : Char) : isBlank c.toLower = isBlank c := by
  by_cases hc : c.toNat < 0x80
  · exact Hex.of_ascii (p := fun c => isBlank c.toLower = isBlank c) (by decide) hc
  · rw [Hex.toLower_of_le (Nat.le_of_not_lt hc)]

/-- What differs from blank characters in the case of letters is blank. -/
theorem SameLetters.forall_isBlank (h : SameLetters cs cs')
    (hblank : ∀ c ∈ cs', isBlank c = true) : ∀ c ∈ cs, isBlank c = true := by
  intro c hc
  have hmem : c.toLower ∈ cs'.map Char.toLower := h ▸ List.mem_map_of_mem hc
  obtain ⟨b, hb, hbc⟩ := List.mem_map.1 hmem
  rw [← isBlank_toLower, ← hbc, isBlank_toLower]
  exact hblank b hb

/-- Blank characters may be added around a text that has some already. -/
theorem IsPadded.append (h : IsPadded s text) {before after : String}
    (hbefore : ∀ c ∈ before.toList, isBlank c = true)
    (hafter : ∀ c ∈ after.toList, isBlank c = true) : IsPadded (before ++ s ++ after) text := by
  obtain ⟨front, back, rfl, hfront, hback⟩ := h
  refine ⟨before ++ front, back ++ after, by simp only [String.append_assoc], ?_, ?_⟩
  · simp only [String.toList_append, List.forall_mem_append]
    exact ⟨hbefore, hfront⟩
  · simp only [String.toList_append, List.forall_mem_append]
    exact ⟨hback, hafter⟩

/-- With the case of letters changed, a text still stands between blank characters. -/
theorem IsPadded.exists_of_sameLetters (h : IsPadded s text)
    (hs : SameLetters s'.toList s.toList) :
    ∃ text', SameLetters text'.toList text.toList ∧ IsPadded s' text' := by
  obtain ⟨before, after, rfl, hbefore, hafter⟩ := h
  unfold SameLetters at hs
  rw [String.toList_append, String.toList_append, List.map_append, List.map_append] at hs
  obtain ⟨front, back', hs', hfront, hback'⟩ := List.map_eq_append_iff.1 hs
  obtain ⟨before', cs, rfl, hbefore', hcs⟩ := List.map_eq_append_iff.1 hfront
  refine ⟨String.ofList cs, by rwa [SameLetters, String.toList_ofList], String.ofList before',
    String.ofList back', ?_, ?_, ?_⟩
  · rw [← String.ofList_append, ← String.ofList_append, ← hs', String.ofList_toList]
  · rw [String.toList_ofList]
    exact SameLetters.forall_isBlank hbefore' hbefore
  · rw [String.toList_ofList]
    exact SameLetters.forall_isBlank hback' hafter

end Text

open Text

/-- With the case of letters changed, a mark is still a mark. -/
theorem Encoding.Hex.IsMarked.exists_of_sameLetters {text text' digits : List Char}
    (h : Hex.IsMarked text digits) (ht : SameLetters text' text) :
    ∃ digits', SameLetters digits' digits ∧ Hex.IsMarked text' digits' := by
  have hzero : ∀ c : Char, c.toLower = '0' → c = '0' := fun c hc =>
    Hex.of_ascii (p := fun c => c.toLower = '0' → c = '0') (by decide)
      (Hex.toNat_lt_of_toLower (by rw [hc]; decide)) hc
  have hletter : ∀ c : Char, c.toLower = 'x' → c = 'x' ∨ c = 'X' := fun c hc =>
    Hex.of_ascii (p := fun c => c.toLower = 'x' → c = 'x' ∨ c = 'X') (by decide)
      (Hex.toNat_lt_of_toLower (by rw [hc]; decide)) hc
  have hmap : text'.map Char.toLower = '0' :: 'x' :: digits.map Char.toLower := by
    rcases h with rfl | rfl <;> exact ht
  obtain ⟨c, rest, rfl, hc, hrest⟩ := List.map_eq_cons_iff.1 hmap
  obtain ⟨c', digits', rfl, hc', hdigits⟩ := List.map_eq_cons_iff.1 hrest
  refine ⟨digits', hdigits, ?_⟩
  rw [hzero c hc]
  rcases hletter c' hc' with rfl | rfl
  · exact .inl rfl
  · exact .inr rfl

namespace Account

variable {a b : Account} {s s' : String} {digits digits' : List Char}

/-- A text has the form of an account, with these digits. -/
structure IsWrittenWith (s : String) (digits : List Char) : Prop where
  /-- The digits stand after a mark and between blank characters. -/
  isMarked : ∃ text, IsPadded s text ∧ Hex.IsMarked text.toList digits
  length_eq : digits.length = 40
  isDigit : ∀ c ∈ digits, Hex.IsDigit c

namespace IsWrittenWith

/-- What is left by trimming is the mark and the digits. -/
theorem isMarked_trim (h : IsWrittenWith s digits) : Hex.IsMarked (trim s).toList digits := by
  obtain ⟨text, hpadded, hmark⟩ := h.isMarked
  have hne : text ≠ "" := by
    rintro rfl
    rcases hmark with hmark | hmark <;> cases hmark
  -- neither the mark nor a digit is blank, so trimming stops at them
  rwa [trim_of_isPadded hpadded (hmark.isBlank_eq_false h.isDigit) hne]

/-- The digits are settled by the text. -/
theorem unique (h : IsWrittenWith s digits) (h' : IsWrittenWith s digits') : digits = digits' :=
  h.isMarked_trim.dropMarkChars_eq.symm.trans h'.isMarked_trim.dropMarkChars_eq

/-- The case of letters may be changed, and blank characters may be added. -/
theorem exists_of_sameLetters (h : IsWrittenWith s digits) (hs : SameLetters s'.toList s.toList)
    {before after : String} (hbefore : ∀ c ∈ before.toList, isBlank c = true)
    (hafter : ∀ c ∈ after.toList, isBlank c = true) :
    ∃ digits', SameLetters digits' digits ∧ IsWrittenWith (before ++ s' ++ after) digits' := by
  obtain ⟨text, hpadded, hmark⟩ := h.isMarked
  obtain ⟨text', htext, hpadded'⟩ := hpadded.exists_of_sameLetters hs
  obtain ⟨digits', hdigits, hmark'⟩ := hmark.exists_of_sameLetters htext
  refine ⟨digits', hdigits, ⟨text', hpadded'.append hbefore hafter, hmark'⟩, ?_, fun c hc => ?_⟩
  · rw [← h.length_eq, ← List.length_map Char.toLower, hdigits, List.length_map]
  · have hmem : c.toLower ∈ digits.map Char.toLower := hdigits ▸ List.mem_map_of_mem hc
    obtain ⟨d, hd, hdc⟩ := List.mem_map.1 hmem
    rw [Hex.IsDigit, ← hdc]
    exact h.isDigit d hd

end IsWrittenWith

/-- **What names an account.** -/
theorem parse?_eq_some_iff :
    parse? s = some a ↔ ∃ digits, IsWrittenWith s digits ∧ Hex.Spells digits a.bytes := by
  constructor
  · intro h
    unfold parse? at h
    by_cases hmark : Hex.hasMarkChars (trim s).toList = true
    · rw [if_pos hmark] at h
      cases hbytes : Hex.decode (trim s) with
      | error fault => simp [hbytes] at h
      | ok bytes =>
          -- the digits are counted only after they were decoded
          by_cases hlength : bytes.length = 20
          · simp only [hbytes, dif_pos hlength] at h
            obtain rfl := Option.some.inj h
            have hspells := Hex.decodeBytes_eq_ok_iff.1 hbytes
            obtain ⟨hforty, hdigits⟩ := Hex.exists_spells_iff.1 ⟨bytes, hlength, hspells⟩
            exact ⟨_, ⟨⟨_, isPadded_trim s, Hex.isMarked_iff.2 ⟨hmark, rfl⟩⟩, hforty, hdigits⟩,
              hspells⟩
          · simp [hbytes, hlength] at h
    · rw [if_neg hmark] at h
      cases h
  · rintro ⟨digits, hwritten, hspells⟩
    obtain ⟨hmark, hdrop⟩ := Hex.isMarked_iff.1 hwritten.isMarked_trim
    have hbytes : Hex.decode (trim s) = .ok a.bytes := by
      rw [Hex.decode, hdrop]
      exact Hex.decodeBytes_eq_ok_iff.2 hspells
    unfold parse?
    simp only [hmark, if_true, hbytes, a.length_bytes, dif_pos]

/-- A text of the right form names some account. -/
theorem IsWrittenWith.exists_parse? (h : IsWrittenWith s digits) : ∃ a, parse? s = some a := by
  obtain ⟨bytes, hlength, hspells⟩ := (Hex.exists_spells_iff (n := 20)).2 ⟨h.length_eq, h.isDigit⟩
  exact ⟨⟨bytes, hlength⟩, parse?_eq_some_iff.2 ⟨digits, h, hspells⟩⟩

/-- The name of an account has the digits that it was written with, in lower case. -/
theorem IsWrittenWith.text_eq (h : IsWrittenWith s digits) (ha : parse? s = some a) :
    a.text = "0x" ++ String.ofList (digits.map Char.toLower) := by
  obtain ⟨digits', hwritten, hspells⟩ := parse?_eq_some_iff.1 ha
  obtain rfl := h.unique hwritten
  rw [text, Hex.encode, hspells]

/-- Texts name one account just if they have the same digits. -/
theorem eq_iff_sameLetters (ha : parse? s = some a) (hb : parse? s' = some b)
    (h : IsWrittenWith s digits) (h' : IsWrittenWith s' digits') :
    a = b ↔ SameLetters digits digits' := by
  have htext := h.text_eq ha
  have htext' := h'.text_eq hb
  constructor
  · rintro rfl
    have hdigits := htext.symm.trans htext'
    simp only [← String.toList_inj, String.toList_append, String.toList_ofList] at hdigits
    exact List.append_cancel_left hdigits
  · intro hdigits
    refine text_inj ?_
    rw [htext, htext', hdigits]

/-- The name of an account is a text of the right form. -/
theorem isWrittenWith_text (a : Account) : IsWrittenWith a.text (Hex.encodeChars a.bytes) := by
  have hmark : a.text.toList = '0' :: 'x' :: Hex.encodeChars a.bytes := by
    rw [text, Hex.encode, String.toList_append, String.toList_ofList]
    simp
  refine ⟨⟨a.text, ⟨"", "", ?_, ?_, ?_⟩, .inl hmark⟩, ?_, fun c hc => ?_⟩
  · rw [String.empty_append, String.append_empty]
  · simp
  · simp
  · rw [Hex.length_encodeChars, a.length_bytes]
  · rw [Hex.IsDigit, Hex.toLower_of_mem_encodeChars hc]
    exact Hex.mem_encodeChars hc

/-- The name of an account names it. -/
theorem parse?_text (a : Account) : parse? a.text = some a :=
  parse?_eq_some_iff.2 ⟨_, a.isWrittenWith_text, Hex.spells_encodeChars a.bytes⟩

end Account

/-- A key that is registered under the name of an account is found for it and for no other. -/
theorem Ledger.registeredKey?_insert (l : Ledger) (a b : Account) {key : List UInt8}
    (hkey : key.length = 32) :
    { l with keys := l.keys.insert a.text key }.registeredKey? b =
      if b = a then some key else l.registeredKey? b := by
  have hname : b.text = a.text ↔ b = a := ⟨Account.text_inj, fun h => by rw [h]⟩
  unfold Ledger.registeredKey?
  dsimp only
  rw [Table.get?_insert, if_congr hname rfl rfl]
  split
  · simp [hkey]
  · rfl

namespace Account

variable {a : Account} {s : String}

/-- **An account has one name, and one place in the ledger.** The name is `0x` and forty digits in
lower case, and is read as the account itself. The account is the same however the letters are
written and whatever blank characters are added, and it is another account just if the digits are
others. So its queries are counted, and its key is kept, for all texts with its digits together and
for no other text. -/
theorem parse?_isNormal (h : parse? s = some a) :
    (∃ digits, a.text = "0x" ++ String.ofList digits ∧ digits.length = 40 ∧
      ∀ c ∈ digits, c ∈ "0123456789abcdef".toList) ∧
    parse? a.text = some a ∧
    (∀ before s' after : String, (∀ c ∈ before.toList, isBlank c = true) →
      SameLetters s'.toList s.toList → (∀ c ∈ after.toList, isBlank c = true) →
        parse? (before ++ s' ++ after) = some a) ∧
    (∃ digits, IsWrittenWith s digits) ∧
    ∀ s' b digits digits', parse? s' = some b →
      IsWrittenWith s digits → IsWrittenWith s' digits' →
        (parse? s = parse? s' ↔ SameLetters digits digits') ∧
        (∀ l l' : Ledger, l.increment? a = some l' → l'.count b =
          if SameLetters digits digits' then l.count a + 1 else l.count b) ∧
        (∀ (l : Ledger) (key : List UInt8), key.length = 32 →
          { l with keys := l.keys.insert a.text key }.registeredKey? b =
            if SameLetters digits digits' then some key else l.registeredKey? b) := by
  refine ⟨?_, a.parse?_text, ?_, ?_, ?_⟩
  · refine ⟨Hex.encodeChars a.bytes, rfl, ?_, fun c hc => Hex.mem_encodeChars hc⟩
    rw [Hex.length_encodeChars, a.length_bytes]
  · intro before s' after hbefore hs hafter
    obtain ⟨digits, hwritten, -⟩ := parse?_eq_some_iff.1 h
    obtain ⟨digits', hdigits, hwritten'⟩ := hwritten.exists_of_sameLetters hs hbefore hafter
    -- the other text names some account, and its digits are the same ones
    obtain ⟨b, hb⟩ := hwritten'.exists_parse?
    rw [hb, (eq_iff_sameLetters hb h hwritten' hwritten).2 hdigits]
  · obtain ⟨digits, hwritten, -⟩ := parse?_eq_some_iff.1 h
    exact ⟨digits, hwritten⟩
  · intro s' b digits digits' hb hwritten hwritten'
    have hiff := eq_iff_sameLetters h hb hwritten hwritten'
    refine ⟨?_, fun l l' hl => ?_, fun l key hkey => ?_⟩
    · rw [h, hb, Option.some.injEq, hiff]
    · rw [Ledger.count_increment? hl, if_congr (eq_comm.trans hiff) rfl rfl]
    · rw [Ledger.registeredKey?_insert l a b hkey, if_congr (eq_comm.trans hiff) rfl rfl]

/-- One account in capitals, and in both cases with a line break behind it. -/
theorem parse?_isNormal_of_capitals :
    parse? "\t0XABABABABABABABABABABABABABABABABABABABAB " =
        some ⟨List.replicate 20 0xAB, List.length_replicate⟩ ∧
      parse? ("" ++ "\t0xabABabABabABabABabABabABabABabABabABabAB " ++ "\n") =
        some ⟨List.replicate 20 0xAB, List.length_replicate⟩ := by
  have h : parse? "\t0XABABABABABABABABABABABABABABABABABABABAB " =
      some ⟨List.replicate 20 0xAB, List.length_replicate⟩ := by decide +kernel
  refine ⟨h, (parse?_isNormal h).2.2.1 _ _ _ (by simp) ?_ ?_⟩
  · decide +kernel
  · exact isAllBlank_iff.1 (by decide)

end Account

end BlindSign

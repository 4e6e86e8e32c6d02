import BlindSign.Json.StringText
import BlindSign.Proofs.Utf8

set_option autoImplicit false

/-! # Strings in JSON text are read back

`IsLegal` tells which raw bytes may stand between quotes, and `Spells` which of them stand for which
bytes: a byte for itself, or an escape for what it names. Whatever is legal is found by its closing
quote (`IsLegal.scan?_eq`), and what spells is legal and read as what it spells
(`Spells.unescape?_eq`). Writing spells the UTF-8 bytes of a text (`spells_encode`), so a text that
was written is read back (`decode?_encode`). Conversely, whatever is read of legal bytes was spelled
by them (`decode?_eq_some_iff`).
-/

namespace BlindSign.Json.RawText

open Text

/-- Whether a byte may stand between quotes and stands for itself. -/
def isPlain (b : UInt8) : Bool := 0x20 ≤ b.toNat && b ≠ 0x22 && b ≠ 0x5C

/-- Raw bytes that may stand between quotes. The digits of an escape need not name a character. -/
inductive IsLegal : RawText → Prop
  | nil : IsLegal []
  | plain {b : UInt8} {raw : RawText} (hb : isPlain b = true) (h : IsLegal raw) :
      IsLegal (b :: raw)
  | letter {b : UInt8} {raw : RawText} (hb : (escaped? b).isSome = true) (h : IsLegal raw) :
      IsLegal (0x5C :: b :: raw)
  | unit {a b c d : UInt8} {raw : RawText} (hn : (unit? a b c d).isSome = true)
      (h : IsLegal raw) : IsLegal (0x5C :: 0x75 :: a :: b :: c :: d :: raw)

/-- Raw bytes between quotes with the bytes that they stand for. -/
inductive Spells : RawText → List UInt8 → Prop
  | nil : Spells [] []
  /-- A byte stands for itself. -/
  | plain {b : UInt8} {raw : RawText} {bytes : List UInt8} (hb : isPlain b = true)
      (h : Spells raw bytes) : Spells (b :: raw) (b :: bytes)
  /-- A letter after a backslash stands for the byte that it names. -/
  | letter {b c : UInt8} {raw : RawText} {bytes : List UInt8} (hb : escaped? b = some c)
      (h : Spells raw bytes) : Spells (0x5C :: b :: raw) (c :: bytes)
  /-- Four digits stand for the character with that code point. -/
  | unit {a b c d : UInt8} {n : Nat} {ch : Char} {raw : RawText} {bytes : List UInt8}
      (hn : unit? a b c d = some n) (hch : Utf8.charOfCode? n = some ch) (h : Spells raw bytes) :
      Spells (0x5C :: 0x75 :: a :: b :: c :: d :: raw) (Utf8.encodeChar ch ++ bytes)
  /-- Four digits and, after another escape, four more stand for the character with that pair of
  surrogates. -/
  | pair {a b c d a' b' c' d' : UInt8} {lead trail : Nat} {ch : Char} {raw : RawText}
      {bytes : List UInt8} (hlead : unit? a b c d = some lead) (hl : isLead lead = true)
      (htrail : unit? a' b' c' d' = some trail) (ht : isTrail trail = true)
      (hch : Utf8.charOfCode? (0x10000 + (lead - 0xD800) * 0x400 + (trail - 0xDC00)) = some ch)
      (h : Spells raw bytes) :
      Spells (0x5C :: 0x75 :: a :: b :: c :: d :: 0x5C :: 0x75 :: a' :: b' :: c' :: d' :: raw)
        (Utf8.encodeChar ch ++ bytes)

/-- What spells is legal. -/
theorem Spells.isLegal {raw : RawText} {bytes : List UInt8} (h : Spells raw bytes) :
    raw.IsLegal := by
  induction h with
  | nil => exact .nil
  | plain hb _ ih => exact .plain hb ih
  | letter hb _ ih => exact .letter (by simp [hb]) ih
  | unit hn _ _ ih => exact .unit (by simp [hn]) ih
  | pair hlead _ htrail _ _ _ ih => exact .unit (by simp [hlead]) (.unit (by simp [htrail]) ih)

/-! ## What is legal is found -/

theorem isPlain_iff {b : UInt8} : isPlain b = true ↔ 0x20 ≤ b.toNat ∧ b ≠ 0x22 ∧ b ≠ 0x5C := by
  simp [isPlain, and_assoc]

/-- The letter `u` names no byte. -/
theorem ne_of_isSome_escaped? {b : UInt8} (h : (escaped? b).isSome = true) : b ≠ 0x75 := by
  rintro rfl
  revert h
  decide

theorem isSome_of_unit? {a b c d : UInt8} (h : (unit? a b c d).isSome = true) :
    (hexDigit? a).isSome = true ∧ (hexDigit? b).isSome = true ∧ (hexDigit? c).isSome = true ∧
      (hexDigit? d).isSome = true := by
  unfold unit? at h
  cases ha : hexDigit? a with
  | none => simp [ha] at h
  | some _ =>
      cases hb : hexDigit? b with
      | none => simp [ha, hb] at h
      | some _ =>
          cases hc : hexDigit? c with
          | none => simp [ha, hb, hc] at h
          | some _ =>
              cases hd : hexDigit? d with
              | none => simp [ha, hb, hc, hd] at h
              | some _ => simp

theorem IsLegal.scanFrom_eq {raw : RawText} (h : raw.IsLegal) (seen rest : List UInt8) :
    scanFrom .text seen (raw ++ rest) = scanFrom .text (raw.reverse ++ seen) rest := by
  induction h generalizing seen with
  | nil => rfl
  | plain hb _ ih =>
      obtain ⟨hlow, hquote, hslash⟩ := isPlain_iff.1 hb
      have hcontrol : ¬ _ < 0x20 := Nat.not_lt.2 hlow
      simp [scanFrom, hquote, hslash, hcontrol, ih]
  | letter hb _ ih =>
      have hu := ne_of_isSome_escaped? hb
      simp [scanFrom, hu, hb, ih]
  | unit hn _ ih =>
      obtain ⟨ha, hb, hc, hd⟩ := isSome_of_unit? hn
      simp [scanFrom, ha, hb, hc, hd, ih]

/-- What is legal ends at the closing quote. -/
theorem IsLegal.scan?_eq {raw : RawText} (h : raw.IsLegal) (rest : List UInt8) :
    scan? (raw ++ 0x22 :: rest) = some (raw, rest) := by
  rw [scan?, h.scanFrom_eq]
  simp [scanFrom]

/-! ## What spells is read -/

/-- The code point of a character is that of no surrogate. -/
theorem not_surrogate_of_charOfCode? {n : Nat} {ch : Char} (h : Utf8.charOfCode? n = some ch) :
    isLead n = false ∧ isTrail n = false := by
  have hvalid : n.isValidChar := by
    rw [← Utf8.toNat_of_charOfCode? h]
    exact ch.valid
  unfold Nat.isValidChar at hvalid
  simp only [isLead, isTrail, Bool.and_eq_false_iff, decide_eq_false_iff_not]
  omega

theorem nextEscaped?_letter {b c : UInt8} (h : escaped? b = some c) (rest : List UInt8) :
    nextEscaped? (b :: rest) = some ([c], rest) := by
  simp [nextEscaped?, ne_of_isSome_escaped? (b := b) (by simp [h]), h]

theorem nextEscaped?_unit {a b c d : UInt8} {n : Nat} {ch : Char} (hn : unit? a b c d = some n)
    (hch : Utf8.charOfCode? n = some ch) (rest : List UInt8) :
    nextEscaped? (0x75 :: a :: b :: c :: d :: rest) = some (Utf8.encodeChar ch, rest) := by
  obtain ⟨hlead, htrail⟩ := not_surrogate_of_charOfCode? hch
  simp [nextEscaped?, nextUnicode?, nextUnit?, hn, hlead, htrail, hch]

theorem nextEscaped?_pair {a b c d a' b' c' d' : UInt8} {lead trail : Nat} {ch : Char}
    (hlead : unit? a b c d = some lead) (hl : isLead lead = true)
    (htrail : unit? a' b' c' d' = some trail) (ht : isTrail trail = true)
    (hch : Utf8.charOfCode? (0x10000 + (lead - 0xD800) * 0x400 + (trail - 0xDC00)) = some ch)
    (rest : List UInt8) :
    nextEscaped? (0x75 :: a :: b :: c :: d :: 0x5C :: 0x75 :: a' :: b' :: c' :: d' :: rest) =
      some (Utf8.encodeChar ch, rest) := by
  have hnot : isTrail lead = false := by
    simp only [isLead, Bool.and_eq_true, decide_eq_true_eq] at hl
    simp only [isTrail, Bool.and_eq_false_iff, decide_eq_false_iff_not]
    omega
  simp [nextEscaped?, nextUnicode?, nextUnit?, hlead, hl, hnot, htrail, ht, hch]

theorem Spells.unescapeFrom_eq {raw : RawText} {bytes : List UInt8} (h : Spells raw bytes)
    (fuel : Nat) (seen : List UInt8) (hf : raw.length ≤ fuel) :
    unescapeFrom fuel seen raw = some (seen.reverse ++ bytes) := by
  induction h generalizing fuel seen with
  | nil => simp [unescapeFrom]
  | @plain b raw bytes hb _ ih =>
      obtain ⟨_, _, hslash⟩ := isPlain_iff.1 hb
      obtain ⟨fuel, rfl⟩ := Nat.exists_eq_add_one_of_ne_zero (Nat.ne_zero_of_lt hf)
      rw [List.length_cons] at hf
      simp [unescapeFrom, hslash, ih fuel (b :: seen) (by omega)]
  | @letter b c raw bytes hb _ ih =>
      obtain ⟨fuel, rfl⟩ := Nat.exists_eq_add_one_of_ne_zero (Nat.ne_zero_of_lt hf)
      simp only [List.length_cons] at hf
      simp [unescapeFrom, nextEscaped?_letter hb, ih fuel (c :: seen) (by omega)]
  | @unit a b c d n ch raw bytes hn hch _ ih =>
      obtain ⟨fuel, rfl⟩ := Nat.exists_eq_add_one_of_ne_zero (Nat.ne_zero_of_lt hf)
      simp only [List.length_cons] at hf
      have htail := ih fuel ((Utf8.encodeChar ch).reverse ++ seen) (by omega)
      simp [unescapeFrom, nextEscaped?_unit hn hch, htail]
  | @pair a b c d a' b' c' d' lead trail ch raw bytes hlead hl htrail ht hch _ ih =>
      obtain ⟨fuel, rfl⟩ := Nat.exists_eq_add_one_of_ne_zero (Nat.ne_zero_of_lt hf)
      simp only [List.length_cons] at hf
      -- twelve bytes of the text were read, so the fuel is enough for the rest
      have htail := ih fuel ((Utf8.encodeChar ch).reverse ++ seen) (by omega)
      simp [unescapeFrom, nextEscaped?_pair hlead hl htrail ht hch, htail]

/-- What spells bytes is read as them. -/
theorem Spells.unescape?_eq {raw : RawText} {bytes : List UInt8} (h : Spells raw bytes) :
    unescape? raw = some bytes := h.unescapeFrom_eq raw.length [] (Nat.le_refl _)

/-! ## Writing spells -/

theorem Spells.plains {bs : List UInt8} (hb : ∀ b ∈ bs, isPlain b = true) {raw : RawText}
    {bytes : List UInt8} (h : Spells raw bytes) : Spells (bs ++ raw) (bs ++ bytes) := by
  induction bs with
  | nil => exact h
  | cons b bs ih =>
      exact .plain (hb b List.mem_cons_self) (ih fun b hb' => hb b (List.mem_cons_of_mem _ hb'))

theorem isPlain_ofNat {n : Nat} (hlow : 0x20 ≤ n) (hhigh : n < 256) (hquote : n ≠ 0x22)
    (hslash : n ≠ 0x5C) : isPlain (UInt8.ofNat n) = true := by
  have hn : (UInt8.ofNat n).toNat = n := Utf8.toNat_ofNat_of_lt hhigh
  refine isPlain_iff.2 ⟨by omega, ?_, ?_⟩
  · intro h
    rw [h] at hn
    exact hquote hn.symm
  · intro h
    rw [h] at hn
    exact hslash hn.symm

/-- Only quotes, backslashes and control characters need an escape. -/
theorem isPlain_of_mem_encodeChar {c : Char} (hquote : c ≠ '"') (hslash : c ≠ '\\')
    (hcontrol : ¬ c.toNat < 0x20) : ∀ b ∈ Utf8.encodeChar c, isPlain b = true := by
  have hquote' : c.toNat ≠ 0x22 := fun h => hquote (Char.toNat_inj.1 h)
  have hslash' : c.toNat ≠ 0x5C := fun h => hslash (Char.toNat_inj.1 h)
  have hmax := Utf8.toNat_lt c
  have hhigh : ∀ n, 0x80 ≤ n → n < 256 → isPlain (UInt8.ofNat n) = true :=
    fun n hl hh => isPlain_ofNat (by omega) hh (by omega) (by omega)
  by_cases hone : c.toNat < 0x80
  · rw [Utf8.encodeChar_ascii hone]
    simp only [List.mem_singleton, forall_eq]
    exact isPlain_ofNat (by omega) (by omega) hquote' hslash'
  · -- all bytes of a longer form are above ASCII
    by_cases htwo : c.toNat < 0x800
    · rw [Utf8.encodeChar_two rfl (by omega) htwo]
      simp only [List.forall_mem_cons]
      exact ⟨hhigh _ (by omega) (by omega), hhigh _ (by omega) (by omega), by simp⟩
    · by_cases hthree : c.toNat < 0x10000
      · rw [Utf8.encodeChar_three rfl (by omega) hthree]
        simp only [List.forall_mem_cons]
        exact ⟨hhigh _ (by omega) (by omega), hhigh _ (by omega) (by omega),
          hhigh _ (by omega) (by omega), by simp⟩
      · rw [Utf8.encodeChar_four rfl (by omega)]
        simp only [List.forall_mem_cons]
        exact ⟨hhigh _ (by omega) (by omega), hhigh _ (by omega) (by omega),
          hhigh _ (by omega) (by omega), hhigh _ (by omega) (by omega), by simp⟩

/-- A control character without a letter of its own is written with four digits. -/
theorem unit?_digitByte {n : Nat} (h : n < 0x20) :
    unit? 0x30 0x30 (digitByte (n / 16)) (digitByte (n % 16)) = some n := by
  have hall : ∀ n < 0x20, unit? 0x30 0x30 (digitByte (n / 16)) (digitByte (n % 16)) = some n := by
    decide
  exact hall n h

/-- A written character spells its UTF-8 bytes. -/
theorem Spells.encodeChar (c : Char) {raw : RawText} {bytes : List UInt8} (h : Spells raw bytes) :
    Spells (encodeChar c ++ raw) (Utf8.encodeChar c ++ bytes) := by
  -- a control character is one byte, and its letter names that byte
  have hletter : ∀ (n : Nat) (b : UInt8), n < 0x80 → c.toNat = n →
      escaped? b = some (UInt8.ofNat n) →
        Spells ([0x5C, b] ++ raw) (Utf8.encodeChar c ++ bytes) := by
    intro n b hn hc hb
    rw [Utf8.encodeChar_ascii (by omega), hc]
    exact .letter hb h
  unfold RawText.encodeChar
  by_cases hquote : c = '"'
  · subst hquote
    exact hletter 0x22 0x22 (by decide) rfl (by decide)
  · rw [if_neg hquote]
    by_cases hslash : c = '\\'
    · subst hslash
      exact hletter 0x5C 0x5C (by decide) rfl (by decide)
    · rw [if_neg hslash]
      by_cases hcontrol : c.toNat < 0x20
      · rw [if_pos hcontrol]
        split
        · next hc => exact hletter 0x08 0x62 (by decide) hc (by decide)
        · split
          · next hc => exact hletter 0x09 0x74 (by decide) hc (by decide)
          · split
            · next hc => exact hletter 0x0A 0x6E (by decide) hc (by decide)
            · split
              · next hc => exact hletter 0x0C 0x66 (by decide) hc (by decide)
              · split
                · next hc => exact hletter 0x0D 0x72 (by decide) hc (by decide)
                · exact .unit (unit?_digitByte hcontrol) (Utf8.charOfCode?_toNat c) h
      · rw [if_neg hcontrol]
        exact h.plains (isPlain_of_mem_encodeChar hquote hslash hcontrol)

/-- A written text spells its UTF-8 bytes. -/
theorem spells_encode (s : String) : Spells (encode s) (Utf8.encode s) := by
  unfold encode Utf8.encode
  induction s.toList with
  | nil => exact .nil
  | cons c cs ih =>
      rw [List.flatMap_cons, Utf8.encodeChars_cons]
      exact ih.encodeChar c

/-- Every spelling of a text is read as the text. -/
theorem Spells.decode?_eq {raw : RawText} {s : String} (h : Spells raw (Utf8.encode s)) :
    decode? raw = some s := by
  rw [decode?, h.unescape?_eq]
  exact Utf8.decode?_encode s

/-- A text that was written is read back. -/
theorem decode?_encode (s : String) : decode? (encode s) = some s := (spells_encode s).decode?_eq

/-! ## What is read was spelled -/

theorem nextUnit?_eq_some {bs rest : List UInt8} {n : Nat} (h : nextUnit? bs = some (n, rest)) :
    ∃ a b c d, bs = a :: b :: c :: d :: rest ∧ unit? a b c d = some n := by
  unfold nextUnit? at h
  split at h
  · next a b c d tail =>
      obtain ⟨m, hm, hrest⟩ := Option.map_eq_some_iff.1 h
      obtain ⟨rfl, rfl⟩ := Prod.mk.inj hrest
      exact ⟨a, b, c, d, rfl, hm⟩
  · cases h

/-- The letter `u` has no meaning of its own, so an escape with it has four digits. -/
theorem IsLegal.exists_unit {raw : RawText} (h : IsLegal (0x5C :: 0x75 :: raw)) :
    ∃ a b c d tail, raw = a :: b :: c :: d :: tail ∧ IsLegal tail := by
  cases h with
  | plain hb _ => cases hb
  | letter hb _ => exact absurd rfl (ne_of_isSome_escaped? hb)
  | unit _ h => exact ⟨_, _, _, _, _, rfl, h⟩

/-- What is read for the digits of an escape is spelled by them, and by those of a second escape if
they are the first of a pair. -/
theorem spells_of_nextUnicode? {raw rest : List UInt8} {ch : Char}
    (hlegal : IsLegal (0x5C :: 0x75 :: raw)) (h : nextUnicode? raw = some (ch, rest)) :
    IsLegal rest ∧ ∀ bytes, Spells rest bytes →
      Spells (0x5C :: 0x75 :: raw) (Utf8.encodeChar ch ++ bytes) := by
  obtain ⟨⟨lead, tail⟩, hnext, hread⟩ := Option.bind_eq_some_iff.1 h
  obtain ⟨a, b, c, d, rfl, hlead⟩ := nextUnit?_eq_some hnext
  obtain ⟨_, _, _, _, _, hraw, htail⟩ := hlegal.exists_unit
  simp only [List.cons.injEq] at hraw
  obtain ⟨-, -, -, -, rfl⟩ := hraw
  dsimp only at hread
  split at hread
  · cases hread
  · split at hread
    · next hl =>
        -- the first of a pair: a second escape follows
        split at hread
        · next tail =>
            obtain ⟨⟨trail, tail'⟩, hnext', hread'⟩ := Option.bind_eq_some_iff.1 hread
            obtain ⟨a', b', c', d', rfl, htrail⟩ := nextUnit?_eq_some hnext'
            obtain ⟨_, _, _, _, _, hraw, hrest⟩ := htail.exists_unit
            simp only [List.cons.injEq] at hraw
            obtain ⟨-, -, -, -, rfl⟩ := hraw
            split at hread'
            · next ht =>
                obtain ⟨ch', hch, hpair⟩ := Option.map_eq_some_iff.1 hread'
                obtain ⟨rfl, rfl⟩ := Prod.mk.inj hpair
                exact ⟨hrest, fun bytes hbytes => .pair hlead hl htrail ht hch hbytes⟩
            · cases hread'
        · cases hread
    · obtain ⟨ch', hch, hpair⟩ := Option.map_eq_some_iff.1 hread
      obtain ⟨rfl, rfl⟩ := Prod.mk.inj hpair
      exact ⟨htail, fun bytes hbytes => .unit hlead hch hbytes⟩

/-- What is read for an escape is spelled by it. -/
theorem spells_of_nextEscaped? {raw rest : List UInt8} {new : List UInt8}
    (hlegal : IsLegal (0x5C :: raw)) (h : nextEscaped? raw = some (new, rest)) :
    IsLegal rest ∧ ∀ bytes, Spells rest bytes → Spells (0x5C :: raw) (new ++ bytes) := by
  cases raw with
  | nil => cases h
  | cons b raw =>
      unfold nextEscaped? at h
      dsimp only at h
      split at h
      · next hu =>
          subst hu
          obtain ⟨⟨ch, rest'⟩, hch, hpair⟩ := Option.map_eq_some_iff.1 h
          obtain ⟨rfl, rfl⟩ := Prod.mk.inj hpair
          exact spells_of_nextUnicode? hlegal hch
      · next hu =>
          obtain ⟨c, hc, hpair⟩ := Option.map_eq_some_iff.1 h
          obtain ⟨rfl, rfl⟩ := Prod.mk.inj hpair
          refine ⟨?_, fun bytes hbytes => .letter hc hbytes⟩
          cases hlegal with
          | plain hb _ => cases hb
          | letter _ h => exact h
          | unit _ _ => exact absurd rfl hu

theorem unescapeFrom_sound {fuel : Nat} {seen bytes : List UInt8} {raw : RawText}
    (hlegal : raw.IsLegal) (h : unescapeFrom fuel seen raw = some bytes) :
    ∃ new, bytes = seen.reverse ++ new ∧ Spells raw new := by
  induction fuel generalizing seen raw with
  | zero =>
      cases raw with
      | nil =>
          obtain rfl := Option.some.inj h
          exact ⟨[], by simp, .nil⟩
      | cons b raw => cases h
  | succ fuel ih =>
      cases raw with
      | nil =>
          obtain rfl := Option.some.inj h
          exact ⟨[], by simp, .nil⟩
      | cons b raw =>
          unfold unescapeFrom at h
          split at h
          · next hslash =>
              subst hslash
              split at h
              · next new rest hnext =>
                  obtain ⟨hrest, hspells⟩ := spells_of_nextEscaped? hlegal hnext
                  obtain ⟨later, hbytes, hlater⟩ := ih hrest h
                  exact ⟨new ++ later, by simpa using hbytes, hspells later hlater⟩
              · cases h
          · next hslash =>
              -- a byte that is no backslash is no escape
              cases hlegal with
              | plain hb hraw =>
                  obtain ⟨later, hbytes, hlater⟩ := ih hraw h
                  exact ⟨b :: later, by simpa using hbytes, .plain hb hlater⟩
              | letter _ _ => exact absurd rfl hslash
              | unit _ _ => exact absurd rfl hslash

/-- **The text that is read is the one that is spelled.** -/
theorem decode?_eq_some_iff {raw : RawText} (hlegal : raw.IsLegal) {s : String} :
    decode? raw = some s ↔ Spells raw (Utf8.encode s) := by
  constructor
  · intro h
    obtain ⟨bytes, hbytes, hs⟩ := Option.bind_eq_some_iff.1 h
    obtain ⟨new, rfl, hspells⟩ := unescapeFrom_sound hlegal hbytes
    rw [Utf8.decode?_eq_some_iff] at hs
    exact hs ▸ hspells
  · exact Spells.decode?_eq

end BlindSign.Json.RawText

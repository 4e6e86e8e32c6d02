import BlindSign.Engine
import BlindSign.Proofs.Digits
import BlindSign.Proofs.Hex
import BlindSign.Proofs.Integers
import BlindSign.Proofs.Trimming

set_option autoImplicit false

/-! # Which texts configure a key share

The scalar of a key share is looked at twice: when the share is loaded, and whenever something is
signed with it. Both look at the number that its 32 bytes spell.

**A text configures a share if and only if it is, between blank characters and after at most one
mark, 64 hexadecimal digits of a number below the order of the group; the digits then spell the
bytes of the share, and no query is ever refused for its scalar** (`KeyShare.load_spec`). What the
engine answers depends on the point of the query alone.

Digits come in pairs and bytes are pairs of digits, so digits that spell bytes spell in radix
sixteen what the bytes spell (`Encoding.Hex.Spells.natOfBytes`).
-/

namespace BlindSign

open Encoding

/-! ## Digits of bytes -/

namespace Numeral

variable {radix m n : Nat} {cs : List Char}

/-- Digits spell one number. -/
theorem Spells.unique (h : Spells radix cs n) (h' : Spells radix cs m) : n = m := by
  obtain ⟨-, -, hn⟩ := spells_iff.1 h
  obtain ⟨-, -, hm⟩ := spells_iff.1 h'
  exact hn.trans hm.symm

end Numeral

namespace Encoding.Hex

variable {c : Char} {cs : List Char} {bytes : List UInt8} {d : Nat}

/-- The digits of radix sixteen are those which have the digit for their lower case. -/
theorem numeralIsDigit_iff (hd : d < 16) : Numeral.IsDigit 16 c d ↔ c.toLower = digitOf d := by
  constructor
  · have hall : ∀ d < 16, d.digitChar.toLower = digitOf d ∧
        d.digitChar.toUpper.toLower = digitOf d := by decide
    rintro ⟨-, -, rfl | rfl⟩
    · exact (hall d hd).1
    · exact (hall d hd).2
  · intro h
    have hall : ∀ n < 0x80, ∀ d < 16, (Char.ofNat n).toLower = digitOf d →
        Numeral.IsDigit 16 (Char.ofNat n) d := by
      decide +kernel
    have hc : c.toNat < 0x80 := toNat_lt_of_toLower (h ▸ toNat_digitOf_lt hd)
    exact of_ascii (p := fun c => c.toLower = digitOf d → Numeral.IsDigit 16 c d)
      (fun n hn => hall n hn d hd) hc h

/-- The values of the two digits of each byte. -/
def nibbles (bytes : List UInt8) : List Nat :=
  bytes.flatMap fun b => [b.toNat / 16, b.toNat % 16]

/-- Two digits of a byte count as much as the byte. -/
theorem extend_nibbles (acc : Nat) (bytes : List UInt8) :
    Numeral.extend 16 acc (nibbles bytes) = bytes.foldl (fun n b => n * 256 + b.toNat) acc := by
  induction bytes generalizing acc with
  | nil => rfl
  | cons b bytes ih =>
      have hbyte : (acc * 16 + b.toNat / 16) * 16 + b.toNat % 16 = acc * 256 + b.toNat := by omega
      calc Numeral.extend 16 acc (nibbles (b :: bytes))
          = Numeral.extend 16 ((acc * 16 + b.toNat / 16) * 16 + b.toNat % 16) (nibbles bytes) := rfl
        _ = bytes.foldl (fun n b => n * 256 + b.toNat) (acc * 256 + b.toNat) := by rw [hbyte, ih]

/-- Digits that spell bytes have the values of the digits of the bytes. -/
theorem Spells.forall₂_isDigit (h : Spells cs bytes) :
    List.Forall₂ (Numeral.IsDigit 16) cs (nibbles bytes) := by
  induction bytes generalizing cs with
  | nil =>
      obtain rfl : cs = [] := List.map_eq_nil_iff.1 h
      exact .nil
  | cons b bytes ih =>
      obtain ⟨c, cs, rfl, hc, h⟩ := List.map_eq_cons_iff.1 h
      obtain ⟨c', cs, rfl, hc', hrest⟩ := List.map_eq_cons_iff.1 h
      have hb := b.toNat_lt
      have hhigh := (numeralIsDigit_iff (d := b.toNat / 16) (by omega)).2 hc
      have hlow := (numeralIsDigit_iff (d := b.toNat % 16) (by omega)).2 hc'
      exact .cons hhigh (.cons hlow (ih hrest))

/-- **Digits that spell bytes spell the number that the bytes spell.** -/
theorem Spells.natOfBytes (h : Spells cs bytes) (hne : bytes ≠ []) :
    Numeral.Spells 16 cs (Encoding.natOfBytes bytes) := by
  refine ⟨?_, nibbles bytes, h.forall₂_isDigit, ?_⟩
  · rintro rfl
    have hlength : (encodeChars bytes).length = 0 := congrArg List.length h.symm
    rw [length_encodeChars] at hlength
    exact hne (List.eq_nil_of_length_eq_zero (by omega))
  · rw [← Numeral.extend_zero, extend_nibbles]
    rfl

/-- What spells a number in radix sixteen is hexadecimal digits. -/
theorem isDigit_of_spells {n : Nat} (h : Numeral.Spells 16 cs n) : ∀ c ∈ cs, IsDigit c := by
  intro c hc
  obtain ⟨d, hd⟩ := Option.isSome_iff_exists.1 ((Numeral.spells_iff.1 h).2.1 c hc)
  have hdigit : Numeral.IsDigit 16 c d := Numeral.digit?_eq_some_iff.1 hd
  exact isDigit_iff_exists.2 ⟨d, hdigit.1, (numeralIsDigit_iff hdigit.1).1 hdigit⟩

end Encoding.Hex

/-! ## Loading -/

namespace KeyShare

variable {raw : String} {digits : List Char} {share : KeyShare}

/-- A text holds digits: between blank characters, and after at most one mark. -/
def Holds (raw : String) (digits : List Char) : Prop :=
  ∃ text, Text.IsPadded raw text ∧ Hex.MayBeMarked text.toList digits

/-- Digits are held just if they are left after trimming, and after at most one mark. -/
theorem holds_iff (hne : digits ≠ []) (hdigits : ∀ c ∈ digits, Hex.IsDigit c) :
    Holds raw digits ↔ Hex.MayBeMarked (Text.trim raw).toList digits := by
  constructor
  · rintro ⟨text, hpadded, hmark⟩
    have htext : (∀ c ∈ text.toList, Text.isBlank c = false) ∧ text.toList ≠ [] := by
      rcases hmark with heq | hmark
      · rw [heq]
        exact ⟨fun c hc => (hdigits c hc).isBlank_eq_false, hne⟩
      · refine ⟨hmark.isBlank_eq_false hdigits, fun hnil => ?_⟩
        rw [hnil] at hmark
        rcases hmark with hmark | hmark <;> cases hmark
    rw [Text.trim_of_isPadded hpadded htext.1 fun hempty => htext.2 (by rw [hempty]; rfl)]
    exact hmark
  · exact fun hmark => ⟨_, Text.isPadded_trim raw, hmark⟩

/-- A share is its bytes. -/
theorem eq_of_bytes {share share' : KeyShare} (h : share.bytes = share'.bytes) :
    share = share' := by
  cases share
  cases share'
  subst h
  rfl

theorem scalar?_eq_some_iff {n : Nat} : share.scalar? = some n ↔
    n = natOfBytes share.bytes ∧ natOfBytes share.bytes < Curve.Bls12381.groupOrder := by
  unfold KeyShare.scalar? Curve.Bls12381.scalar?
  by_cases hlt : natOfBytes share.bytes < Curve.Bls12381.groupOrder
  · simp [hlt, eq_comm]
  · simp [hlt]

theorem isSome_scalar?_iff :
    share.scalar?.isSome = true ↔ natOfBytes share.bytes < Curve.Bls12381.groupOrder := by
  rw [Option.isSome_iff_exists]
  constructor
  · rintro ⟨n, hn⟩
    exact (scalar?_eq_some_iff.1 hn).2
  · exact fun hlt => ⟨_, scalar?_eq_some_iff.2 ⟨rfl, hlt⟩⟩

/-- A blank text configures nothing. -/
theorem load_of_isAllBlank (h : Text.isAllBlank raw = true) : load raw = .error .missing :=
  if_pos h

/-- What a text that is not blank configures. -/
theorem load_of_not_isAllBlank (h : Text.isAllBlank raw = false) :
    (∃ share, load raw = .ok share ∧ Hex.decode (Text.trim raw) = .ok share.bytes ∧
      natOfBytes share.bytes < Curve.Bls12381.groupOrder) ∨
    ((∃ defect, load raw = .error (.malformed defect)) ∧
      ∀ share : KeyShare, Hex.decode (Text.trim raw) = .ok share.bytes →
        ¬ natOfBytes share.bytes < Curve.Bls12381.groupOrder) := by
  have hne : ¬ (Text.trim raw).isEmpty = true := by
    rw [← Text.isAllBlank, h]
    decide
  simp only [load, if_neg hne]
  -- the checks in their order: the digits, the number of bytes, the scalar
  cases hdecode : Hex.decode (Text.trim raw) with
  | error fault =>
      refine .inr ⟨⟨_, rfl⟩, fun share hshare => ?_⟩
      cases hshare
  | ok bytes =>
      by_cases hlength : bytes.length = 32
      · by_cases hscalar : (KeyShare.mk bytes hlength).scalar?.isSome = true
        · refine .inl ⟨⟨bytes, hlength⟩, ?_, rfl, isSome_scalar?_iff.1 hscalar⟩
          exact (dif_pos hlength).trans (if_pos hscalar)
        · refine .inr ⟨⟨.notScalar, ?_⟩, fun share hshare hlt => hscalar ?_⟩
          · exact (dif_pos hlength).trans (if_neg hscalar)
          · obtain rfl := Except.ok.inj hshare
            exact isSome_scalar?_iff.2 hlt
      · refine .inr ⟨⟨.wrongLength bytes.length, ?_⟩, fun share hshare _ => hlength ?_⟩
        · exact dif_neg hlength
        · obtain rfl := Except.ok.inj hshare
          exact share.length_bytes

/-- A share is loaded if its bytes are read from what is left after trimming, and its scalar is
below the order of the group. -/
theorem load_eq_ok_iff_decode : load raw = .ok share ↔
    Hex.decode (Text.trim raw) = .ok share.bytes ∧
      natOfBytes share.bytes < Curve.Bls12381.groupOrder := by
  cases hblank : Text.isAllBlank raw with
  | true =>
      have hempty : Text.trim raw = "" := String.isEmpty_iff.1 hblank
      have hdecode : Hex.decode (Text.trim raw) = .ok [] := by
        rw [hempty]
        rfl
      rw [load_of_isAllBlank hblank, hdecode]
      constructor
      · intro h
        cases h
      · rintro ⟨h, -⟩
        -- a share has bytes
        have hlength := share.length_bytes
        rw [← Except.ok.inj h] at hlength
        cases hlength
  | false =>
      rcases load_of_not_isAllBlank hblank with ⟨share', hload, hdecode, hlt⟩ | ⟨⟨defect, hload⟩, hno⟩
      · rw [hload, hdecode]
        constructor
        · intro h
          obtain rfl := Except.ok.inj h
          exact ⟨rfl, hlt⟩
        · rintro ⟨h, -⟩
          rw [eq_of_bytes (Except.ok.inj h)]
      · rw [hload]
        constructor
        · intro h
          cases h
        · rintro ⟨h, hlt⟩
          exact absurd hlt (hno share h)

/-- **The texts that configure a share.** -/
theorem load_eq_ok_iff : load raw = .ok share ↔
    ∃ digits, Holds raw digits ∧ Hex.Spells digits share.bytes ∧
      natOfBytes share.bytes < Curve.Bls12381.groupOrder := by
  have hheld : ∀ {digits : List Char}, Hex.Spells digits share.bytes →
      (Holds raw digits ↔ Hex.MayBeMarked (Text.trim raw).toList digits) := by
    intro digits h
    obtain ⟨hlength, hdigits⟩ := Hex.exists_spells_iff.1 ⟨share.bytes, share.length_bytes, h⟩
    exact holds_iff (List.ne_nil_of_length_pos (by omega)) hdigits
  rw [load_eq_ok_iff_decode, Hex.decode_eq_ok_iff]
  constructor
  · rintro ⟨⟨digits, hmark, hspells⟩, hlt⟩
    exact ⟨digits, (hheld hspells).2 hmark, hspells, hlt⟩
  · rintro ⟨digits, hholds, hspells, hlt⟩
    exact ⟨⟨digits, (hheld hspells).1 hholds, hspells⟩, hlt⟩

/-- **A text configures a share just if it holds 64 digits of a number below the order of the
group.** -/
theorem exists_load_iff : (∃ share, load raw = .ok share) ↔
    ∃ digits n, Holds raw digits ∧ digits.length = 64 ∧ Numeral.Spells 16 digits n ∧
      n < Curve.Bls12381.groupOrder := by
  constructor
  · rintro ⟨share, h⟩
    obtain ⟨digits, hholds, hspells, hlt⟩ := load_eq_ok_iff.1 h
    obtain ⟨hlength, -⟩ := Hex.exists_spells_iff.1 ⟨share.bytes, share.length_bytes, hspells⟩
    have hne : share.bytes ≠ [] := List.ne_nil_of_length_pos (by rw [share.length_bytes]; decide)
    exact ⟨digits, _, hholds, hlength, hspells.natOfBytes hne, hlt⟩
  · rintro ⟨digits, n, hholds, hlength, hnumber, hlt⟩
    obtain ⟨bytes, hbytes, hspells⟩ :=
      (Hex.exists_spells_iff (n := 32)).2 ⟨hlength, Hex.isDigit_of_spells hnumber⟩
    have hne : bytes ≠ [] := List.ne_nil_of_length_pos (by rw [hbytes]; decide)
    refine ⟨⟨bytes, hbytes⟩, load_eq_ok_iff.2 ⟨digits, hholds, hspells, ?_⟩⟩
    rwa [(hspells.natOfBytes hne).unique hnumber]

/-- **What is not configured is missing, and what is configured badly is malformed.** -/
theorem load_eq_error (h : ∀ share, load raw ≠ .ok share) :
    ((∀ c ∈ raw.toList, Text.isBlank c = true) ∧ load raw = .error .missing) ∨
      ((∃ c ∈ raw.toList, Text.isBlank c = false) ∧
        ∃ defect, load raw = .error (.malformed defect)) := by
  cases hblank : Text.isAllBlank raw with
  | true => exact .inl ⟨Text.isAllBlank_iff.1 hblank, load_of_isAllBlank hblank⟩
  | false =>
      have hsome : ∃ c ∈ raw.toList, Text.isBlank c = false := by
        by_contra hnone
        have hall : ∀ c ∈ raw.toList, Text.isBlank c = true := by simpa using hnone
        rw [Text.isAllBlank_iff.2 hall] at hblank
        cases hblank
      rcases load_of_not_isAllBlank hblank with ⟨share, hload, -⟩ | ⟨hmalformed, -⟩
      · exact absurd hload (h share)
      · exact .inr ⟨hsome, hmalformed⟩

/-! ## Signing -/

variable {query : BlindedQuery} {point : Curve.Bls12381.Point}

theorem bls_of_decode_eq_none (h : Curve.Bls12381.decode? query.bytes = none) (share : KeyShare) :
    Engine.bls query share = .error .notPoint := by
  rw [Engine.bls, h]

/-- With a share that was loaded every point is multiplied by the number that its bytes spell. -/
theorem bls_of_load (h : load raw = .ok share)
    (hpoint : Curve.Bls12381.decode? query.bytes = some point) :
    Engine.bls query share =
      .ok (.ofBytes (Curve.Bls12381.encode (point.multiple (natOfBytes share.bytes)))) := by
  have hscalar : share.scalar? = some (natOfBytes share.bytes) :=
    scalar?_eq_some_iff.2 ⟨rfl, (load_eq_ok_iff_decode.1 h).2⟩
  simp only [Engine.bls, hpoint, hscalar]

/-- **What a text configures.** A share is loaded just from a text with 64 hexadecimal digits of a
number below the order of the group, and it is the bytes that the digits spell. A blank text is
missing, any other is malformed. With a share that was loaded the engine never finds fault with the
scalar: it refuses the queries that encode no point, and signs all others. -/
theorem load_spec (raw : String) :
    (∀ share, load raw = .ok share ↔ ∃ digits, Holds raw digits ∧ Hex.Spells digits share.bytes ∧
      natOfBytes share.bytes < Curve.Bls12381.groupOrder) ∧
    ((∃ share, load raw = .ok share) ↔ ∃ digits n, Holds raw digits ∧ digits.length = 64 ∧
      Numeral.Spells 16 digits n ∧ n < Curve.Bls12381.groupOrder) ∧
    (load raw = .error .missing ↔ ∀ c ∈ raw.toList, Text.isBlank c = true) ∧
    ((∃ c ∈ raw.toList, Text.isBlank c = false) → (∀ share, load raw ≠ .ok share) →
      ∃ defect, load raw = .error (.malformed defect)) ∧
    ∀ share, load raw = .ok share → ∀ query : BlindedQuery,
      Engine.bls query share ≠ .error .notScalar ∧
      (Curve.Bls12381.decode? query.bytes = none → Engine.bls query share = .error .notPoint) ∧
      ∀ point, Curve.Bls12381.decode? query.bytes = some point → Engine.bls query share =
        .ok (.ofBytes (Curve.Bls12381.encode (point.multiple (natOfBytes share.bytes)))) := by
  refine ⟨fun _ => load_eq_ok_iff, exists_load_iff, ⟨fun hmissing => ?_, fun hblank => ?_⟩,
    fun hsome hno => ?_, fun share hload query => ⟨?_, fun h => bls_of_decode_eq_none h share,
      fun point hpoint => bls_of_load hload hpoint⟩⟩
  · have hno : ∀ share, load raw ≠ .ok share := by
      intro share hload
      rw [hmissing] at hload
      cases hload
    rcases load_eq_error hno with ⟨hblank, -⟩ | ⟨-, defect, hmalformed⟩
    · exact hblank
    · rw [hmissing] at hmalformed
      cases hmalformed
  · exact load_of_isAllBlank (Text.isAllBlank_iff.2 hblank)
  · obtain ⟨c, hc, hplain⟩ := hsome
    rcases load_eq_error hno with ⟨hblank, -⟩ | ⟨-, hmalformed⟩
    · rw [hblank c hc] at hplain
      cases hplain
    · exact hmalformed
  · cases hdecode : Curve.Bls12381.decode? query.bytes with
    | none =>
        rw [bls_of_decode_eq_none hdecode]
        simp
    | some point =>
        rw [bls_of_load hload hdecode]
        simp

/-- The scalar one, with a mark in upper case between blank characters, is a share that signs; two
letters that are no digits are malformed. -/
theorem load_spec_of_one :
    (∃ share, load "\t0X0000000000000000000000000000000000000000000000000000000000000001\n" =
        .ok share ∧ share.bytes = List.replicate 31 0 ++ [1] ∧
      ∀ query, Engine.bls query share ≠ .error .notScalar) ∧
    ∃ defect, load "zz" = .error (.malformed defect) := by
  have hload : load "\t0X0000000000000000000000000000000000000000000000000000000000000001\n" =
      .ok ⟨List.replicate 31 0 ++ [1], by decide⟩ := by decide +kernel
  have hno : ∀ share, load "zz" ≠ .ok share := by
    intro share h
    have hnone : (load "zz").toOption = none := by decide +kernel
    rw [h] at hnone
    cases hnone
  exact ⟨⟨_, hload, rfl, fun query => ((load_spec _).2.2.2.2 _ hload query).1⟩,
    (load_spec "zz").2.2.2.1 ⟨'z', by decide, by decide⟩ hno⟩

end KeyShare

end BlindSign

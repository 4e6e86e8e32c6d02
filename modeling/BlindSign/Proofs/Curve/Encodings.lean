import BlindSign.Values
import BlindSign.Proofs.Base64
import BlindSign.Proofs.Curve.Extension
import BlindSign.Proofs.Curve.Layout

set_option autoImplicit false

/-! # Points have one encoding

**Bytes are decoded to a point if and only if they denote it, and it lies on the curve and in the
group** (`decode?_eq_some_iff_denotes`). What denotes a point is its encoding, so encoding undoes
decoding, and no two queries are the same point (`decode?_canonical`).

The third flag of an encoding would say nothing about an ordinate that is its own negative. There is
no such ordinate, so the flag decides between two different ones, and finds the one it asks for
(`pointAt?_of_sqrt?`).
-/

namespace BlindSign

open Encoding

/-- A query is its bytes: they are spelled by one text. -/
theorem BlindedQuery.eq_of_bytes {query query' : BlindedQuery} (h : query.bytes = query'.bytes) :
    query = query' := by
  have htext : query.text = query'.text := by
    rw [← Base64.encode_of_decode query.decode_text, h, Base64.encode_of_decode query'.decode_text]
  cases query
  cases query'
  cases htext
  cases h
  rfl

namespace Curve.Bls12381

variable {bytes rest : List UInt8} {first : UInt8} {flags : Flags} {im re : Nat}

/-! ## What is decoded -/

theorem fieldElement?_eq_some_iff {a : Fp} :
    fieldElement? bytes = some a ↔ natOfBytes bytes = a.val := by
  unfold fieldElement?
  by_cases hlt : natOfBytes bytes < fieldOrder
  · rw [dif_pos hlt, Option.some.injEq, Fin.ext_iff]
  · rw [dif_neg hlt]
    have hval := a.isLt
    constructor
    · intro h
      cases h
    · intro h
      omega

/-- The one of two opposite ordinates for which a flag asks. -/
def ordinate (y : Fp2) (greater : Bool) : Fp2 := if y.after (-y) = greater then y else -y

theorem ordinate_mul_self (y : Fp2) (greater : Bool) :
    ordinate y greater * ordinate y greater = y * y := by
  unfold ordinate
  by_cases hy : y.after (-y) = greater
  · rw [if_pos hy]
  · rw [if_neg hy, Fp2.neg_mul_neg]

/-- **Of two ordinates that differ one is the greater**, so the flag finds what it asks for. -/
theorem after_ordinate {y : Fp2} (hne : y ≠ -y) (greater : Bool) :
    (ordinate y greater).after (-ordinate y greater) = greater := by
  unfold ordinate
  by_cases hy : y.after (-y) = greater
  · rw [if_pos hy, hy]
  · rw [if_neg hy, Fp2.neg_neg, Fp2.after_swap hne.symm]
    exact (Bool.eq_not.2 (Ne.symm hy)).symm

/-- Where there is a root, there is a point for either flag. -/
theorem pointAt?_of_sqrt? {x y : Fp2} (h : (curveSide x).sqrt? = some y) (greater : Bool) :
    pointAt? x greater = some (.affine x (ordinate y greater)) := by
  have hne : y ≠ -y := ne_neg_of_mul_self (Fp2.mul_self_of_sqrt? h)
  unfold pointAt?
  rw [h]
  exact if_pos (after_ordinate hne greater)

/-- **The point with an abscissa and the ordinate for which a flag asks.** -/
theorem pointAt?_eq_some_iff {x : Fp2} {greater : Bool} {point : Point} :
    pointAt? x greater = some point ↔
      ∃ y, y * y = curveSide x ∧ y.after (-y) = greater ∧ point = .affine x y := by
  constructor
  · intro h
    cases hroot : (curveSide x).sqrt? with
    | none =>
        unfold pointAt? at h
        rw [hroot] at h
        cases h
    | some y =>
        have hsquare := Fp2.mul_self_of_sqrt? hroot
        rw [pointAt?_of_sqrt? hroot] at h
        exact ⟨ordinate y greater, (ordinate_mul_self y greater).trans hsquare,
          after_ordinate (ne_neg_of_mul_self hsquare) greater, (Option.some.inj h).symm⟩
  · rintro ⟨y, hsquare, rfl, rfl⟩
    have hne := ne_neg_of_mul_self hsquare
    obtain ⟨root, hroot, hsign⟩ := Fp2.exists_sqrt? hsquare
    rw [pointAt?_of_sqrt? hroot]
    have hordinate : ordinate root (y.after (-y)) = y := by
      unfold ordinate
      -- rfl | the root that is found is the ordinate or its negative, and the flag tells which
      rcases hsign with rfl | rfl
      · exact if_pos rfl
      · rw [Fp2.neg_neg, if_neg (by rw [Fp2.after_swap hne]; simp)]
    rw [hordinate]

/-- Other counts of bytes encode nothing. -/
theorem decode?_of_length_ne (h : bytes.length ≠ 96) : decode? bytes = none := by
  cases bytes with
  | nil => rfl
  | cons first rest =>
      have hbody : (body first rest).length ≠ 96 := h
      exact if_pos (by rw [Bool.or_eq_true]; exact .inl (decide_eq_true hbody))

/-- The guard in front of the numbers. -/
theorem guard_iff (hlength : rest.length = 95) :
    ((body first rest).length ≠ 96 || first.toNat / 32 < 4) = true ↔ first.toNat / 32 < 4 := by
  rw [length_body hlength]
  simp

/-- What is not compressed encodes nothing either. -/
theorem decode?_of_uncompressed (hlength : rest.length = 95) (h : first.toNat / 32 < 4) :
    decode? (first :: rest) = none :=
  if_pos ((guard_iff hlength).2 h)

/-- The body is all zeros just if both numbers are zero. -/
theorem body_all_iff (hlength : rest.length = 95) : (body first rest).all (· = 0) = true ↔
    natOfBytes ((body first rest).take 48) = 0 ∧ natOfBytes ((body first rest).drop 48) = 0 := by
  have hall : (body first rest).all (· = 0) = true ↔ natOfBytes (body first rest) = 0 := by
    rw [natOfBytes_eq_zero_iff]
    simp
  rw [hall, natOfBytes_halves hlength, Nat.add_eq_zero_iff, Nat.mul_eq_zero,
    or_iff_left (by positivity)]

/-- With the second flag, just the point at infinity is decoded. -/
theorem decode?_of_infinity (hlength : rest.length = 95) (hcompressed : ¬ first.toNat / 32 < 4)
    (hinfinity : first.toNat / 32 / 2 % 2 = 1) {point : Point} :
    decode? (first :: rest) = some point ↔ first.toNat / 32 = 6 ∧
      (natOfBytes ((body first rest).take 48) = 0 ∧ natOfBytes ((body first rest).drop 48) = 0) ∧
      .infinity = point := by
  have hdecode : decode? (first :: rest) =
      if first.toNat / 32 = 6 && (body first rest).all (· = 0) then some .infinity else none :=
    (if_neg fun hguard => hcompressed ((guard_iff hlength).1 hguard)).trans (if_pos hinfinity)
  rw [hdecode, Option.ite_none_right_eq_some, Bool.and_eq_true, decide_eq_true_eq,
    body_all_iff hlength, Option.some.injEq, and_assoc]

/-- Without the second flag, a point of the group with these coefficients is decoded. -/
theorem decode?_of_affine (hlength : rest.length = 95) (hcompressed : ¬ first.toNat / 32 < 4)
    (hinfinity : ¬ first.toNat / 32 / 2 % 2 = 1) {point : Point} :
    decode? (first :: rest) = some point ↔
      ∃ x y, natOfBytes ((body first rest).take 48) = x.im.val ∧
        natOfBytes ((body first rest).drop 48) = x.re.val ∧ y * y = curveSide x ∧
        y.after (-y) = decide (first.toNat / 32 % 2 = 1) ∧ point = .affine x y ∧
        point.inGroup = true := by
  have hdecode : decode? (first :: rest) =
      (fieldElement? ((body first rest).take 48)).bind fun im =>
        (fieldElement? ((body first rest).drop 48)).bind fun re =>
          (pointAt? ⟨re, im⟩ (first.toNat / 32 % 2 = 1)).bind fun point =>
            if point.inGroup then some point else none :=
    (if_neg fun hguard => hcompressed ((guard_iff hlength).1 hguard)).trans (if_neg hinfinity)
  rw [hdecode]
  simp only [Option.bind_eq_some_iff, fieldElement?_eq_some_iff, pointAt?_eq_some_iff,
    Option.ite_none_right_eq_some]
  constructor
  · rintro ⟨im, him, re, hre, _, ⟨y, hsquare, hgreater, rfl⟩, hgroup, hpoint⟩
    obtain rfl := Option.some.inj hpoint
    exact ⟨⟨re, im⟩, y, him, hre, hsquare, hgreater, rfl, hgroup⟩
  · rintro ⟨x, y, him, hre, hsquare, hgreater, rfl, hgroup⟩
    exact ⟨x.im, him, x.re, hre, _, ⟨y, hsquare, hgreater, rfl⟩, hgroup, rfl⟩

/-- **What bytes are decoded to**, by what they hold. -/
theorem decode?_of_isLaidOut (h : IsLaidOut bytes flags im re) {point : Point} :
    decode? bytes = some point ↔
      (flags = ⟨true, true, false⟩ ∧ (im = 0 ∧ re = 0) ∧ .infinity = point) ∨
      ∃ x y, flags = ⟨true, false, y.after (-y)⟩ ∧ im = x.im.val ∧ re = x.re.val ∧
        y * y = curveSide x ∧ point = .affine x y ∧ point.inGroup = true := by
  cases bytes with
  | nil => cases h.length_eq
  | cons first rest =>
      have hlength : rest.length = 95 := Nat.succ.inj h.length_eq
      obtain ⟨rfl, rfl, rfl⟩ := h.unique (isLaidOut_cons hlength)
      have hsmall : first.toNat / 32 < 8 := by
        have hfirst := first.toNat_lt
        omega
      rw [Flags.ofNat_eq_infinity_iff hsmall]
      by_cases hcompressed : first.toNat / 32 < 4
      · -- the first flag is missing, so nothing is decoded and nothing denoted
        rw [decode?_of_uncompressed hlength hcompressed]
        constructor
        · intro hsome
          cases hsome
        · rintro (⟨hsix, -⟩ | ⟨x, y, hflags, -⟩)
          · omega
          · exact absurd hcompressed ((Flags.ofNat_eq_affine_iff hsmall).1 hflags).1
      · by_cases hinfinity : first.toNat / 32 / 2 % 2 = 1
        · -- the second flag is set, so only the point at infinity is left
          rw [decode?_of_infinity hlength hcompressed hinfinity]
          refine (or_iff_left ?_).symm
          rintro ⟨x, y, hflags, -⟩
          exact ((Flags.ofNat_eq_affine_iff hsmall).1 hflags).2.1 hinfinity
        · -- the second flag is clear, so the numbers are coefficients
          rw [decode?_of_affine hlength hcompressed hinfinity]
          constructor
          · rintro ⟨x, y, him, hre, hsquare, hgreater, hpoint⟩
            have hflags := (Flags.ofNat_eq_affine_iff hsmall).2 ⟨hcompressed, hinfinity, hgreater⟩
            exact .inr ⟨x, y, hflags, him, hre, hsquare, hpoint⟩
          · rintro (⟨hsix, -⟩ | ⟨x, y, hflags, him, hre, hsquare, hpoint⟩)
            · omega
            · obtain ⟨-, -, hgreater⟩ := (Flags.ofNat_eq_affine_iff hsmall).1 hflags
              exact ⟨x, y, him, hre, hsquare, hgreater, hpoint⟩

/-! ## One encoding -/

def Point.IsOnCurve : Point → Prop
  | .infinity => True
  | .affine x y => y * y = curveSide x

/-- The point at infinity lies in the group. -/
theorem inGroup_infinity : Point.infinity.inGroup = true := by decide +kernel

/-- **The bytes that are decoded to a point** are those that denote it, if it lies on the curve and
in the group. -/
theorem decode?_eq_some_iff_denotes {point : Point} : decode? bytes = some point ↔
    Denotes bytes point ∧ point.IsOnCurve ∧ point.inGroup = true := by
  constructor
  · intro h
    have hlength : bytes.length = 96 := by
      by_contra hne
      rw [decode?_of_length_ne hne] at h
      cases h
    obtain ⟨flags, im, re, hlaid⟩ := exists_isLaidOut hlength
    rcases (decode?_of_isLaidOut hlaid).1 h with
      ⟨rfl, ⟨rfl, rfl⟩, rfl⟩ | ⟨x, y, rfl, rfl, rfl, hsquare, rfl, hgroup⟩
    · exact ⟨hlaid, trivial, inGroup_infinity⟩
    · exact ⟨hlaid, hsquare, hgroup⟩
  · rintro ⟨hlaid, hcurve, hgroup⟩
    cases point with
    | infinity => exact (decode?_of_isLaidOut hlaid).2 (.inl ⟨rfl, ⟨rfl, rfl⟩, rfl⟩)
    | affine x y =>
        exact (decode?_of_isLaidOut hlaid).2 (.inr ⟨x, y, rfl, rfl, rfl, hcurve, rfl, hgroup⟩)

/-- **Encodings are canonical.** Bytes are decoded to a point just if they are its encoding and it
lies on the curve and in the group. What is decoded has the first flag and coefficients below the
order of the field; the second flag is that of the point at infinity, which has one encoding, and
the third tells which of two different ordinates is meant. No two queries are the same point. -/
theorem decode?_canonical :
    (∀ bytes point, decode? bytes = some point ↔
      encode point = bytes ∧ point.IsOnCurve ∧ point.inGroup = true) ∧
    (∀ bytes flags im re point, IsLaidOut bytes flags im re → decode? bytes = some point →
      flags.compressed = true ∧ im < fieldOrder ∧ re < fieldOrder ∧
      ((flags.infinity = true ∧ flags.greater = false ∧ im = 0 ∧ re = 0 ∧ point = .infinity) ∨
        (flags.infinity = false ∧ ∃ x y, point = .affine x y ∧ im = x.im.val ∧ re = x.re.val ∧
          y ≠ -y ∧ flags.greater = y.after (-y)))) ∧
    (∀ bytes, decode? bytes = some .infinity ↔ bytes = 0xC0 :: List.replicate 95 0) ∧
    ∀ (query query' : BlindedQuery) (point : Point), decode? query.bytes = some point →
      decode? query'.bytes = some point → query = query' := by
  have hiff : ∀ bytes point, decode? bytes = some point ↔
      encode point = bytes ∧ point.IsOnCurve ∧ point.inGroup = true := by
    intro bytes point
    rw [decode?_eq_some_iff_denotes, denotes_iff]
  refine ⟨hiff, ?_, ?_, ?_⟩
  · intro bytes flags im re point hlaid h
    have hpos : 0 < fieldOrder := by decide
    rcases (decode?_of_isLaidOut hlaid).1 h with
      ⟨rfl, ⟨rfl, rfl⟩, rfl⟩ | ⟨x, y, rfl, rfl, rfl, hsquare, rfl, hgroup⟩
    · exact ⟨rfl, hpos, hpos, .inl ⟨rfl, rfl, rfl, rfl, rfl⟩⟩
    · exact ⟨rfl, x.im.isLt, x.re.isLt,
        .inr ⟨rfl, x, y, rfl, rfl, rfl, ne_neg_of_mul_self hsquare, rfl⟩⟩
  · intro bytes
    have hbytes : encode .infinity = 0xC0 :: List.replicate 95 0 := by decide
    rw [hiff, hbytes]
    constructor
    · rintro ⟨h, -⟩
      exact h.symm
    · intro h
      exact ⟨h.symm, trivial, inGroup_infinity⟩
  · intro query query' point h h'
    apply BlindedQuery.eq_of_bytes
    -- both queries are the encoding of the point
    rw [← ((hiff _ _).1 h).1, ((hiff _ _).1 h').1]

def generator : Point :=
  .affine
    ⟨0x024aa2b2f08f0a91260805272dc51051c6e47ad4fa403b02b4510b647ae3d1770bac0326a805bbefd48056c8c121bdb8,
      0x13e02b6052719f607dacd3a088274f65596bd0d09920b61ab5da61bbdc7f5049334cf11213945d57e5ac7d055d042b7e⟩
    ⟨0x0ce5d527727d6e118cc9cdc6da2e351aadfd9baa8cbdd3a76d429a695160d12c923ac9cc3baca289e193548608b82801,
      0x0606c4a02ea734cc32acd2b02bc28b99cb3e287e85a763af267492ab572e99ab3f370d275cec1da1aaa9075ff05f79be⟩

/-- The generator is decoded from its encoding, and a query that is decoded to it has these bytes. -/
theorem decode?_canonical_of_generator :
    decode? (encode generator) = some generator ∧
      (∃ im re, IsLaidOut (encode generator) ⟨true, false, false⟩ im re ∧
        im < fieldOrder ∧ re < fieldOrder) ∧
      ∀ query query' : BlindedQuery, decode? query.bytes = some generator →
        decode? query'.bytes = some generator → query = query' := by
  have hcurve : generator.IsOnCurve := by
    show (_ : Fp2) * _ = curveSide _
    decide +kernel
  have hdecode : decode? (encode generator) = some generator :=
    (decode?_canonical.1 _ _).2 ⟨rfl, hcurve, by decide +kernel⟩
  have hlaid := denotes_encode generator
  obtain ⟨-, him, hre, -⟩ := decode?_canonical.2.1 _ _ _ _ _ hlaid hdecode
  refine ⟨hdecode, ⟨_, _, hlaid, him, hre⟩, fun query query' h h' => ?_⟩
  exact decode?_canonical.2.2.2 query query' generator h h'

end Curve.Bls12381

end BlindSign

import BlindSign.Text.Utf8

set_option autoImplicit false

/-! # UTF-8 is read back

Every character is read back from its bytes, whatever follows them (`next?_encodeChar`), so every
text is read back from its bytes (`decode?_encode`), and different texts have different bytes. What
is read as a character is its bytes (`eq_encodeChar_of_next?`), so the bytes of a text are all that
is decoded as the text (`decode?_eq_some_iff`).
-/

namespace BlindSign.Text.Utf8

@[simp] theorem encodeChars_nil : encodeChars [] = [] := rfl

theorem encodeChars_cons (c : Char) (cs : List Char) :
    encodeChars (c :: cs) = encodeChar c ++ encodeChars cs := List.flatMap_cons

/-! ## Bytes of a character -/

theorem toNat_ofNat_of_lt {n : Nat} (h : n < 256) : (UInt8.ofNat n).toNat = n :=
  UInt8.toNat_ofNat_of_lt' h

theorem toNat_lt (c : Char) : c.toNat < 0x110000 := by
  have h : c.toNat.isValidChar := c.valid
  unfold Nat.isValidChar at h
  omega

/-- A character of ASCII is one byte. -/
theorem encodeChar_ascii {c : Char} (h : c.toNat < 0x80) :
    encodeChar c = [UInt8.ofNat c.toNat] := by
  unfold encodeChar String.utf8EncodeChar
  exact if_pos (Nat.le_of_lt_succ h)

theorem encodeChar_two {c : Char} {n : Nat} (hn : c.toNat = n) (hmin : 0x80 ≤ n)
    (hmax : n < 0x800) :
    encodeChar c = [UInt8.ofNat (n / 64 % 32 + 192), UInt8.ofNat (n % 64 + 128)] := by
  subst hn
  unfold encodeChar String.utf8EncodeChar
  change (if c.toNat ≤ 127 then _ else if c.toNat ≤ 2047 then _ else _) = _
  rw [if_neg (by omega), if_pos (by omega)]
  rfl

theorem encodeChar_three {c : Char} {n : Nat} (hn : c.toNat = n) (hmin : 0x800 ≤ n)
    (hmax : n < 0x10000) :
    encodeChar c = [UInt8.ofNat (n / 4096 % 16 + 224), UInt8.ofNat (n / 64 % 64 + 128),
      UInt8.ofNat (n % 64 + 128)] := by
  subst hn
  unfold encodeChar String.utf8EncodeChar
  change (if c.toNat ≤ 127 then _ else if c.toNat ≤ 2047 then _ else
    if c.toNat ≤ 65535 then _ else _) = _
  rw [if_neg (by omega), if_neg (by omega), if_pos (by omega)]
  rfl

theorem encodeChar_four {c : Char} {n : Nat} (hn : c.toNat = n) (hmin : 0x10000 ≤ n) :
    encodeChar c = [UInt8.ofNat (n / 262144 % 8 + 240), UInt8.ofNat (n / 4096 % 64 + 128),
      UInt8.ofNat (n / 64 % 64 + 128), UInt8.ofNat (n % 64 + 128)] := by
  subst hn
  unfold encodeChar String.utf8EncodeChar
  change (if c.toNat ≤ 127 then _ else if c.toNat ≤ 2047 then _ else
    if c.toNat ≤ 65535 then _ else _) = _
  rw [if_neg (by omega), if_neg (by omega), if_neg (by omega)]
  rfl

theorem charOfCode?_toNat (c : Char) : charOfCode? c.toNat = some c := by
  have h : c.toNat.isValidChar := c.valid
  rw [charOfCode?, dif_pos h]
  rfl

theorem atLeast?_toNat {least n : Nat} {c : Char} (hn : c.toNat = n) (h : least ≤ n) :
    atLeast? least n = some c := by
  rw [atLeast?, if_pos h, ← hn, charOfCode?_toNat]

/-- A tail byte carries six bits. -/
theorem tail?_ofNat (n : Nat) : tail? (UInt8.ofNat (n % 64 + 128)) = some (n % 64) := by
  have hdiv : (n % 64 + 128) / 64 = 2 := by omega
  have hmod : (n % 64 + 128) % 64 = n % 64 := by omega
  rw [tail?, toNat_ofNat_of_lt (by omega), if_pos hdiv, hmod]

theorem next?_one {c : Char} (h : c.toNat < 0x80) (rest : List UInt8) :
    next? (UInt8.ofNat c.toNat :: rest) = some (c, rest) := by
  have hlead : (UInt8.ofNat c.toNat).toNat = c.toNat := toNat_ofNat_of_lt (by omega)
  simp [next?, hlead, h, charOfCode?_toNat]

theorem next?_two {c : Char} {n : Nat} (hn : c.toNat = n) (hmin : 0x80 ≤ n) (hmax : n < 0x800)
    (rest : List UInt8) :
    next? (UInt8.ofNat (n / 64 % 32 + 192) :: UInt8.ofNat (n % 64 + 128) :: rest) =
      some (c, rest) := by
  have hlead : (UInt8.ofNat (n / 64 % 32 + 192)).toNat = n / 64 % 32 + 192 :=
    toNat_ofNat_of_lt (by omega)
  have hone : ¬ n / 64 % 32 + 192 < 0x80 := by omega
  have htwo : (n / 64 % 32 + 192) / 32 = 6 := by omega
  have hvalue : (n / 64 % 32 + 192) % 32 * 64 + n % 64 = n := by omega
  simp only [next?, hlead, hone, htwo, if_true, if_false, tail?_ofNat, Option.bind_eq_bind,
    Option.bind_some, hvalue, atLeast?_toNat hn hmin]

theorem next?_three {c : Char} {n : Nat} (hn : c.toNat = n) (hmin : 0x800 ≤ n)
    (hmax : n < 0x10000) (rest : List UInt8) :
    next? (UInt8.ofNat (n / 4096 % 16 + 224) :: UInt8.ofNat (n / 64 % 64 + 128) ::
      UInt8.ofNat (n % 64 + 128) :: rest) = some (c, rest) := by
  have hlead : (UInt8.ofNat (n / 4096 % 16 + 224)).toNat = n / 4096 % 16 + 224 :=
    toNat_ofNat_of_lt (by omega)
  have hone : ¬ n / 4096 % 16 + 224 < 0x80 := by omega
  have htwo : ¬ (n / 4096 % 16 + 224) / 32 = 6 := by omega
  have hthree : (n / 4096 % 16 + 224) / 16 = 14 := by omega
  have hvalue : ((n / 4096 % 16 + 224) % 16 * 64 + n / 64 % 64) * 64 + n % 64 = n := by omega
  simp only [next?, hlead, hone, htwo, hthree, if_true, if_false, tail?_ofNat,
    Option.bind_eq_bind, Option.bind_some, hvalue, atLeast?_toNat hn hmin]

theorem next?_four {c : Char} {n : Nat} (hn : c.toNat = n) (hmin : 0x10000 ≤ n)
    (hmax : n < 0x110000) (rest : List UInt8) :
    next? (UInt8.ofNat (n / 262144 % 8 + 240) :: UInt8.ofNat (n / 4096 % 64 + 128) ::
      UInt8.ofNat (n / 64 % 64 + 128) :: UInt8.ofNat (n % 64 + 128) :: rest) =
      some (c, rest) := by
  have hlead : (UInt8.ofNat (n / 262144 % 8 + 240)).toNat = n / 262144 % 8 + 240 :=
    toNat_ofNat_of_lt (by omega)
  have hone : ¬ n / 262144 % 8 + 240 < 0x80 := by omega
  have htwo : ¬ (n / 262144 % 8 + 240) / 32 = 6 := by omega
  have hthree : ¬ (n / 262144 % 8 + 240) / 16 = 14 := by omega
  have hfour : (n / 262144 % 8 + 240) / 8 = 30 := by omega
  have hvalue : (((n / 262144 % 8 + 240) % 8 * 64 + n / 4096 % 64) * 64 + n / 64 % 64) * 64 +
      n % 64 = n := by omega
  simp only [next?, hlead, hone, htwo, hthree, hfour, if_true, if_false, tail?_ofNat,
    Option.bind_eq_bind, Option.bind_some, hvalue, atLeast?_toNat hn hmin]

/-- A character that was written is read back. -/
theorem next?_encodeChar (c : Char) (rest : List UInt8) :
    next? (encodeChar c ++ rest) = some (c, rest) := by
  have hmax := toNat_lt c
  by_cases hone : c.toNat < 0x80
  · rw [encodeChar_ascii hone]
    exact next?_one hone rest
  · by_cases htwo : c.toNat < 0x800
    · rw [encodeChar_two rfl (by omega) htwo]
      exact next?_two rfl (by omega) htwo rest
    · by_cases hthree : c.toNat < 0x10000
      · rw [encodeChar_three rfl (by omega) hthree]
        exact next?_three rfl (by omega) hthree rest
      · rw [encodeChar_four rfl (by omega)]
        exact next?_four rfl (by omega) hmax rest

theorem length_encodeChar_pos (c : Char) : 0 < (encodeChar c).length := by
  refine List.length_pos_iff.2 fun h => ?_
  have hnext := next?_encodeChar c []
  rw [h] at hnext
  cases hnext

theorem decodeFrom_encodeChars (cs : List Char) (fuel : Nat) (seen : List Char)
    (hf : (encodeChars cs).length ≤ fuel) :
    decodeFrom fuel seen (encodeChars cs) = some (seen.reverse ++ cs) := by
  induction cs generalizing fuel seen with
  | nil => simp [decodeFrom]
  | cons c cs ih =>
      have hpos := length_encodeChar_pos c
      rw [encodeChars_cons] at hf ⊢
      rw [List.length_append] at hf
      -- there is a byte to read and so fuel to read it
      obtain ⟨b, bs, hb⟩ : ∃ b bs, encodeChar c ++ encodeChars cs = b :: bs := by
        cases h : encodeChar c ++ encodeChars cs with
        | nil => simp at h; simp [h] at hpos
        | cons b bs => exact ⟨b, bs, rfl⟩
      cases fuel with
      | zero => omega
      | succ fuel =>
          have hnext := next?_encodeChar c (encodeChars cs)
          rw [hb] at hnext ⊢
          have hrest := ih fuel (c :: seen) (by omega)
          simp only [decodeFrom, hnext, hrest]
          simp

/-- A text that was written is read back. -/
theorem decode?_encode (s : String) : decode? (encode s) = some s := by
  have h := decodeFrom_encodeChars s.toList (encode s).length [] (Nat.le_refl _)
  unfold decode? decodeChars?
  unfold encode at h ⊢
  rw [h]
  simp

/-- Different texts have different bytes. -/
theorem encode_inj {s t : String} (h : encode s = encode t) : s = t := by
  have hs := decode?_encode s
  rw [h, decode?_encode] at hs
  exact (Option.some.inj hs).symm

/-- Different characters have different bytes. -/
theorem encodeChars_inj {cs ds : List Char} (h : encodeChars cs = encodeChars ds) : cs = ds := by
  refine String.ofList_injective (encode_inj ?_)
  rw [encode, encode, String.toList_ofList, String.toList_ofList, h]

/-! ## What is decoded was written -/

theorem toNat_of_charOfCode? {n : Nat} {c : Char} (h : charOfCode? n = some c) : c.toNat = n := by
  unfold charOfCode? at h
  by_cases hn : n.isValidChar
  · rw [dif_pos hn] at h
    obtain rfl := Option.some.inj h
    rfl
  · rw [dif_neg hn] at h
    cases h

theorem toNat_of_atLeast? {least n : Nat} {c : Char} (h : atLeast? least n = some c) :
    least ≤ n ∧ c.toNat = n := by
  unfold atLeast? at h
  split at h
  · next hle => exact ⟨hle, toNat_of_charOfCode? h⟩
  · cases h

theorem toNat_of_tail? {b : UInt8} {n : Nat} (h : tail? b = some n) :
    n < 64 ∧ b.toNat = n + 128 := by
  unfold tail? at h
  split at h
  · obtain rfl := Option.some.inj h
    omega
  · cases h

theorem eq_ofNat {b : UInt8} {n : Nat} (h : b.toNat = n) : b = UInt8.ofNat n := by
  rw [← h, UInt8.ofNat_toNat]

/-- Two bytes that are read as a character are the bytes of it. -/
theorem encodeChar_of_two {a b : UInt8} {m : Nat} {c : Char} (ha : a.toNat / 32 = 6)
    (hb : tail? b = some m) (hc : atLeast? 0x80 (a.toNat % 32 * 64 + m) = some c) :
    encodeChar c = [a, b] := by
  obtain ⟨hm, hb⟩ := toNat_of_tail? hb
  obtain ⟨hmin, hn⟩ := toNat_of_atLeast? hc
  rw [encodeChar_two hn hmin (by omega), ← @eq_ofNat a _ (by omega), ← @eq_ofNat b _ (by omega)]

theorem encodeChar_of_three {a b d : UInt8} {m k : Nat} {c : Char} (ha : a.toNat / 16 = 14)
    (hb : tail? b = some m) (hd : tail? d = some k)
    (hc : atLeast? 0x800 ((a.toNat % 16 * 64 + m) * 64 + k) = some c) :
    encodeChar c = [a, b, d] := by
  obtain ⟨hm, hb⟩ := toNat_of_tail? hb
  obtain ⟨hk, hd⟩ := toNat_of_tail? hd
  obtain ⟨hmin, hn⟩ := toNat_of_atLeast? hc
  rw [encodeChar_three hn hmin (by omega), ← @eq_ofNat a _ (by omega),
    ← @eq_ofNat b _ (by omega), ← @eq_ofNat d _ (by omega)]

theorem encodeChar_of_four {a b d e : UInt8} {m k j : Nat} {c : Char} (ha : a.toNat / 8 = 30)
    (hb : tail? b = some m) (hd : tail? d = some k) (he : tail? e = some j)
    (hc : atLeast? 0x10000 (((a.toNat % 8 * 64 + m) * 64 + k) * 64 + j) = some c) :
    encodeChar c = [a, b, d, e] := by
  obtain ⟨hm, hb⟩ := toNat_of_tail? hb
  obtain ⟨hk, hd⟩ := toNat_of_tail? hd
  obtain ⟨hj, he⟩ := toNat_of_tail? he
  obtain ⟨hmin, hn⟩ := toNat_of_atLeast? hc
  rw [encodeChar_four hn hmin, ← @eq_ofNat a _ (by omega), ← @eq_ofNat b _ (by omega),
    ← @eq_ofNat d _ (by omega), ← @eq_ofNat e _ (by omega)]

/-- A character that is read was written there. -/
theorem eq_encodeChar_of_next? {bytes rest : List UInt8} {c : Char}
    (h : next? bytes = some (c, rest)) : bytes = encodeChar c ++ rest := by
  cases bytes with
  | nil => cases h
  | cons a tail =>
      unfold next? at h
      dsimp only at h
      -- the lead byte tells how many bytes there are
      split at h
      · obtain ⟨c', hc, hrest⟩ := Option.map_eq_some_iff.1 h
        obtain ⟨rfl, rfl⟩ := Prod.mk.inj hrest
        have hn := toNat_of_charOfCode? hc
        rw [encodeChar_ascii (by omega), hn, UInt8.ofNat_toNat]
        rfl
      · split at h
        · next ha =>
            split at h
            · obtain ⟨m, hb, h⟩ := Option.bind_eq_some_iff.1 h
              obtain ⟨c', hc, h⟩ := Option.bind_eq_some_iff.1 h
              obtain ⟨rfl, rfl⟩ := Prod.mk.inj (Option.some.inj h)
              rw [encodeChar_of_two ha hb hc]
              rfl
            · cases h
        · split at h
          · next ha =>
              split at h
              · obtain ⟨m, hb, h⟩ := Option.bind_eq_some_iff.1 h
                obtain ⟨k, hd, h⟩ := Option.bind_eq_some_iff.1 h
                obtain ⟨c', hc, h⟩ := Option.bind_eq_some_iff.1 h
                obtain ⟨rfl, rfl⟩ := Prod.mk.inj (Option.some.inj h)
                rw [encodeChar_of_three ha hb hd hc]
                rfl
              · cases h
          · split at h
            · next ha =>
                split at h
                · obtain ⟨m, hb, h⟩ := Option.bind_eq_some_iff.1 h
                  obtain ⟨k, hd, h⟩ := Option.bind_eq_some_iff.1 h
                  obtain ⟨j, he, h⟩ := Option.bind_eq_some_iff.1 h
                  obtain ⟨c', hc, h⟩ := Option.bind_eq_some_iff.1 h
                  obtain ⟨rfl, rfl⟩ := Prod.mk.inj (Option.some.inj h)
                  rw [encodeChar_of_four ha hb hd he hc]
                  rfl
                · cases h
            · cases h

theorem decodeFrom_sound {fuel : Nat} {seen cs : List Char} {bytes : List UInt8}
    (h : decodeFrom fuel seen bytes = some cs) :
    ∃ new, cs = seen.reverse ++ new ∧ bytes = encodeChars new := by
  induction fuel generalizing seen bytes with
  | zero =>
      cases bytes with
      | nil =>
          obtain rfl := Option.some.inj h
          exact ⟨[], by simp, rfl⟩
      | cons b bytes => cases h
  | succ fuel ih =>
      cases bytes with
      | nil =>
          obtain rfl := Option.some.inj h
          exact ⟨[], by simp, rfl⟩
      | cons b bytes =>
          unfold decodeFrom at h
          -- the hypothesis is for what is left behind the first character
          split at h
          · next c rest hnext =>
              obtain ⟨new, hcs, rfl⟩ := ih h
              refine ⟨c :: new, by simpa using hcs, ?_⟩
              rw [eq_encodeChar_of_next? hnext, encodeChars_cons]
          · cases h

/-- **Decoding undoes encoding, and nothing else.** -/
theorem decode?_eq_some_iff {bytes : List UInt8} {s : String} :
    decode? bytes = some s ↔ bytes = encode s := by
  constructor
  · intro h
    obtain ⟨cs, hcs, rfl⟩ := Option.map_eq_some_iff.1 h
    obtain ⟨new, rfl, hbytes⟩ := decodeFrom_sound hcs
    rw [hbytes]
    simp [encode]
  · rintro rfl
    exact decode?_encode s
end BlindSign.Text.Utf8

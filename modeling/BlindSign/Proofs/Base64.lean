import BlindSign.Encoding.Base64
import BlindSign.Proofs.Admission
import BlindSign.Proofs.Utf8

set_option autoImplicit false

/-! # Base64 has one spelling

A text that is read as base64 is the base64 form of the bytes it was read as (`encode_of_decode`):
nothing else is accepted, neither another padding nor loose bits nor a blank. The base64 form of any
bytes is read as them, so reading undoes writing and nothing else is read (`decode_eq_ok_iff`).

The reader works on bytes and the writer on characters, so the written form is compared with what
was read through its UTF-8 bytes. The characters of the alphabet are ASCII, one byte each.
-/

namespace BlindSign

namespace Encoding.Base64

open Text Text.Utf8

/-! ## Symbols -/

/-- A symbol is the byte of the character for its value. -/
theorem value?_eq_some {b : UInt8} {v : Nat} (h : value? b = some v) :
    v < 64 ∧ encodeChar (symbolOf v) = [b] := by
  have hall : ∀ n < 256, (value? (UInt8.ofNat n)).all (fun v =>
      decide (v < 64 ∧ encodeChar (symbolOf v) = [UInt8.ofNat n])) = true := by
    decide +kernel
  have hb := hall b.toNat b.toNat_lt
  rw [UInt8.ofNat_toNat, h] at hb
  exact of_decide_eq_true hb

theorem valueAt_eq_ok {offset : Nat} {b : UInt8} {v : Nat} :
    valueAt offset b = .ok v ↔ value? b = some v := by
  unfold valueAt
  cases value? b with
  | none => simp
  | some v' => simp

theorem encodeChar_pad : encodeChar '=' = [pad] := by decide

section

variable {v w x y : Nat}

/-! ## Groups of symbols and the bytes they spell -/

theorem toNat_firstByte (hv : v < 64) (hw : w < 64) :
    (firstByte v w).toNat = v * 4 + w / 16 := toNat_ofNat_of_lt (by omega)

theorem toNat_secondByte (hx : x < 64) :
    (secondByte w x).toNat = w % 16 * 16 + x / 4 := toNat_ofNat_of_lt (by omega)

theorem toNat_thirdByte (hy : y < 64) :
    (thirdByte x y).toNat = x % 4 * 64 + y := toNat_ofNat_of_lt (by omega)

/-- Three bytes are written as the four symbols that spell them. -/
theorem encodeChars_group (hv : v < 64) (hw : w < 64) (hx : x < 64) (hy : y < 64)
    (rest : List UInt8) :
    encodeChars (firstByte v w :: secondByte w x :: thirdByte x y :: rest) =
      symbolOf v :: symbolOf w :: symbolOf x :: symbolOf y :: encodeChars rest := by
  have hv' : (v * 4 + w / 16) / 4 = v := by omega
  have hw' : (v * 4 + w / 16) % 4 * 16 + (w % 16 * 16 + x / 4) / 16 = w := by omega
  have hx' : (w % 16 * 16 + x / 4) % 16 * 4 + (x % 4 * 64 + y) / 64 = x := by omega
  have hy' : (x % 4 * 64 + y) % 64 = y := by omega
  rw [encodeChars, toNat_firstByte hv hw, toNat_secondByte hx, toNat_thirdByte hy, hv', hw', hx',
    hy']

/-- Two bytes are written as the three symbols that spell them, if the last has no loose bits. -/
theorem encodeChars_pair (hv : v < 64) (hw : w < 64) (hx : x < 64) (hloose : x % 4 = 0) :
    encodeChars [firstByte v w, secondByte w x] = [symbolOf v, symbolOf w, symbolOf x, '='] := by
  have hv' : (v * 4 + w / 16) / 4 = v := by omega
  have hw' : (v * 4 + w / 16) % 4 * 16 + (w % 16 * 16 + x / 4) / 16 = w := by omega
  have hx' : (w % 16 * 16 + x / 4) % 16 * 4 = x := by omega
  rw [encodeChars, toNat_firstByte hv hw, toNat_secondByte hx, hv', hw', hx']

/-- One byte is written as the two symbols that spell it, if the last has no loose bits. -/
theorem encodeChars_single (hv : v < 64) (hw : w < 64) (hloose : w % 16 = 0) :
    encodeChars [firstByte v w] = [symbolOf v, symbolOf w, '=', '='] := by
  have hv' : (v * 4 + w / 16) / 4 = v := by omega
  have hw' : (v * 4 + w / 16) % 4 * 16 = w := by omega
  rw [encodeChars, toNat_firstByte hv hw, hv', hw']

end

/-! ## Reading -/

/-- The last group is read as the values of its symbols and the padding after them. -/
theorem readLast_eq_ok {start index : Nat} {group group' : LastGroup} {bytes : List UInt8}
    (h : readLast start index group bytes = .ok group') :
    ∃ values count, group'.values = group.values ++ values ∧
      group'.padding = group.padding + count ∧ (0 < group.padding → values = []) ∧
      (∀ v ∈ values, v < 64) ∧ bytes.length = values.length + count ∧
      bytes = Utf8.encodeChars (values.map symbolOf ++ List.replicate count '=') := by
  induction bytes generalizing index group with
  | nil =>
      obtain rfl : group = group' := Except.ok.inj h
      exact ⟨[], 0, by simp⟩
  | cons b rest ih =>
      unfold readLast at h
      split at h
      · next hpad =>
          split at h
          · cases h
          · -- a padding character: no symbol may follow it
            obtain ⟨values, count, hvalues, hpadding, hnone, _, hlength, hrest⟩ := ih h
            obtain rfl : values = [] := hnone (Nat.succ_pos _)
            refine ⟨[], count + 1, hvalues, ?_, fun _ => rfl, by simp, ?_, ?_⟩
            · rw [hpadding]
              simp only
              omega
            · simp only [List.length_cons, List.length_nil] at hlength ⊢
              omega
            · rw [hrest, hpad]
              simp only [List.map_nil, List.nil_append, List.replicate_succ, encodeChars_cons,
                encodeChar_pad, List.singleton_append]
      · split at h
        · cases h
        · next hnopad =>
            obtain ⟨v, hv, hnext⟩ := bind_eq_ok.1 h
            obtain ⟨hlt, hsymbol⟩ := value?_eq_some (valueAt_eq_ok.1 hv)
            obtain ⟨values, count, hvalues, hpadding, _, hbound, hlength, hrest⟩ := ih hnext
            refine ⟨v :: values, count, ?_, hpadding, fun hpos => absurd hpos hnopad, ?_, ?_, ?_⟩
            · rw [hvalues]
              simp
            · intro u hu
              rcases List.mem_cons.1 hu with rfl | hu
              · exact hlt
              · exact hbound u hu
            · simp only [List.length_cons] at hlength ⊢
              omega
            · rw [hrest]
              simp only [List.map_cons, List.cons_append, encodeChars_cons, hsymbol,
                List.nil_append]

/-- The last group is the written form of what it is read as. -/
theorem decodeLast_eq_ok {start : Nat} {bytes out : List UInt8}
    (h : decodeLast start bytes = .ok out) (hlength : bytes.length ≤ 4) :
    bytes = Utf8.encodeChars (encodeChars out) := by
  unfold decodeLast at h
  obtain ⟨group, hgroup, h⟩ := bind_eq_ok.1 h
  obtain ⟨values, count, hvalues, hpadding, _, hbound, hsum, hbytes⟩ := readLast_eq_ok hgroup
  simp only [List.nil_append, Nat.zero_add] at hvalues hpadding
  simp only [hvalues, hpadding] at h
  split at h
  · cases h
  · next hshort =>
      split at h
      · cases h
      · next hfull =>
          have hwhole : (values.length + count) % 4 = 0 := by omega
          have htwo : 0 < bytes.length → 2 ≤ values.length := by
            intro hpos
            have hne : bytes.isEmpty = false := by
              rw [List.isEmpty_eq_false_iff]
              exact List.ne_nil_of_length_pos hpos
            simp only [hne, Bool.not_false, Bool.true_and, decide_eq_true_eq] at hshort
            omega
          rw [hbytes]
          -- there is one full group, or nothing at all
          match values with
          | [] =>
              simp only [List.length_nil] at hsum htwo
              obtain rfl : count = 0 := by omega
              obtain rfl := Except.ok.inj h
              rfl
          | [v] =>
              simp only [List.length_cons, List.length_nil] at hsum htwo
              omega
          | [v, w] =>
              simp only [List.length_cons, List.length_nil] at hsum hwhole
              obtain rfl : count = 2 := by omega
              have hv : v < 64 := hbound v (by simp)
              have hw : w < 64 := hbound w (by simp)
              dsimp only at h
              split at h
              · next hloose =>
                  obtain rfl := Except.ok.inj h
                  rw [encodeChars_single hv hw hloose]
                  rfl
              · cases h
          | [v, w, x] =>
              simp only [List.length_cons, List.length_nil] at hsum hwhole
              obtain rfl : count = 1 := by omega
              have hv : v < 64 := hbound v (by simp)
              have hw : w < 64 := hbound w (by simp)
              have hx : x < 64 := hbound x (by simp)
              dsimp only at h
              split at h
              · next hloose =>
                  obtain rfl := Except.ok.inj h
                  rw [encodeChars_pair hv hw hx hloose]
                  rfl
              · cases h
          | [v, w, x, y] =>
              simp only [List.length_cons, List.length_nil] at hsum
              obtain rfl : count = 0 := by omega
              have hv : v < 64 := hbound v (by simp)
              have hw : w < 64 := hbound w (by simp)
              have hx : x < 64 := hbound x (by simp)
              have hy : y < 64 := hbound y (by simp)
              obtain rfl := Except.ok.inj h
              rw [encodeChars_group hv hw hx hy]
              rfl
          | _ :: _ :: _ :: _ :: _ :: _ =>
              simp only [List.length_cons] at hsum
              omega

/-- All groups together are the written form of what they are read as. -/
theorem decodeGroups_eq_ok {start : Nat} {bytes out : List UInt8}
    (h : decodeGroups start bytes = .ok out) : bytes = Utf8.encodeChars (encodeChars out) := by
  fun_induction decodeGroups start bytes generalizing out with
  | case1 start a b c d e rest ih =>
      obtain ⟨v, hv, h⟩ := bind_eq_ok.1 h
      obtain ⟨w, hw, h⟩ := bind_eq_ok.1 h
      obtain ⟨x, hx, h⟩ := bind_eq_ok.1 h
      obtain ⟨y, hy, h⟩ := bind_eq_ok.1 h
      obtain ⟨tail, htail, h⟩ := bind_eq_ok.1 h
      obtain rfl := Except.ok.inj h
      obtain ⟨hv, ha⟩ := value?_eq_some (valueAt_eq_ok.1 hv)
      obtain ⟨hw, hb⟩ := value?_eq_some (valueAt_eq_ok.1 hw)
      obtain ⟨hx, hc⟩ := value?_eq_some (valueAt_eq_ok.1 hx)
      obtain ⟨hy, hd⟩ := value?_eq_some (valueAt_eq_ok.1 hy)
      rw [encodeChars_group hv hw hx hy, encodeChars_cons, encodeChars_cons, encodeChars_cons,
        encodeChars_cons, ha, hb, hc, hd, ← ih htail]
      rfl
  | case2 start bytes hshort =>
      refine decodeLast_eq_ok h ?_
      -- five bytes or more would have been read as a full group and a rest
      match bytes with
      | [] => simp
      | [a] => simp
      | [a, b] => simp
      | [a, b, c] => simp
      | [a, b, c, d] => simp
      | a :: b :: c :: d :: e :: rest => exact absurd rfl (hshort a b c d e rest)

/-- **One spelling.** A text that is read as base64 is the base64 form of what it is read as. -/
theorem encode_of_decode {s : String} {bytes : List UInt8} (h : decode s = .ok bytes) :
    encode bytes = s := by
  unfold decode decodeBytes at h
  split at h
  · cases h
  · have hbytes : Utf8.encode s = Utf8.encodeChars (encodeChars bytes) := decodeGroups_eq_ok h
    refine Utf8.encode_inj ?_
    rw [hbytes]
    unfold encode Utf8.encode
    rw [String.toList_ofList]

/-! ## What is written is read -/

def symbolByte (v : Nat) : UInt8 := UInt8.ofNat (symbolOf v).toNat

/-- A symbol is one byte, and is read as its value. -/
theorem symbolByte_spec {v : Nat} (hv : v < 64) :
    encodeChar (symbolOf v) = [symbolByte v] ∧ value? (symbolByte v) = some v := by
  have hall : ∀ v < 64, encodeChar (symbolOf v) = [symbolByte v] ∧
      value? (symbolByte v) = some v := by
    decide +kernel
  exact hall v hv

theorem encodeChars_symbolOf {v : Nat} (hv : v < 64) (cs : List Char) :
    Utf8.encodeChars (symbolOf v :: cs) = symbolByte v :: Utf8.encodeChars cs := by
  rw [encodeChars_cons, (symbolByte_spec hv).1, List.singleton_append]

theorem encodeChars_padding (cs : List Char) :
    Utf8.encodeChars ('=' :: cs) = pad :: Utf8.encodeChars cs := by
  rw [encodeChars_cons, encodeChar_pad, List.singleton_append]

theorem valueAt_symbolByte {offset v : Nat} (hv : v < 64) :
    valueAt offset (symbolByte v) = .ok v := valueAt_eq_ok.2 (symbolByte_spec hv).2

section

variable {start index : Nat} {v w x y : Nat} {rest : List UInt8}

/-- A symbol of the last group is taken in, as long as there was no padding. -/
theorem readLast_symbolByte {values : List Nat} {last : UInt8} (hv : v < 64) :
    readLast start index ⟨values, last, 0⟩ (symbolByte v :: rest) =
      readLast start (index + 1) ⟨values ++ [v], symbolByte v, 0⟩ rest := by
  have hpad : symbolByte v ≠ pad := by
    intro h
    have hvalue := (symbolByte_spec hv).2
    rw [h] at hvalue
    cases hvalue
  rw [readLast, if_neg hpad, if_neg (Nat.lt_irrefl 0), valueAt_symbolByte hv]
  rfl

theorem readLast_pad {group : LastGroup} (hindex : 2 ≤ index) :
    readLast start index group (pad :: rest) =
      readLast start (index + 1) { group with padding := group.padding + 1 } rest := by
  rw [readLast, if_pos rfl, if_neg (Nat.not_lt.2 hindex)]

theorem readLast_nil {group : LastGroup} : readLast start index group [] = .ok group := by
  rw [readLast]

/-- A group of four symbols is read as three bytes. -/
theorem decodeLast_group (hv : v < 64) (hw : w < 64) (hx : x < 64) (hy : y < 64) :
    decodeLast start [symbolByte v, symbolByte w, symbolByte x, symbolByte y] =
      .ok [firstByte v w, secondByte w x, thirdByte x y] := by
  have hread : readLast start 0 ⟨[], 0, 0⟩
      [symbolByte v, symbolByte w, symbolByte x, symbolByte y] =
        .ok ⟨[v, w, x, y], symbolByte y, 0⟩ := by
    rw [readLast_symbolByte hv, readLast_symbolByte hw, readLast_symbolByte hx,
      readLast_symbolByte hy, readLast_nil]
    rfl
  exact bind_eq_ok.2 ⟨_, hread, by simp⟩

/-- Three symbols without loose bits are read as two bytes. -/
theorem decodeLast_pair (hv : v < 64) (hw : w < 64) (hx : x < 64) (hloose : x % 4 = 0) :
    decodeLast start [symbolByte v, symbolByte w, symbolByte x, pad] =
      .ok [firstByte v w, secondByte w x] := by
  have hread : readLast start 0 ⟨[], 0, 0⟩ [symbolByte v, symbolByte w, symbolByte x, pad] =
      .ok ⟨[v, w, x], symbolByte x, 1⟩ := by
    rw [readLast_symbolByte hv, readLast_symbolByte hw, readLast_symbolByte hx,
      readLast_pad (by omega), readLast_nil]
    rfl
  exact bind_eq_ok.2 ⟨_, hread, by simp [hloose]⟩

/-- Two symbols without loose bits are read as one byte. -/
theorem decodeLast_single (hv : v < 64) (hw : w < 64) (hloose : w % 16 = 0) :
    decodeLast start [symbolByte v, symbolByte w, pad, pad] = .ok [firstByte v w] := by
  have hread : readLast start 0 ⟨[], 0, 0⟩ [symbolByte v, symbolByte w, pad, pad] =
      .ok ⟨[v, w], symbolByte w, 2⟩ := by
    rw [readLast_symbolByte hv, readLast_symbolByte hw, readLast_pad (by omega),
      readLast_pad (by omega), readLast_nil]
    rfl
  exact bind_eq_ok.2 ⟨_, hread, by simp [hloose]⟩

/-- A group of four symbols is read as three bytes, whatever follows it. -/
theorem decodeGroups_group {tail : List UInt8} (hv : v < 64) (hw : w < 64) (hx : x < 64)
    (hy : y < 64) (htail : ∀ start, decodeGroups start rest = .ok tail) :
    decodeGroups start (symbolByte v :: symbolByte w :: symbolByte x :: symbolByte y :: rest) =
      .ok (firstByte v w :: secondByte w x :: thirdByte x y :: tail) := by
  cases rest with
  | nil =>
      obtain rfl := Except.ok.inj (htail 0)
      exact decodeLast_group hv hw hx hy
  | cons b rest =>
      rw [decodeGroups]
      exact bind_eq_ok.2 ⟨_, valueAt_symbolByte hv, bind_eq_ok.2 ⟨_, valueAt_symbolByte hw,
        bind_eq_ok.2 ⟨_, valueAt_symbolByte hx, bind_eq_ok.2 ⟨_, valueAt_symbolByte hy,
          bind_eq_ok.2 ⟨_, htail _, rfl⟩⟩⟩⟩⟩

end

/-- The written form is groups of four symbols, and is read in these groups. -/
theorem decodeGroups_encodeChars (bytes : List UInt8) :
    (Utf8.encodeChars (encodeChars bytes)).length % 4 = 0 ∧
      ∀ start, decodeGroups start (Utf8.encodeChars (encodeChars bytes)) = .ok bytes := by
  -- each byte is put together again from the symbols that it was cut into
  have hof : ∀ {n : Nat} {b : UInt8}, n = b.toNat → UInt8.ofNat n = b :=
    fun h => by rw [h, UInt8.ofNat_toNat]
  fun_induction encodeChars bytes with
  | case1 => exact ⟨rfl, fun start => rfl⟩
  | case2 a =>
      have ha := a.toNat_lt
      have hfirst : firstByte (a.toNat / 4) (a.toNat % 4 * 16) = a := hof (by omega)
      rw [encodeChars_symbolOf (by omega), encodeChars_symbolOf (by omega), encodeChars_padding,
        encodeChars_padding, Utf8.encodeChars_nil]
      refine ⟨by simp, fun start => ?_⟩
      exact (decodeLast_single (by omega) (by omega) (by omega)).trans (by rw [hfirst])
  | case3 a b =>
      have ha := a.toNat_lt
      have hb := b.toNat_lt
      have hfirst : firstByte (a.toNat / 4) (a.toNat % 4 * 16 + b.toNat / 16) = a :=
        hof (by omega)
      have hsecond : secondByte (a.toNat % 4 * 16 + b.toNat / 16) (b.toNat % 16 * 4) = b :=
        hof (by omega)
      rw [encodeChars_symbolOf (by omega), encodeChars_symbolOf (by omega),
        encodeChars_symbolOf (by omega), encodeChars_padding, Utf8.encodeChars_nil]
      refine ⟨by simp, fun start => ?_⟩
      exact (decodeLast_pair (by omega) (by omega) (by omega) (by omega)).trans
        (by rw [hfirst, hsecond])
  | case4 a b c rest ih =>
      obtain ⟨hlength, htail⟩ := ih
      have ha := a.toNat_lt
      have hb := b.toNat_lt
      have hc := c.toNat_lt
      have hfirst : firstByte (a.toNat / 4) (a.toNat % 4 * 16 + b.toNat / 16) = a :=
        hof (by omega)
      have hsecond : secondByte (a.toNat % 4 * 16 + b.toNat / 16)
          (b.toNat % 16 * 4 + c.toNat / 64) = b := hof (by omega)
      have hthird : thirdByte (b.toNat % 16 * 4 + c.toNat / 64) (c.toNat % 64) = c :=
        hof (by omega)
      rw [encodeChars_symbolOf (by omega), encodeChars_symbolOf (by omega),
        encodeChars_symbolOf (by omega), encodeChars_symbolOf (by omega)]
      refine ⟨?_, fun start => ?_⟩
      · simp only [List.length_cons]
        omega
      · exact (decodeGroups_group (by omega) (by omega) (by omega) (by omega) htail).trans
          (by rw [hfirst, hsecond, hthird])

/-- **Reading and writing.** A text is read as bytes just if it is their base64 form. -/
theorem decode_eq_ok_iff {s : String} {bytes : List UInt8} :
    decode s = .ok bytes ↔ s = encode bytes := by
  constructor
  · exact fun h => (encode_of_decode h).symm
  · rintro rfl
    obtain ⟨hlength, hgroups⟩ := decodeGroups_encodeChars bytes
    have hstray : strayByte? (Utf8.encodeChars (encodeChars bytes)) = none :=
      if_neg (by omega)
    unfold decode decodeBytes encode Utf8.encode
    rw [String.toList_ofList, hstray]
    exact hgroups 0

end Encoding.Base64

end BlindSign

import BlindSign.Proofs.Base64
import BlindSign.Proofs.Digits

set_option autoImplicit false

/-! # Which texts are base64

A symbol stands for six bits, a byte has eight, and each padding character says that two bits of the
last symbol belong to no byte. So symbols spell bytes if, in radix 64, they are the number that the
bytes spell with two zero bits behind it for each padding character (`Spells`).

**A text is read as bytes if and only if it is symbols that spell them and the padding**
(`decode_eq_ok_iff_spells`). Whether a text is read at all can be told from its form, without a
reader of it: the padding fills the last group, and no loose bits are set (`exists_spells_iff`).

**So reading and writing undo each other, and any other text is refused**: one with too much or too
little padding, with loose bits, or with a character that is no symbol (`decode_bijective`).
-/

namespace BlindSign.Encoding.Base64

variable {c : Char} {text symbols symbols' : List Char} {bytes bytes' : List UInt8}
  {v padding padding' : Nat}

/-! ## Symbols and the number that they spell -/

/-- The symbols, each at the place of its value. -/
def alphabet : List Char :=
  "ABCDEFGHIJKLMNOPQRSTUVWXYZabcdefghijklmnopqrstuvwxyz0123456789+/".toList

/-- The value of a symbol: its place in the alphabet. -/
def valueOf (c : Char) : Nat := alphabet.idxOf c

/-- The number that symbols spell, the most significant one first. -/
def numberOf (symbols : List Char) : Nat := Nat.ofDigits 64 (symbols.map valueOf).reverse

/-- The characters that are written are those of the alphabet. -/
theorem mem_alphabet_iff : c ∈ alphabet ↔ ∃ v < 64, c = symbolOf v := by
  have halphabet : alphabet = (List.range 64).map symbolOf := by decide
  rw [halphabet]
  simp [eq_comm]

theorem symbolOf_mem (hv : v < 64) : symbolOf v ∈ alphabet := mem_alphabet_iff.2 ⟨v, hv, rfl⟩

theorem valueOf_symbolOf (hv : v < 64) : valueOf (symbolOf v) = v := by
  have hall : ∀ v < 64, valueOf (symbolOf v) = v := by decide +kernel
  exact hall v hv

theorem valueOf_lt (hc : c ∈ alphabet) : valueOf c < 64 := List.idxOf_lt_length_of_mem hc

theorem pad_notMem : '=' ∉ alphabet := by decide

/-- A symbol in front weighs as much as there are numbers for the symbols behind it. -/
theorem numberOf_cons (c : Char) (cs : List Char) :
    numberOf (c :: cs) = valueOf c * 64 ^ cs.length + numberOf cs := by
  unfold numberOf
  rw [List.map_cons, List.reverse_cons, Nat.ofDigits_append, Nat.ofDigits_singleton,
    List.length_reverse, List.length_map, Nat.add_comm, Nat.mul_comm]

theorem numberOf_concat (cs : List Char) (c : Char) :
    numberOf (cs ++ [c]) = numberOf cs * 64 + valueOf c := by
  unfold numberOf
  rw [List.map_append, List.reverse_append, List.map_singleton, List.reverse_singleton,
    List.singleton_append, Nat.ofDigits_cons, Nat.add_comm, Nat.mul_comm]

/-- The value of a symbol is a digit to the base 64. -/
theorem lt_of_mem_map_valueOf (h : ∀ c ∈ symbols, c ∈ alphabet) :
    ∀ d ∈ (symbols.map valueOf).reverse, d < 64 := by
  intro d hd
  obtain ⟨c, hc, rfl⟩ := List.mem_map.1 (List.mem_reverse.1 hd)
  exact valueOf_lt (h c hc)

theorem numberOf_lt (h : ∀ c ∈ symbols, c ∈ alphabet) : numberOf symbols < 64 ^ symbols.length := by
  have hlt := Nat.ofDigits_lt_base_pow_length (by decide) (lt_of_mem_map_valueOf h)
  rwa [List.length_reverse, List.length_map] at hlt

/-- Each symbol is found in the alphabet at its value. -/
theorem map_symbolOf_map_valueOf (h : ∀ c ∈ symbols, c ∈ alphabet) :
    (symbols.map valueOf).map symbolOf = symbols := by
  rw [List.map_map]
  refine (List.map_congr_left fun c hc => ?_).trans (List.map_id symbols)
  obtain ⟨v, hv, rfl⟩ := mem_alphabet_iff.1 (h c hc)
  rw [Function.comp_apply, valueOf_symbolOf hv, id]

/-- **As many symbols that spell the same number are the same symbols.** -/
theorem numberOf_inj (h : ∀ c ∈ symbols, c ∈ alphabet) (h' : ∀ c ∈ symbols', c ∈ alphabet)
    (hlength : symbols.length = symbols'.length) (hnumber : numberOf symbols = numberOf symbols') :
    symbols = symbols' := by
  have hdigits := Nat.ofDigits_inj_of_len_eq (by decide) (by simpa using hlength)
    (lt_of_mem_map_valueOf h) (lt_of_mem_map_valueOf h') hnumber
  have hvalues := List.reverse_injective hdigits
  rw [← map_symbolOf_map_valueOf h, hvalues, map_symbolOf_map_valueOf h']

/-! ## What symbols spell -/

/-- Symbols with padding behind them spell bytes: six bits for each symbol are eight bits for each
byte and two for each padding character, and these are zero. -/
structure Spells (symbols : List Char) (padding : Nat) (bytes : List UInt8) : Prop where
  mem_alphabet : ∀ c ∈ symbols, c ∈ alphabet
  padding_lt : padding < 3
  length_eq : 3 * symbols.length = 4 * bytes.length + padding
  numberOf_eq : numberOf symbols = natOfBytes bytes * 4 ^ padding

/-- Symbols have as many numbers as the bytes and the padding have. -/
theorem weight_eq {m n : Nat} (h : 3 * m = 4 * n + padding) :
    64 ^ m = 256 ^ n * 4 ^ padding := by
  calc 64 ^ m = 4 ^ (3 * m) := (Nat.pow_mul 4 3 m).symm
    _ = 4 ^ (4 * n) * 4 ^ padding := by rw [h, Nat.pow_add]
    _ = 256 ^ n * 4 ^ padding := by rw [Nat.pow_mul]

/-- A symbol that is written weighs its value. -/
theorem numberOf_symbolOf (hv : v < 64) (cs : List Char) :
    numberOf (symbolOf v :: cs) = v * 64 ^ cs.length + numberOf cs := by
  rw [numberOf_cons, valueOf_symbolOf hv]

theorem numberOf_nil : numberOf [] = 0 := rfl

theorem natOfBytes_nil : natOfBytes [] = 0 := rfl

/-- **What is written for bytes spells them.** -/
theorem exists_spells_encodeChars (bytes : List UInt8) : ∃ symbols padding,
    encodeChars bytes = symbols ++ List.replicate padding '=' ∧ Spells symbols padding bytes := by
  fun_induction encodeChars bytes with
  | case1 => exact ⟨[], 0, rfl, by simp, by decide, rfl, rfl⟩
  | case2 a =>
      have ha := a.toNat_lt
      have hv : a.toNat / 4 < 64 := by omega
      have hw : a.toNat % 4 * 16 < 64 := by omega
      refine ⟨[symbolOf (a.toNat / 4), symbolOf (a.toNat % 4 * 16)], 2, rfl, ?_, by decide, rfl, ?_⟩
      · simp only [List.forall_mem_cons]
        exact ⟨symbolOf_mem hv, symbolOf_mem hw, List.forall_mem_nil _⟩
      · rw [numberOf_symbolOf hv, numberOf_symbolOf hw, natOfBytes_cons]
        simp only [List.length_cons, List.length_nil, numberOf_nil, natOfBytes_nil]
        omega
  | case3 a b =>
      have ha := a.toNat_lt
      have hb := b.toNat_lt
      have hv : a.toNat / 4 < 64 := by omega
      have hw : a.toNat % 4 * 16 + b.toNat / 16 < 64 := by omega
      have hx : b.toNat % 16 * 4 < 64 := by omega
      refine ⟨[symbolOf (a.toNat / 4), symbolOf (a.toNat % 4 * 16 + b.toNat / 16),
        symbolOf (b.toNat % 16 * 4)], 1, rfl, ?_, by decide, rfl, ?_⟩
      · simp only [List.forall_mem_cons]
        exact ⟨symbolOf_mem hv, symbolOf_mem hw, symbolOf_mem hx, List.forall_mem_nil _⟩
      · rw [numberOf_symbolOf hv, numberOf_symbolOf hw, numberOf_symbolOf hx, natOfBytes_cons,
          natOfBytes_cons]
        simp only [List.length_cons, List.length_nil, numberOf_nil, natOfBytes_nil]
        omega
  | case4 a b c rest ih =>
      obtain ⟨symbols, padding, htext, hspells⟩ := ih
      have ha := a.toNat_lt
      have hb := b.toNat_lt
      have hc := c.toNat_lt
      have hv : a.toNat / 4 < 64 := by omega
      have hw : a.toNat % 4 * 16 + b.toNat / 16 < 64 := by omega
      have hx : b.toNat % 16 * 4 + c.toNat / 64 < 64 := by omega
      have hy : c.toNat % 64 < 64 := by omega
      refine ⟨symbolOf (a.toNat / 4) :: symbolOf (a.toNat % 4 * 16 + b.toNat / 16) ::
        symbolOf (b.toNat % 16 * 4 + c.toNat / 64) :: symbolOf (c.toNat % 64) :: symbols, padding,
        by rw [htext]; rfl, ?_, hspells.padding_lt, ?_, ?_⟩
      · simp only [List.forall_mem_cons]
        exact ⟨symbolOf_mem hv, symbolOf_mem hw, symbolOf_mem hx, symbolOf_mem hy,
          hspells.mem_alphabet⟩
      · have hlength := hspells.length_eq
        simp only [List.length_cons]
        omega
      · rw [numberOf_symbolOf hv, numberOf_symbolOf hw, numberOf_symbolOf hx, numberOf_symbolOf hy,
          hspells.numberOf_eq, natOfBytes_cons, natOfBytes_cons, natOfBytes_cons]
        simp only [List.length_cons, Nat.pow_succ, weight_eq hspells.length_eq]
        -- what follows the group weighs the same on both sides; before it there are 24 bits
        generalize 256 ^ rest.length = n
        generalize 4 ^ padding = k
        have hgroup : a.toNat / 4 * (64 * 64 * 64) +
            (a.toNat % 4 * 16 + b.toNat / 16) * (64 * 64) +
            (b.toNat % 16 * 4 + c.toNat / 64) * 64 + c.toNat % 64 =
              a.toNat * (256 * 256) + b.toNat * 256 + c.toNat := by omega
        calc _ = (a.toNat / 4 * (64 * 64 * 64) + (a.toNat % 4 * 16 + b.toNat / 16) * (64 * 64) +
              (b.toNat % 16 * 4 + c.toNat / 64) * 64 + c.toNat % 64) * (n * k) +
                natOfBytes rest * k := by ring
          _ = _ := by rw [hgroup]; ring

namespace Spells

/-- Bytes are spelled by one text. -/
theorem symbols_unique (h : Spells symbols padding bytes) (h' : Spells symbols' padding' bytes) :
    symbols = symbols' ∧ padding = padding' := by
  have hlength := h.length_eq
  have hlength' := h'.length_eq
  have hpadding := h.padding_lt
  have hpadding' := h'.padding_lt
  obtain rfl : padding = padding' := by omega
  refine ⟨numberOf_inj h.mem_alphabet h'.mem_alphabet (by omega) ?_, rfl⟩
  rw [h.numberOf_eq, h'.numberOf_eq]

end Spells

/-- **What is read as bytes.** -/
theorem decode_eq_ok_iff_spells {s : String} : decode s = .ok bytes ↔
    ∃ symbols padding, s.toList = symbols ++ List.replicate padding '=' ∧
      Spells symbols padding bytes := by
  obtain ⟨written, count, hwritten, hspells⟩ := exists_spells_encodeChars bytes
  rw [decode_eq_ok_iff]
  constructor
  · rintro rfl
    exact ⟨written, count, by rw [encode, String.toList_ofList, hwritten], hspells⟩
  · rintro ⟨symbols, padding, hs, h⟩
    obtain ⟨rfl, rfl⟩ := h.symbols_unique hspells
    rw [encode, hwritten, ← hs, String.ofList_toList]

/-! ## The form of a text that is read -/

/-- The bits of the last symbol that belong to no byte are zero: two bits for each padding
character. -/
def HasNoLooseBits (symbols : List Char) (padding : Nat) : Prop :=
  ∀ c ∈ symbols.getLast?, valueOf c % 4 ^ padding = 0

/-- What is left modulo the loose bits is decided by the last symbol. -/
theorem numberOf_mod_eq_zero_iff (hpadding : padding < 3) :
    numberOf symbols % 4 ^ padding = 0 ↔ HasNoLooseBits symbols padding := by
  have hdvd : 4 ^ padding ∣ 64 := Nat.pow_dvd_pow 4 (show padding ≤ 3 by omega)
  rcases List.eq_nil_or_concat symbols with rfl | ⟨front, last, rfl⟩
  · simp [HasNoLooseBits, numberOf_nil]
  · have hfront : 4 ^ padding ∣ numberOf front * 64 := Dvd.dvd.mul_left hdvd _
    rw [List.concat_eq_append, numberOf_concat, HasNoLooseBits, List.getLast?_concat,
      ← Nat.dvd_iff_mod_eq_zero, Nat.dvd_add_right hfront, Nat.dvd_iff_mod_eq_zero]
    simp

/-- **Symbols with padding spell bytes just if the padding fills the last group and no loose bits
are set.** -/
theorem exists_spells_iff (h : ∀ c ∈ symbols, c ∈ alphabet) :
    (∃ bytes, Spells symbols padding bytes) ↔
      padding < 3 ∧ (symbols.length + padding) % 4 = 0 ∧ HasNoLooseBits symbols padding := by
  constructor
  · rintro ⟨bytes, hspells⟩
    have hlength := hspells.length_eq
    refine ⟨hspells.padding_lt, by omega, (numberOf_mod_eq_zero_iff hspells.padding_lt).1 ?_⟩
    rw [hspells.numberOf_eq, Nat.mul_mod_left]
  · rintro ⟨hpadding, hfull, hloose⟩
    -- the bytes are those of the number without its loose bits
    obtain ⟨n, hn⟩ := Nat.dvd_of_mod_eq_zero ((numberOf_mod_eq_zero_iff hpadding).2 hloose)
    obtain ⟨count, hcount⟩ : ∃ count, 3 * symbols.length = 4 * count + padding :=
      ⟨(3 * symbols.length - padding) / 4, by omega⟩
    have hlt : n < 256 ^ count := by
      have hnumber := numberOf_lt h
      rw [hn, weight_eq hcount, Nat.mul_comm] at hnumber
      exact Nat.lt_of_mul_lt_mul_right hnumber
    refine ⟨bytesOfNat count n, h, hpadding, by rw [length_bytesOfNat, hcount], ?_⟩
    rw [natOfBytes_bytesOfNat_of_lt hlt, hn, Nat.mul_comm]

/-- Behind the first character that is no symbol there is only padding. -/
theorem eq_pad_of_notMem {before after : List Char} (h : ∀ c ∈ symbols, c ∈ alphabet)
    (htext : symbols ++ List.replicate padding '=' = before ++ c :: after) (hc : c ∉ alphabet) :
    c = '=' ∧ ∀ d ∈ after, d = '=' := by
  have hpadding : ∀ d ∈ List.replicate padding '=', d = '=' := fun d hd => List.eq_of_mem_replicate hd
  rcases List.append_eq_append_iff.1 htext with ⟨between, rfl, heq⟩ | ⟨between, hsymbols, heq⟩
  · rw [heq] at hpadding
    simp only [List.forall_mem_append, List.forall_mem_cons] at hpadding
    exact hpadding.2
  · -- the character cannot be among the symbols, so these end before it
    cases between with
    | nil =>
        rw [List.nil_append] at heq
        rw [← heq] at hpadding
        exact List.forall_mem_cons.1 hpadding
    | cons d between =>
        obtain ⟨rfl, -⟩ := List.cons.inj heq
        exact absurd (h c (by rw [hsymbols]; simp)) hc

/-- The padding characters of a text are those behind its symbols. -/
theorem count_pad (h : ∀ c ∈ symbols, c ∈ alphabet) (padding : Nat) :
    (symbols ++ List.replicate padding '=').count '=' = padding := by
  rw [List.count_append, List.count_replicate_self,
    List.count_eq_zero_of_not_mem fun hmem => pad_notMem (h _ hmem), Nat.zero_add]

/-- A text is symbols with padding behind them in one way. -/
theorem split_unique (h : ∀ c ∈ symbols, c ∈ alphabet) (h' : ∀ c ∈ symbols', c ∈ alphabet)
    (htext : symbols ++ List.replicate padding '=' = symbols' ++ List.replicate padding' '=') :
    symbols = symbols' ∧ padding = padding' := by
  obtain rfl : padding = padding' := by
    rw [← count_pad h padding, htext, count_pad h' padding']
  exact ⟨List.append_cancel_right htext, rfl⟩

/-- **Reading and writing undo each other, and nothing else is read.** Of texts that are symbols with
padding behind them those are read in which the padding fills the last group and no loose bits are
set; a text with any other character is not read, nor one with padding in front of anything else. -/
theorem decode_bijective :
    (∀ bytes, decode (encode bytes) = .ok bytes) ∧
    (∀ s bytes, decode s = .ok bytes → encode bytes = s) ∧
    (∀ s symbols padding, s.toList = symbols ++ List.replicate padding '=' →
      (∀ c ∈ symbols, c ∈ alphabet) →
      ((∃ bytes, decode s = .ok bytes) ↔
        padding < 3 ∧ (symbols.length + padding) % 4 = 0 ∧ HasNoLooseBits symbols padding)) ∧
    ∀ s before c after, s.toList = before ++ c :: after → c ∉ alphabet →
      (c = '=' → ∃ d ∈ after, d ≠ '=') → ∃ fault, decode s = .error fault := by
  refine ⟨fun bytes => decode_eq_ok_iff.2 rfl, fun s bytes => encode_of_decode, ?_, ?_⟩
  · intro s symbols padding hs hsymbols
    -- a text splits into symbols and padding in one way
    rw [← exists_spells_iff hsymbols]
    refine exists_congr fun bytes => decode_eq_ok_iff_spells.trans ⟨?_, ?_⟩
    · rintro ⟨symbols', padding', hs', hspells⟩
      obtain ⟨rfl, rfl⟩ := split_unique hsymbols hspells.mem_alphabet (hs.symm.trans hs')
      exact hspells
    · exact fun hspells => ⟨symbols, padding, hs, hspells⟩
  · intro s before c after hs hc hpad
    -- what is read has no character from elsewhere, and padding only at its end
    cases hdecode : decode s with
    | error fault => exact ⟨fault, rfl⟩
    | ok bytes =>
        obtain ⟨symbols, padding, hs', hspells⟩ := decode_eq_ok_iff_spells.1 hdecode
        obtain ⟨hc', hafter⟩ := eq_pad_of_notMem hspells.mem_alphabet (hs'.symm.trans hs) hc
        obtain ⟨d, hd, hne⟩ := hpad hc'
        exact absurd (hafter d hd) hne

/-- Two bytes have one text: not without padding, with loose bits, or with the padding elsewhere. -/
theorem decode_bijective_of_two :
    encode [0x68, 0x69] = "aGk=" ∧ (∃ bytes, decode "aGk=" = .ok bytes) ∧
      (¬ ∃ bytes, decode "aGk" = .ok bytes) ∧ (¬ ∃ bytes, decode "aGl=" = .ok bytes) ∧
      ∃ fault, decode "aG=k" = .error fault := by
  obtain ⟨hread, hwritten, hform, hother⟩ := decode_bijective
  have hsymbols : ∀ cs : List Char, cs.all (alphabet.contains ·) = true → ∀ c ∈ cs, c ∈ alphabet :=
    fun cs hcs c hc => List.contains_iff_mem.1 (List.all_eq_true.1 hcs c hc)
  have hloose : ¬ HasNoLooseBits "aGl".toList 1 := fun h => absurd (h 'l' (by decide)) (by decide)
  refine ⟨hwritten _ _ (hread [0x68, 0x69]), ⟨_, hread [0x68, 0x69]⟩, fun h => ?_, fun h => ?_, ?_⟩
  · have hfull := (hform "aGk" "aGk".toList 0 rfl (hsymbols _ (by decide))).1 h
    exact absurd hfull.2.1 (by decide)
  · exact hloose ((hform "aGl=" "aGl".toList 1 rfl (hsymbols _ (by decide))).1 h).2.2
  · exact hother "aG=k" ['a', 'G'] '=' ['k'] rfl pad_notMem fun _ => ⟨'k', by decide, by decide⟩

end BlindSign.Encoding.Base64

import BlindSign.Proofs.Base64Texts
import BlindSign.Proofs.Requirements

set_option autoImplicit false

/-! # A blinded query has one spelling

96 bytes are 32 groups of three, so their base64 form has no padding, and no bits of its last symbol
are loose. **A text is read as a blinded query if and only if it is 128 symbols**
(`exists_parse?_iff`), and then it is the base64 form of the bytes of the query, so no other text is
read as a query with these bytes (`parse?_hasOneSpelling`).

A fingerprint is taken from the text of the query. Since there is one text only, to spell the query
of a request in another way is no way to another fingerprint.
-/

namespace BlindSign.BlindedQuery

open Encoding

variable {s t : String} {q r : BlindedQuery}

/-- **A text is read as a blinded query just if it is 128 symbols.** -/
theorem exists_parse?_iff :
    (∃ q, parse? s = some q) ↔ s.length = 128 ∧ ∀ c ∈ s.toList, c ∈ Base64.alphabet := by
  constructor
  · rintro ⟨q, hq⟩
    obtain ⟨symbols, padding, hs, hspells⟩ := Base64.decode_eq_ok_iff_spells.1 q.decode_text
    rw [(parse?_eq_some_iff.1 hq).1] at hs
    have hlength := hspells.length_eq
    have hpadding := hspells.padding_lt
    rw [q.length_bytes] at hlength
    -- the bytes fill their groups, so nothing is left to pad
    obtain rfl : padding = 0 := by omega
    rw [List.replicate_zero, List.append_nil] at hs
    rw [← String.length_toList, hs]
    exact ⟨by omega, hspells.mem_alphabet⟩
  · rintro ⟨hlength, hsymbols⟩
    rw [← String.length_toList] at hlength
    have hloose : Base64.HasNoLooseBits s.toList 0 := fun _ _ => Nat.mod_one _
    obtain ⟨bytes, hspells⟩ :=
      (Base64.exists_spells_iff hsymbols).2 ⟨by decide, by rw [hlength], hloose⟩
    have hdecode : Base64.decode s = .ok bytes :=
      Base64.decode_eq_ok_iff_spells.2 ⟨s.toList, 0, (List.append_nil _).symm, hspells⟩
    have hbytes := hspells.length_eq
    obtain ⟨q, hq, -⟩ := exists_parse?_eq_iff.2
      ⟨Base64.decode_eq_ok_iff.1 hdecode, show bytes.length = 96 by omega⟩
    exact ⟨q, hq⟩

/-- Queries with the same bytes are read from the same text. -/
theorem text_unique (hq : parse? s = some q) (hr : parse? t = some r) (h : q.bytes = r.bytes) :
    s = t := by
  rw [(parse?_eq_some_iff.1 hq).2, (parse?_eq_some_iff.1 hr).2, h]

/-- **Each query has one spelling.** What is read are the texts of 128 symbols, each of them is the
base64 form of what it is read as, each 96 bytes are read from one of them, and a request whose
query is spelled in another way, but with the same bytes, has the same fingerprint. -/
theorem parse?_hasOneSpelling :
    (∀ s, (∃ q, parse? s = some q) ↔ s.length = 128 ∧ ∀ c ∈ s.toList, c ∈ Base64.alphabet) ∧
    (∀ s q, parse? s = some q → q.text = s ∧ s = Base64.encode q.bytes) ∧
    (∀ s t q r, parse? s = some q → parse? t = some r → q.bytes = r.bytes → s = t) ∧
    (∀ bytes : List UInt8, bytes.length = 96 → ∃! s, ∃ q, parse? s = some q ∧ q.bytes = bytes) ∧
    ∀ (request : Request) t q r, parse? request.blindedQuery = some q → parse? t = some r →
      q.bytes = r.bytes →
      ({ request with blindedQuery := t } : Request).fingerprint = request.fingerprint := by
  refine ⟨fun s => exists_parse?_iff, fun s q => parse?_eq_some_iff.1, fun s t q r => text_unique,
    fun bytes hlength => ?_, fun request t q r hq hr hbytes => ?_⟩
  · refine ⟨Base64.encode bytes, exists_parse?_eq_iff.2 ⟨rfl, hlength⟩, fun s hs => ?_⟩
    exact (exists_parse?_eq_iff.1 hs).1
  · rw [← text_unique hq hr hbytes]

/-- 96 zeros have one spelling, which is 128 times the first symbol; a text with padding is no
query. -/
theorem parse?_hasOneSpelling_of_zeros :
    (∃! s, ∃ q, parse? s = some q ∧ q.bytes = List.replicate 96 0) ∧
    (∃ q, parse? (String.ofList (List.replicate 128 'A')) = some q ∧
      q.text = String.ofList (List.replicate 128 'A') ∧
      Request.fingerprint ⟨"", Base64.encode q.bytes, none, none, none⟩ =
        Request.fingerprint ⟨"", String.ofList (List.replicate 128 'A'), none, none, none⟩) ∧
    ¬ ∃ q, parse? (String.ofList (List.replicate 126 'A' ++ ['=', '='])) = some q := by
  obtain ⟨hform, htext, -, hexists, hfingerprint⟩ := parse?_hasOneSpelling
  have hsymbols : ∀ c ∈ List.replicate 128 'A', c ∈ Base64.alphabet := fun c hc =>
    List.eq_of_mem_replicate hc ▸ Base64.symbolOf_mem (v := 0) (by decide)
  obtain ⟨q, hq⟩ := (hform (String.ofList (List.replicate 128 'A'))).2
    ⟨by rw [String.length_ofList, List.length_replicate], by rwa [String.toList_ofList]⟩
  obtain ⟨hqtext, hqbytes⟩ := htext _ q hq
  refine ⟨hexists _ (List.length_replicate ..), ⟨q, hq, hqtext, ?_⟩, fun h => ?_⟩
  · exact hfingerprint ⟨"", _, none, none, none⟩ _ q q hq (hqbytes ▸ hq) rfl
  · refine Base64.pad_notMem (((hform _).1 h).2 '=' ?_)
    rw [String.toList_ofList]
    simp

end BlindSign.BlindedQuery

import BlindSign.Client
import BlindSign.Proofs.Net.Writing
import BlindSign.Proofs.Trimming
import BlindSign.Proofs.Utf8

set_option autoImplicit false

/-! # The address of a client

A proxy forwards the address of a client in a header that lists hops with commas between them, and
other proxies may have added hops or headers of their own. Only the first header of that name counts,
and of its hops only the first (`addressOf_of_isFirst`).

**The address of a client is the first hop, whatever stands behind it, and if that is no address the
one of the connection** (`ofHeaders_forwarded`). No address has a comma or a blank character in its
text, and all of its characters are visible, so every address is found when it is forwarded as it is
written.
-/

namespace BlindSign

open Text

/-! ## Headers -/

namespace Http

variable {headers : Headers} {name : String} {value : List UInt8} {c : Char} {cs : List Char}

/-- A header is there, and it is the first one with its name, in either case. -/
def Headers.IsFirst (headers : Headers) (name : String) (value : List UInt8) : Prop :=
  ∃ front header back, headers = front ++ (header, value) :: back ∧
    foldCase header = foldCase name ∧ ∀ h ∈ front, foldCase h.1 ≠ foldCase name

/-- No header has a name, in either case. -/
def Headers.Lacks (headers : Headers) (name : String) : Prop :=
  ∀ h ∈ headers, foldCase h.1 ≠ foldCase name

/-- A character may stand in a header that is read as text. -/
def IsVisible (c : Char) : Prop := c = '\t' ∨ (0x20 ≤ c.toNat ∧ c.toNat ≤ 0x7E)

instance (c : Char) : Decidable (IsVisible c) := inferInstanceAs (Decidable (_ ∨ _))

theorem Headers.first?_of_isFirst (h : headers.IsFirst name value) :
    headers.first? name = some value := by
  obtain ⟨front, header, back, rfl, hname, hfront⟩ := h
  have hfind : (front ++ (header, value) :: back).find?
      (fun h => foldCase h.1 == foldCase name) = some (header, value) :=
    List.find?_eq_some_iff_append.2
      ⟨by simpa using hname, front, back, rfl, by simpa using hfront⟩
  rw [Headers.first?, hfind]
  rfl

theorem Headers.text?_of_lacks (h : headers.Lacks name) : headers.text? name = none := by
  have hfind : headers.find? (fun h => foldCase h.1 == foldCase name) = none :=
    List.find?_eq_none.2 fun header hmem heq => h header hmem (beq_iff_eq.1 heq)
  rw [Headers.text?, Headers.first?, hfind]
  rfl

/-- A visible character is one byte, which is visible. -/
theorem IsVisible.encodeChar_eq (h : IsVisible c) :
    Utf8.encodeChar c = [UInt8.ofNat c.toNat] ∧ isVisible (UInt8.ofNat c.toNat) = true ∧
      Char.ofNat (UInt8.ofNat c.toNat).toNat = c := by
  have hascii : c.toNat < 0x80 := by
    rcases h with rfl | ⟨-, hle⟩
    · decide
    · omega
  have hbyte : (UInt8.ofNat c.toNat).toNat = c.toNat := Utf8.toNat_ofNat_of_lt (by omega)
  refine ⟨Utf8.encodeChar_ascii hascii, ?_, by rw [hbyte, Char.ofNat_toNat]⟩
  unfold isVisible
  rw [hbyte]
  rcases h with rfl | ⟨hle, hle'⟩
  · decide
  · simp [hle, hle']

/-- Visible characters are read back from their bytes. -/
theorem text_of_isVisible (h : ∀ c ∈ cs, IsVisible c) :
    (Utf8.encodeChars cs).all isVisible = true ∧
      (Utf8.encodeChars cs).map (fun b => Char.ofNat b.toNat) = cs := by
  induction cs with
  | nil => exact ⟨rfl, rfl⟩
  | cons c cs ih =>
      obtain ⟨hc, hcs⟩ := List.forall_mem_cons.1 h
      obtain ⟨hbytes, hvisible, hchar⟩ := hc.encodeChar_eq
      obtain ⟨hall, hmap⟩ := ih hcs
      rw [Utf8.encodeChars_cons, hbytes, List.singleton_append, List.all_cons, List.map_cons,
        hvisible, hall, hchar, hmap]
      exact ⟨rfl, rfl⟩

/-- **The first header of a name is read as its text, if it is visible.** -/
theorem Headers.text?_of_isFirst (h : headers.IsFirst name (Utf8.encodeChars cs))
    (hcs : ∀ c ∈ cs, IsVisible c) : headers.text? name = some (String.ofList cs) := by
  obtain ⟨hvisible, hmap⟩ := text_of_isVisible hcs
  rw [Headers.text?, Headers.first?_of_isFirst h, Option.bind_some, if_pos hvisible, hmap]

theorem Headers.text?_of_not_isVisible (h : headers.IsFirst name value)
    (hvalue : ∃ b ∈ value, isVisible b = false) : headers.text? name = none := by
  have hall : ¬ value.all isVisible = true := by simpa using hvalue
  rw [Headers.text?, Headers.first?_of_isFirst h, Option.bind_some, if_neg hall]

end Http

/-! ## Hops -/

namespace Client

open Net

variable {headers : Http.Headers} {direct : Option Address} {a : Address}
  {hop rest : List Char}

/-- What may stand behind the first hop: nothing, or a comma and any visible text. -/
def IsRest (rest : List Char) : Prop :=
  rest = [] ∨ ∃ more, rest = ',' :: more ∧ ∀ c ∈ more, Http.IsVisible c

/-- A character may stand in a hop. -/
def IsOfHop (c : Char) : Prop := Http.IsVisible c ∧ c ≠ ','

instance (c : Char) : Decidable (IsOfHop c) := inferInstanceAs (Decidable (_ ∧ _))

theorem IsRest.isVisible (h : IsRest rest) : ∀ c ∈ rest, Http.IsVisible c := by
  rcases h with rfl | ⟨more, rfl, hmore⟩
  · exact List.forall_mem_nil _
  · exact List.forall_mem_cons.2 ⟨by decide, hmore⟩

/-- The first hop ends before the first comma. -/
theorem firstHop?_append (hhop : ∀ c ∈ hop, IsOfHop c) (hrest : IsRest rest) :
    firstHop? (String.ofList (hop ++ rest)) = Address.ofChars? (trimChars hop) := by
  have hends : rest.takeWhile (· != ',') = [] := by
    rcases hrest with rfl | ⟨more, rfl, -⟩ <;> rfl
  rw [firstHop?, String.toList_ofList,
    List.takeWhile_append_of_pos fun c hc => bne_iff_ne.2 (hhop c hc).2, hends, List.append_nil]

/-- **The address of a client is the one that the first hop is read as, or the one of the
connection.** -/
theorem addressOf_of_isFirst
    (h : headers.IsFirst "x-forwarded-for" (Utf8.encodeChars (hop ++ rest)))
    (hhop : ∀ c ∈ hop, IsOfHop c) (hrest : IsRest rest) :
    addressOf headers direct = (Address.ofChars? (trimChars hop)).or direct := by
  have hvisible : ∀ c ∈ hop ++ rest, Http.IsVisible c :=
    List.forall_mem_append.2 ⟨fun c hc => (hhop c hc).1, hrest.isVisible⟩
  rw [addressOf, Http.Headers.text?_of_isFirst h hvisible, Option.bind_some,
    firstHop?_append hhop hrest]
  cases Address.ofChars? (trimChars hop) <;> rfl

/-- A hop is read as an address just if it is a text of it between blank characters. -/
theorem ofChars?_trimChars_iff : Address.ofChars? (trimChars hop) = some a ↔
    ∃ text, IsPadded (String.ofList hop) text ∧ a.IsWrittenIn text.toList := by
  rw [← String.toList_ofList (l := hop), ← toList_trim, Address.ofChars?_eq_some_iff,
    String.ofList_toList]
  constructor
  · exact fun h => ⟨_, isPadded_trim _, h⟩
  · rintro ⟨text, hpadded, h⟩
    have hne : text ≠ "" := by
      rintro rfl
      cases Address.ofChars?_eq_some_iff.2 h
    rwa [trim_of_isPadded hpadded h.isBlank_eq_false hne]

/-- All characters of an address may stand in a hop. -/
theorem isOfHop_of_mem_chars (a : Address) : ∀ c ∈ a.chars, IsOfHop c := by
  have hdigits : ∀ d < 16, IsOfHop d.digitChar ∧ IsOfHop d.digitChar.toUpper := by decide
  refine a.isWrittenIn_chars.forall_mem (fun c d hd => ?_) (by decide) (by decide)
  obtain ⟨-, hd, rfl | rfl⟩ := hd
  · exact (hdigits d hd).1
  · exact (hdigits d hd).2

/-- Spaces and tabs may stand in a hop. -/
theorem isOfHop_of_spaces {cs : List Char} (h : ∀ c ∈ cs, c = ' ' ∨ c = '\t') :
    (∀ c ∈ cs, IsOfHop c) ∧ ∀ c ∈ cs, isBlank c = true := by
  constructor
  · intro c hc
    rcases h c hc with rfl | rfl <;> decide
  · intro c hc
    rcases h c hc with rfl | rfl <;> decide

/-- An address as it is written, between spaces and tabs, is read as it. -/
theorem ofChars?_spaces {before after : List Char} (hbefore : ∀ c ∈ before, c = ' ' ∨ c = '\t')
    (hafter : ∀ c ∈ after, c = ' ' ∨ c = '\t') (a : Address) :
    Address.ofChars? (trimChars (before ++ a.chars ++ after)) = some a := by
  refine ofChars?_trimChars_iff.2 ⟨a.text, ⟨String.ofList before, String.ofList after, ?_, ?_, ?_⟩, ?_⟩
  · rw [Address.text, ← String.ofList_append, ← String.ofList_append]
  · rw [String.toList_ofList]
    exact (isOfHop_of_spaces hbefore).2
  · rw [String.toList_ofList]
    exact (isOfHop_of_spaces hafter).2
  · rw [Address.text, String.toList_ofList]
    exact a.isWrittenIn_chars

/-- **The address of a client is the first hop that is forwarded.** An address that stands there as it
is written, between spaces and tabs, is found whatever follows it in the header, whatever other
headers there are, and whatever the connection has. If the header is missing, if it is not visible, or
if the first hop is no address, the address is the one of the connection, also where one of the other
hops or headers has an address. -/
theorem ofHeaders_forwarded (headers : Http.Headers) (direct : Option Address) :
    (∀ a before after rest, (∀ c ∈ before, c = ' ' ∨ c = '\t') → (∀ c ∈ after, c = ' ' ∨ c = '\t') →
      IsRest rest →
      headers.IsFirst "x-forwarded-for" (Utf8.encodeChars (before ++ a.chars ++ after ++ rest)) →
      (ofHeaders headers direct).address = some a ∧
        (ofHeaders headers direct).addressText = some a.text) ∧
    (headers.Lacks "x-forwarded-for" → (ofHeaders headers direct).address = direct) ∧
    (∀ value, headers.IsFirst "x-forwarded-for" value → (∃ b ∈ value, Http.isVisible b = false) →
      (ofHeaders headers direct).address = direct) ∧
    ∀ hop rest, (∀ c ∈ hop, IsOfHop c) → IsRest rest →
      headers.IsFirst "x-forwarded-for" (Utf8.encodeChars (hop ++ rest)) →
      (∀ a text, IsPadded (String.ofList hop) text → ¬ Address.IsWrittenIn a text.toList) →
      (ofHeaders headers direct).address = direct := by
  refine ⟨fun a before after rest hbefore hafter hrest h => ?_, fun h => ?_, fun value h hvalue => ?_,
    fun hop rest hhop hrest h hnone => ?_⟩
  · -- neither an address nor the space around it has a comma, so all of it is the hop
    have hhop : ∀ c ∈ before ++ a.chars ++ after, IsOfHop c := by
      simp only [List.forall_mem_append]
      exact ⟨⟨(isOfHop_of_spaces hbefore).1, isOfHop_of_mem_chars a⟩, (isOfHop_of_spaces hafter).1⟩
    have haddress : (ofHeaders headers direct).address = some a := by
      rw [ofHeaders, addressOf_of_isFirst h hhop hrest, ofChars?_spaces hbefore hafter a]
      rfl
    exact ⟨haddress, by rw [addressText, haddress]; rfl⟩
  · rw [ofHeaders, addressOf, Http.Headers.text?_of_lacks h]
    rfl
  · rw [ofHeaders, addressOf, Http.Headers.text?_of_not_isVisible h hvalue]
    rfl
  · -- reading fails on the hop and does not go on to the next one
    have hread : Address.ofChars? (trimChars hop) = none := by
      refine Option.eq_none_iff_forall_ne_some.2 fun a ha => ?_
      obtain ⟨text, hpadded, hwritten⟩ := ofChars?_trimChars_iff.1 ha
      exact hnone a text hpadded hwritten
    rw [ofHeaders, addressOf_of_isFirst h hhop hrest, hread]
    rfl

/-- An address of version 6 that a proxy forwards, with a hop and a header behind it; a hop that is no
address, a header that is not visible, and no header at all. -/
theorem ofHeaders_forwarded_of_proxies :
    ((ofHeaders [("Accept", Utf8.encode "*/*"),
        ("X-Forwarded-For", Utf8.encode " 2001:db8::1\t, 10.0.0.1"),
        ("x-forwarded-for", Utf8.encode "10.0.0.2")] (some (.v4 ⟨127, 0, 0, 1⟩))).addressText =
          some "2001:db8::1") ∧
    (ofHeaders [("x-forwarded-for", Utf8.encode "unknown, 10.0.0.1"),
        ("x-forwarded-for", Utf8.encode "10.0.0.2")] (some (.v4 ⟨127, 0, 0, 1⟩))).address =
          some (.v4 ⟨127, 0, 0, 1⟩) ∧
    (ofHeaders [("x-forwarded-for", [0x31, 0xE9]), ("x-forwarded-for", Utf8.encode "10.0.0.2")]
        (some (.v4 ⟨127, 0, 0, 1⟩))).address = some (.v4 ⟨127, 0, 0, 1⟩) ∧
    (ofHeaders [("Accept", Utf8.encode "*/*")] none).address = none := by
  refine ⟨?_, ?_, ?_, ?_⟩
  · have hforwarded := (ofHeaders_forwarded [("Accept", Utf8.encode "*/*"),
      ("X-Forwarded-For", Utf8.encode " 2001:db8::1\t, 10.0.0.1"),
      ("x-forwarded-for", Utf8.encode "10.0.0.2")] (some (.v4 ⟨127, 0, 0, 1⟩))).1
    exact (hforwarded (.v6 ⟨[0x2001, 0xDB8, 0, 0, 0, 0, 0, 1], rfl⟩) [' '] ['\t']
      (',' :: " 10.0.0.1".toList) (by simp) (by simp) (.inr ⟨_, rfl, by simp [Http.IsVisible]⟩)
      ⟨[("Accept", Utf8.encode "*/*")], "X-Forwarded-For",
        [("x-forwarded-for", Utf8.encode "10.0.0.2")], by decide +kernel, by decide, by decide⟩).2
  · have hunreadable := (ofHeaders_forwarded [("x-forwarded-for", Utf8.encode "unknown, 10.0.0.1"),
      ("x-forwarded-for", Utf8.encode "10.0.0.2")] (some (.v4 ⟨127, 0, 0, 1⟩))).2.2.2
    refine hunreadable "unknown".toList (',' :: " 10.0.0.1".toList)
      (by simp [IsOfHop, Http.IsVisible]) (.inr ⟨_, rfl, by simp [Http.IsVisible]⟩)
      ⟨[], "x-forwarded-for", [("x-forwarded-for", Utf8.encode "10.0.0.2")], by decide +kernel, rfl,
        List.forall_mem_nil _⟩ fun a text hpadded hwritten => ?_
    cases ofChars?_trimChars_iff.2 ⟨text, hpadded, hwritten⟩
  · have hinvisible := (ofHeaders_forwarded [("x-forwarded-for", [0x31, 0xE9]),
      ("x-forwarded-for", Utf8.encode "10.0.0.2")] (some (.v4 ⟨127, 0, 0, 1⟩))).2.2.1
    exact hinvisible [0x31, 0xE9] ⟨[], "x-forwarded-for",
      [("x-forwarded-for", Utf8.encode "10.0.0.2")], rfl, rfl, List.forall_mem_nil _⟩
      ⟨0xE9, by decide, by decide⟩
  · have hlacks := (ofHeaders_forwarded [("Accept", Utf8.encode "*/*")] none).2.1
    exact hlacks (List.forall_mem_cons.2 ⟨by decide, List.forall_mem_nil _⟩)

end Client

end BlindSign

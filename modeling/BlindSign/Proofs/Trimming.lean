import Mathlib.Data.List.DropRight
import BlindSign.Text.Characters

set_option autoImplicit false

/-! # Trimming

Trimming drops the blank characters at both ends and nothing else: what is left of a text between
blank characters is the text (`trim_of_isPadded`), what is cut off is blank (`isPadded_trim`), and
nothing is left just of a blank text (`isAllBlank_iff`). To trim once is enough (`trim_trim`).
-/

namespace BlindSign.Text

/-- A value is a text between blank characters. -/
def IsPadded (value text : String) : Prop :=
  ∃ before after : String, value = before ++ text ++ after ∧
    (∀ c ∈ before.toList, isBlank c = true) ∧ (∀ c ∈ after.toList, isBlank c = true)

/-- Blank characters are dropped up to the first one that is not blank. -/
theorem dropWhile_isBlank {blanks cs : List Char} (hblank : ∀ c ∈ blanks, isBlank c = true)
    (hcs : ∀ c ∈ cs.head?, isBlank c = false) : (blanks ++ cs).dropWhile isBlank = cs := by
  rw [List.dropWhile_append_of_pos hblank]
  cases cs with
  | nil => rfl
  | cons c cs => exact List.dropWhile_cons_of_neg (by simp [hcs c rfl])

/-- **Trimming leaves a text without blank characters between blank ones.** -/
theorem trim_of_isPadded {value text : String} (h : IsPadded value text)
    (htext : ∀ c ∈ text.toList, isBlank c = false) (hne : text ≠ "") : trim value = text := by
  obtain ⟨before, after, rfl, hbefore, hafter⟩ := h
  have hcs : text.toList ≠ [] := fun hnil => hne (String.toList_eq_nil_iff.1 hnil)
  have hfront : (before.toList ++ (text.toList ++ after.toList)).dropWhile isBlank =
      text.toList ++ after.toList := by
    refine dropWhile_isBlank hbefore fun c hc => htext c ?_
    rw [List.head?_append_of_ne_nil _ hcs] at hc
    exact List.mem_of_mem_head? hc
  have hback : (after.toList.reverse ++ text.toList.reverse).dropWhile isBlank =
      text.toList.reverse := by
    refine dropWhile_isBlank (by simpa using hafter) fun c hc => htext c ?_
    exact List.mem_reverse.1 (List.mem_of_mem_head? hc)
  unfold trim trimChars
  rw [String.toList_append, String.toList_append, List.append_assoc, hfront, List.reverse_append,
    hback, List.reverse_reverse, String.ofList_toList]

/-- What is cut off by trimming is blank. -/
theorem isPadded_trim (s : String) : IsPadded s (trim s) := by
  have hfront := List.takeWhile_append_dropWhile (p := isBlank) (l := s.toList)
  have hback := congrArg List.reverse (List.takeWhile_append_dropWhile (p := isBlank)
    (l := (s.toList.dropWhile isBlank).reverse))
  rw [List.reverse_append, List.reverse_reverse] at hback
  refine ⟨String.ofList (s.toList.takeWhile isBlank),
    String.ofList ((s.toList.dropWhile isBlank).reverse.takeWhile isBlank).reverse, ?_, ?_, ?_⟩
  · refine String.toList_inj.1 ?_
    rw [String.toList_append, String.toList_append, String.toList_ofList, String.toList_ofList,
      toList_trim, List.append_assoc, trimChars, hback, hfront]
  · rw [String.toList_ofList]
    exact fun c hc => List.mem_takeWhile_imp hc
  · rw [String.toList_ofList]
    exact fun c hc => List.mem_takeWhile_imp (List.mem_reverse.1 hc)

/-- A text is blank just if all its characters are. -/
theorem isAllBlank_iff {s : String} : isAllBlank s = true ↔ ∀ c ∈ s.toList, isBlank c = true := by
  have hempty : isAllBlank s = true ↔ trimChars s.toList = [] := by
    rw [isAllBlank, String.isEmpty_iff, ← String.toList_eq_nil_iff, toList_trim]
  rw [hempty]
  unfold trimChars
  rw [List.reverse_eq_nil_iff, List.dropWhile_eq_nil_iff]
  constructor
  · intro h
    have hdropped : ∀ c ∈ s.toList.dropWhile isBlank, isBlank c = true := by simpa using h
    intro c hc
    rw [← List.takeWhile_append_dropWhile (p := isBlank) (l := s.toList), List.mem_append] at hc
    rcases hc with hc | hc
    · exact List.mem_takeWhile_imp hc
    · exact hdropped c hc
  · intro h c hc
    exact h c ((List.dropWhile_suffix _).subset (List.mem_reverse.1 hc))

/-- Nothing is left to trim of what was trimmed. -/
theorem trim_trim (s : String) : trim (trim s) = trim s := by
  have htrim : ∀ cs, trimChars cs = (cs.dropWhile isBlank).rdropWhile isBlank := fun _ => rfl
  -- what is cut off at the end leaves the first character where it is
  have hfront : (trimChars s.toList).dropWhile isBlank = trimChars s.toList := by
    rw [List.dropWhile_eq_self_iff, htrim]
    intro hpos
    have hcut := List.rdropWhile_prefix (p := isBlank) (s.toList.dropWhile isBlank)
    rw [hcut.getElem hpos]
    exact List.dropWhile_get_zero_not _ _ _
  have htwice : trimChars (trimChars s.toList) = trimChars s.toList := by
    rw [htrim (trimChars s.toList), hfront, htrim s.toList]
    exact List.rdropWhile_idempotent _ _
  unfold trim
  rw [String.toList_ofList, htwice]

end BlindSign.Text

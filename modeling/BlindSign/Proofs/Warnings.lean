import BlindSign.Proofs.Answers
import BlindSign.Proofs.Pieces

set_option autoImplicit false

/-! # The text of warnings tells the warnings

The tags of warnings are joined by a comma and a space. No tag has a comma in it, so splitting the
text at the separators gives the tags back, and no two warnings share a tag.

**No two lists of warnings have the same text** (`Warning.text?_isDecodable`), however many warnings
there are, in whatever order and however often each of them. So the warnings of a grant can be told
from the answer that it gets (`Grant.warnings_eq_of_body`). And no tag is a part of another one, so
that the tag of a warning is found in a text just if the warning is there (`Warning.tag_infix_iff`).
-/

namespace BlindSign

namespace Warning

variable {v w : Warning} {vs ws : List Warning} {text : String}

/-- The separator starts with a comma, which no tag has in it. -/
theorem comma_notMem_tag (w : Warning) : ',' ∉ w.tag.toList := by
  cases w with
  | _ => decide

theorem tag_inj : v.tag = w.tag ↔ v = w := by
  cases v with
  | _ =>
      cases w with
      | _ => simp [tag]

theorem map_tag_inj : vs.map tag = ws.map tag ↔ vs = ws :=
  List.map_inj_right fun _ _ => tag_inj.1

/-- The tags are found again by splitting. -/
theorem pieces_intercalate_tags (hne : ws ≠ []) :
    Text.pieces separator (separator.intercalate (ws.map tag)) = ws.map tag := by
  refine Text.pieces_intercalate (c := ',') rfl (by simpa using hne) ?_
  rw [List.forall_mem_map]
  exact fun w _ => comma_notMem_tag w

/-- **A text is that of some warnings just if splitting it gives their tags.** -/
theorem text?_eq_some_iff :
    text? ws = some text ↔ ws ≠ [] ∧ Text.pieces separator text = ws.map tag := by
  rw [text?_eq]
  constructor
  · intro h
    by_cases hne : ws = []
    · rw [if_pos hne] at h
      cases h
    · rw [if_neg hne] at h
      obtain rfl := Option.some.inj h
      exact ⟨hne, pieces_intercalate_tags hne⟩
  · rintro ⟨hne, hpieces⟩
    rw [if_neg hne, ← hpieces, Text.intercalate_pieces (by decide)]

theorem text?_eq_none_iff : text? ws = none ↔ ws = [] := by
  rw [text?_eq, ite_eq_left_iff]
  simp

/-- **No two lists of warnings have the same text.** -/
theorem text?_inj : text? vs = text? ws ↔ vs = ws := by
  constructor
  · intro h
    cases htext : text? ws with
    | none => rw [text?_eq_none_iff.1 (h.trans htext), text?_eq_none_iff.1 htext]
    | some text =>
        -- both lists have the tags that the text is split into
        obtain ⟨-, hv⟩ := text?_eq_some_iff.1 (h.trans htext)
        obtain ⟨-, hw⟩ := text?_eq_some_iff.1 htext
        exact map_tag_inj.1 (hv.symm.trans hw)
  · exact congrArg text?

/-! ## Tags in a text -/

theorem tag_infix_tag_iff : w.tag.toList <:+: v.tag.toList ↔ w = v := by
  cases v with
  | _ =>
      cases w with
      | _ => decide +kernel

/-- A list without an element stands on one side of it. -/
theorem infix_append_cons_iff {α : Type} {c : α} {xs ys zs : List α} (hne : xs ≠ [])
    (hc : c ∉ xs) : xs <:+: ys ++ c :: zs ↔ xs <:+: ys ∨ xs <:+: zs := by
  have hhead : ∀ {l}, l <+: c :: zs → c ∉ l → l = [] := by
    intro l hl hcl
    cases l with
    | nil => rfl
    | cons x l =>
        obtain rfl := (List.cons_prefix_cons.1 hl).1
        exact absurd List.mem_cons_self hcl
  -- a third way is across the border, which has no room without `c`
  rw [List.infix_append_iff]
  constructor
  · rintro (h | h | ⟨front, back, rfl, hfront, hback⟩)
    · exact .inl h
    · rcases List.infix_cons_iff.1 h with h | h
      · exact absurd (hhead h hc) hne
      · exact .inr h
    · obtain rfl := hhead hback fun hmem => hc (List.mem_append_right _ hmem)
      rw [List.append_nil]
      exact .inl hfront.isInfix
  · rintro (h | h)
    · exact .inl h
    · exact .inr (.inl (List.infix_cons h))

theorem toList_joinTags (v u : Warning) (ws : List Warning) :
    (joinTags (v :: u :: ws)).toList =
      v.tag.toList ++ ',' :: ' ' :: (joinTags (u :: ws)).toList := by
  show (v.tag ++ separator ++ joinTags (u :: ws)).toList = _
  rw [String.toList_append, String.toList_append, List.append_assoc]
  rfl

/-- No tag starts with the space of a separator. -/
theorem tag_infix_space_cons_iff {cs : List Char} :
    w.tag.toList <:+: ' ' :: cs ↔ w.tag.toList <:+: cs := by
  have hhead : w.tag.toList.head? ≠ some ' ' := by
    cases w with
    | _ => decide
  have hne : w.tag.toList ≠ [] := by
    cases w with
    | _ => decide
  obtain ⟨c, rest, htag⟩ := List.exists_cons_of_ne_nil hne
  rw [htag] at hhead ⊢
  rw [List.infix_cons_iff, or_iff_right]
  intro h
  obtain rfl := (List.cons_prefix_cons.1 h).1
  exact hhead rfl

theorem tag_infix_joinTags_iff : w.tag.toList <:+: (joinTags ws).toList ↔ w ∈ ws := by
  have hne : w.tag.toList ≠ [] := by
    cases w with
    | _ => decide
  induction ws with
  | nil => simpa [joinTags] using hne
  | cons v ws ih =>
      cases ws with
      | nil => rw [List.mem_singleton, ← tag_infix_tag_iff, joinTags]
      | cons u ws =>
          -- no tag has a comma, so none reaches across a separator
          rw [toList_joinTags, infix_append_cons_iff hne (comma_notMem_tag w), tag_infix_tag_iff,
            tag_infix_space_cons_iff, List.mem_cons]
          exact or_congr_right ih

/-- **The tag of a warning is in the text of some warnings just if it is one of them.** -/
theorem tag_infix_iff :
    (∃ text, text? ws = some text ∧ w.tag.toList <:+: text.toList) ↔ w ∈ ws := by
  cases ws with
  | nil => simp [text?]
  | cons v ws =>
      rw [← tag_infix_joinTags_iff]
      exact ⟨fun ⟨_, htext, h⟩ => Option.some.inj htext ▸ h, fun h => ⟨_, rfl, h⟩⟩

/-- **The text of warnings determines them.** There is none just for the empty list; two lists with
the same text are the same, element by element; and splitting a text at the separator gives exactly
the tags of the warnings in their order. A grant is answered as a success just if it has no text of
warnings, and two grants have the same text just if they have the same warnings. -/
theorem text?_isDecodable :
    (∀ ws, text? ws = none ↔ ws = []) ∧
    (∀ vs ws, text? vs = text? ws ↔ vs = ws) ∧
    (∀ ws text, text? ws = some text ↔ ws ≠ [] ∧ Text.pieces separator text = ws.map tag) ∧
    ∀ g h : Grant, (g.answer.success = true ↔ g.answer.warning = none) ∧
      (g.answer.warning = h.answer.warning ↔ g.warnings = h.warnings) := by
  refine ⟨fun ws => text?_eq_none_iff, fun vs ws => text?_inj, fun ws text => text?_eq_some_iff, ?_⟩
  intro g h
  refine ⟨?_, text?_inj⟩
  show g.warnings.isEmpty = true ↔ text? g.warnings = none
  rw [List.isEmpty_iff, text?_eq_none_iff]

end Warning

/-- The body of the answer to a grant determines its warnings. -/
theorem Grant.warnings_eq_of_body {g h : Grant} (hbody : g.answer.body = h.answer.body) :
    g.warnings = h.warnings := by
  have hanswer : g.answer = h.answer := by
    have hread := congrArg Answer.ofBody? hbody
    rw [Answer.ofBody?_body, Answer.ofBody?_body] at hread
    exact Option.some.inj hread
  exact Warning.text?_inj.1 (congrArg Answer.warning hanswer)

end BlindSign

set_option autoImplicit false

/-! # Texts with separators

A text is split at the places where a separator stands, from left to right (`pieces`). With the
separator between them the pieces make up the text again (`intercalate_pieces`).

**Parts that were joined are found again** (`pieces_intercalate`) if none of them has the character
that the separator starts with: then no separator starts inside a part, not even one that would go
on behind it.
-/

namespace BlindSign.Text

open String.Slice (Pos)
open String.Slice.Pattern.Model

/-- The pieces of a text between the places where a separator stands, from left to right. -/
def pieces (separator text : String) : List String :=
  (text.split separator).toList.map String.Slice.copy

section

variable {separator part front rest : String} {c : Char} {s : String.Slice}
  {start mid p : s.Pos}

/-- A separator does not start inside a part that lacks its first character. -/
theorem not_matchesAt (hc : separator.toList.head? = some c) (hpart : c ∉ part.toList)
    (hstart : start.Splits front (part ++ rest)) (hmid : mid.Splits (front ++ part) rest)
    (hle : start ≤ p) (hlt : p < mid) : ¬ MatchesAt separator p := by
  intro h
  obtain ⟨t, u, hp⟩ := ForwardStringSearcher.matchesAt_iff_splits.1 h
  obtain ⟨skipped, rfl, -⟩ := (hstart.le_iff_exists_eq_append hp).1 hle
  obtain ⟨left, hne, hleft, hrest⟩ := (hp.lt_iff_exists_eq_append hmid).1 hlt
  obtain rfl : part = skipped ++ left := by
    rwa [String.append_assoc, String.append_right_inj] at hleft
  -- what is left of the part begins as the separator does
  have hhead : left.toList.head? = some c := by
    have hne' : left.toList ≠ [] := by simpa using hne
    have hheads := congrArg (fun t => t.toList.head?) hrest.symm
    simpa [List.head?_append, hc, List.head?_eq_some_head hne'] using hheads
  rw [String.toList_append] at hpart
  exact hpart (List.mem_append_right _ (List.mem_of_mem_head? hhead))

/-- What stands between two places. -/
theorem copy_subslice {hle : start ≤ mid} (hstart : start.Splits front (part ++ rest))
    (hmid : mid.Splits (front ++ part) rest) : (s.subslice start mid hle).toSlice.copy = part := by
  obtain ⟨_, h⟩ := String.Slice.copy_slice_eq_iff_splits.2 ⟨front, rest, hstart, hmid⟩
  rwa [String.Slice.toSlice_subslice]

/-- From a place on, the parts that stand there are found, if none of them has the first character
of the separator. -/
theorem split_eq [StrictPatternModel separator] (hc : separator.toList.head? = some c)
    {part : String} {parts : List String} (hparts : ∀ q ∈ part :: parts, c ∉ q.toList)
    {front : String} {start : s.Pos}
    (hstart : start.Splits front (separator.intercalate (part :: parts))) :
    (String.Slice.Pattern.Model.split separator start start (Std.le_refl _)).map
      (String.Slice.copy ∘ String.Slice.Subslice.toSlice) = part :: parts := by
  have hpart := hparts part List.mem_cons_self
  induction parts generalizing part front start with
  | nil =>
      rw [String.intercalate_singleton] at hstart
      have hend : s.endPos.Splits (front ++ part) "" :=
        String.Slice.splits_endPos_iff.2 ⟨hstart.eq_append.symm, rfl⟩
      rw [← String.append_empty (s := part)] at hstart
      rw [split_eq_of_not_matchesAt s.endPos (String.Slice.Pos.le_endPos _)
        fun p => not_matchesAt hc hpart hstart hend, split_endPos, List.map_cons, List.map_nil,
        Function.comp_apply, copy_subslice hstart hend]
  | cons q parts ih =>
      rw [String.intercalate_cons_cons, String.append_assoc] at hstart
      -- the separator starts where the part ends, and the other parts stand behind it
      have hmid := hstart.splits_rotateRight
      have hstop := hmid.splits_rotateRight
      have hle := (hstart.le_iff_exists_eq_append hmid).2 ⟨part, rfl, rfl⟩
      have hmatch : IsLongestMatchAt separator hstart.rotateRight hmid.rotateRight :=
        ForwardStringSearcher.isLongestMatchAt_iff_splits.2 ⟨_, _, hmid, hstop⟩
      rw [split_eq_of_not_matchesAt _ hle fun p => not_matchesAt hc hpart hstart hmid,
        split_eq_of_isLongestMatchAt hmatch, List.map_cons, Function.comp_apply,
        copy_subslice hstart hmid,
        ih (fun r hr => hparts r (List.mem_cons_of_mem _ hr)) hstop
          (hparts q (List.mem_cons_of_mem _ List.mem_cons_self))]

end

/-- The pieces are those that the search for the separator cuts from the start of the text on. -/
theorem pieces_eq {separator : String} [StrictPatternModel separator]
    [LawfulToForwardSearcherModel separator] (text : String) :
    pieces separator text = (String.Slice.Pattern.Model.split separator text.toSlice.startPos
      text.toSlice.startPos (Std.le_refl _)).map
        (String.Slice.copy ∘ String.Slice.Subslice.toSlice) := by
  rw [pieces, String.split_eq_split_toSlice, String.Slice.toList_split_eq_splitToSubslice,
    String.Slice.Pattern.toList_splitToSubslice_eq_modelSplit, List.map_map]

/-- **Parts are found again in their order**, if none of them has the first character of the
separator. -/
theorem pieces_intercalate {separator : String} {c : Char} (hc : separator.toList.head? = some c)
    {parts : List String} (hne : parts ≠ []) (hparts : ∀ q ∈ parts, c ∉ q.toList) :
    pieces separator (separator.intercalate parts) = parts := by
  have hseparator : separator ≠ "" := by
    rintro rfl
    cases hc
  have := ForwardStringSearcher.strictPatternModel hseparator
  have := ForwardStringSearcher.lawfulToForwardSearcherModel hseparator
  obtain ⟨part, parts, rfl⟩ := List.exists_cons_of_ne_nil hne
  rw [pieces_eq]
  exact split_eq hc hparts (String.Slice.splits_startPos_iff.2 ⟨rfl, by simp⟩)

/-- Pieces that were cut from a place on make up what stands there. -/
theorem intercalate_split {separator : String} [StrictPatternModel separator] {s : String.Slice}
    {start p : s.Pos} {hle : start ≤ p} {front rest : String} (hstart : start.Splits front rest) :
    let found := (String.Slice.Pattern.Model.split separator start p hle).map
      (String.Slice.copy ∘ String.Slice.Subslice.toSlice)
    found ≠ [] ∧ separator.intercalate found = rest := by
  -- by induction on the places from the end of the text to its start
  induction p using WellFounded.induction String.Slice.Pos.wellFounded_gt
    generalizing start front rest with
  | h p ih =>
      by_cases hend : p = s.endPos
      · subst hend
        have hsplits : s.endPos.Splits (front ++ rest) "" :=
          String.Slice.splits_endPos_iff.2 ⟨hstart.eq_append.symm, rfl⟩
        rw [← String.append_empty (s := rest)] at hstart
        rw [split_endPos, List.map_cons, List.map_nil, Function.comp_apply,
          copy_subslice hstart hsplits]
        exact ⟨List.cons_ne_nil _ _, String.intercalate_singleton⟩
      by_cases hmatch : MatchesAt separator p
      · obtain ⟨stop, hstop⟩ := matchesAt_iff_exists_isLongestMatchAt.1 hmatch
        obtain ⟨t, u, hp, hu⟩ := ForwardStringSearcher.isLongestMatchAt_iff_splits.1 hstop
        obtain ⟨part, rfl, rfl⟩ := (hstart.le_iff_exists_eq_append hp).1 hle
        obtain ⟨hne, hrest⟩ := @ih stop hstop.lt stop (Std.le_refl _) _ _ hu
        rw [split_eq_of_isLongestMatchAt hstop, List.map_cons, Function.comp_apply,
          copy_subslice hstart hp]
        refine ⟨List.cons_ne_nil _ _, ?_⟩
        rw [String.intercalate_cons_of_ne_nil hne, hrest, String.append_assoc]
      · rw [split_eq_next_of_not_matchesAt hend hmatch]
        exact ih _ (by simp) hstart

/-- A text is its pieces with the separator between them. -/
theorem intercalate_pieces {separator : String} (hseparator : separator ≠ "") (text : String) :
    separator.intercalate (pieces separator text) = text := by
  have := ForwardStringSearcher.strictPatternModel hseparator
  have := ForwardStringSearcher.lawfulToForwardSearcherModel hseparator
  rw [pieces_eq]
  exact (intercalate_split (String.Slice.splits_startPos_iff.2 ⟨rfl, by simp⟩)).2

end BlindSign.Text

import Mathlib.Data.List.Induction
import Mathlib.Data.List.Sort
import BlindSign.Json.Value

set_option autoImplicit false

/-! # The fields of an object

Fields are kept in the order of their keys, and each key is there once (`Fields.IsSorted`). Setting
fields one after the other leaves under each key the value that was set last, and no other fields
(`Fields.mem_ofList`). Since fields are told by their order, two sequences make up the same object
just if they agree on the last value of each key (`Fields.ofList_eq_iff`).
-/

namespace BlindSign.Json

/-! ## Entries -/

section

variable {entries : List (String × Value)} {e : String × Value} {key : String} {value : Value}

/-- The last of some entries under a key. -/
def IsLast (entries : List (String × Value)) (key : String) (value : Value) : Prop :=
  ∃ front back, entries = front ++ (key, value) :: back ∧ ∀ e ∈ back, e.1 ≠ key

@[simp] theorem not_isLast_nil : ¬ IsLast [] key value := by
  rintro ⟨front, back, h, -⟩
  simp at h

/-- An entry behind others is the last one under its key, and leaves the other keys as they are. -/
theorem isLast_concat :
    IsLast (entries ++ [e]) key value ↔
      e = (key, value) ∨ e.1 ≠ key ∧ IsLast entries key value := by
  constructor
  · rintro ⟨front, back, h, hback⟩
    cases back using List.reverseRecOn with
    | nil =>
        obtain ⟨-, he⟩ := List.append_inj' h rfl
        exact .inl (List.singleton_inj.1 he)
    | append_singleton back last =>
        rw [← List.cons_append, ← List.append_assoc] at h
        obtain ⟨rfl, he⟩ := List.append_inj' h rfl
        obtain rfl := List.singleton_inj.1 he
        rw [List.forall_mem_append, List.forall_mem_singleton] at hback
        exact .inr ⟨hback.2, front, back, rfl, hback.1⟩
  · rintro (rfl | ⟨hne, front, back, rfl, hback⟩)
    · exact ⟨entries, [], rfl, by simp⟩
    · refine ⟨front, back ++ [e], by simp, ?_⟩
      rw [List.forall_mem_append, List.forall_mem_singleton]
      exact ⟨hback, hne⟩

/-- If no key is there twice, each entry is the last one under its key. -/
theorem isLast_iff_mem (h : (entries.map Prod.fst).Nodup) :
    IsLast entries key value ↔ (key, value) ∈ entries := by
  constructor
  · rintro ⟨front, back, rfl, -⟩
    exact List.mem_append_right _ List.mem_cons_self
  · intro hmem
    obtain ⟨front, back, rfl⟩ := List.append_of_mem hmem
    refine ⟨front, back, rfl, ?_⟩
    rw [List.map_append, List.map_cons] at h
    have hnotMem := (List.nodup_cons.1 (List.nodup_append.1 h).2.1).1
    rintro e he rfl
    exact hnotMem (List.mem_map.2 ⟨e, he, rfl⟩)

end

namespace Fields

variable {fields fields' : Fields} {entries entries' : List (String × Value)}
  {e : String × Value} {key : String} {value : Value}

/-! ## Order -/

/-- A field stands in front of another one. -/
def Precedes (e f : String × Value) : Prop := e.1 < f.1

instance : Std.Irrefl Precedes := ⟨fun e => String.lt_irrefl e.1⟩

instance : Std.Antisymm Precedes := ⟨fun _ _ h h' => absurd h' (String.lt_asymm h)⟩

/-- Fields are in the order of their keys, and no key is there twice. -/
def IsSorted (fields : Fields) : Prop := fields.Pairwise Precedes

/-- Sorted fields with the same members are the same. -/
theorem IsSorted.eq_of_mem_iff (h : IsSorted fields) (h' : IsSorted fields')
    (hmem : ∀ e, e ∈ fields ↔ e ∈ fields') : fields = fields' :=
  List.Pairwise.eq_of_mem_iff h h' hmem

/-! ## Setting a field -/

/-- A field that is set goes in front of the first one with a greater key, unless there is one with
its own key, whose place it takes. -/
theorem insert_cons (key : String) (value : Value) (f : String × Value) (rest : Fields) :
    (f.1 < key ∧ insert key value (f :: rest) = f :: insert key value rest) ∨
      (f.1 = key ∧ insert key value (f :: rest) = (key, value) :: rest) ∨
      (key < f.1 ∧ insert key value (f :: rest) = (key, value) :: f :: rest) := by
  by_cases hlt : f.1 < key
  · exact .inl ⟨hlt, if_pos hlt⟩
  by_cases heq : f.1 = key
  · exact .inr (.inl ⟨heq, (if_neg hlt).trans (if_pos heq)⟩)
  · have hgt : key < f.1 := String.not_le.1 fun hle => heq (String.le_antisymm hle hlt)
    exact .inr (.inr ⟨hgt, (if_neg hlt).trans (if_neg heq)⟩)

/-- A field that is set is there with its value, and the fields under other keys stay. -/
theorem mem_insert (h : IsSorted fields) :
    e ∈ insert key value fields ↔ e = (key, value) ∨ key ≠ e.1 ∧ e ∈ fields := by
  induction fields with
  | nil => simp [insert]
  | cons f rest ih =>
      obtain ⟨hf, hrest⟩ := List.pairwise_cons.1 h
      -- the rest lacks the key if the first field has it or a greater one
      have hlacks : key ≤ f.1 → e ∈ rest → key ≠ e.1 := by
        rintro hle he rfl
        exact String.not_le.2 (hf e he) hle
      rcases insert_cons key value f rest with ⟨hlt, h⟩ | ⟨heq, h⟩ | ⟨hgt, h⟩
      · have hfirst : e = f → key ≠ e.1 := by
          rintro rfl
          exact (String.ne_of_lt hlt).symm
        rw [h, List.mem_cons, List.mem_cons, ih hrest]
        grind
      · have hfirst : e = f → key = e.1 := by
          rintro rfl
          exact heq.symm
        have hrest := hlacks (heq ▸ String.le_refl _)
        rw [h, List.mem_cons, List.mem_cons]
        grind
      · have hfirst : e = f → key ≠ e.1 := by
          rintro rfl
          exact String.ne_of_lt hgt
        have hrest := hlacks (String.not_lt.1 (String.lt_asymm hgt))
        rw [h, List.mem_cons, List.mem_cons]
        grind

theorem IsSorted.insert (hs : IsSorted fields) : IsSorted (insert key value fields) := by
  induction fields with
  | nil => exact List.pairwise_singleton _ _
  | cons f rest ih =>
      obtain ⟨hf, hrest⟩ := List.pairwise_cons.1 hs
      rcases insert_cons key value f rest with ⟨hlt, h⟩ | ⟨heq, h⟩ | ⟨hgt, h⟩
      · rw [h]
        refine List.pairwise_cons.2 ⟨?_, ih hrest⟩
        intro g hg
        rcases (mem_insert hrest).1 hg with rfl | ⟨-, hg⟩
        · exact hlt
        · exact hf g hg
      · rw [h]
        refine List.pairwise_cons.2 ⟨?_, hrest⟩
        intro g hg
        exact heq ▸ hf g hg
      · rw [h]
        refine List.pairwise_cons.2 ⟨?_, hs⟩
        intro g hg
        rcases List.mem_cons.1 hg with rfl | hg
        · exact hgt
        · exact String.lt_trans hgt (hf g hg)

/-! ## Setting fields in order -/

theorem ofList_concat : ofList (entries ++ [e]) = insert e.1 e.2 (ofList entries) := by
  rw [ofList, List.foldl_append]
  rfl

theorem isSorted_ofList (entries : List (String × Value)) : IsSorted (ofList entries) := by
  induction entries using List.reverseRecOn with
  | nil => exact List.Pairwise.nil
  | append_singleton entries e ih =>
      rw [ofList_concat]
      exact ih.insert

/-- **A field is there with the value that was set last**, and no other fields are there. -/
theorem mem_ofList : (key, value) ∈ ofList entries ↔ IsLast entries key value := by
  induction entries using List.reverseRecOn with
  | nil => simp [ofList]
  | append_singleton entries e ih =>
      rw [ofList_concat, mem_insert (isSorted_ofList entries), ih, isLast_concat, eq_comm]

/-- **Only the last value of each key matters**, and not the order in which the keys were set. -/
theorem ofList_eq_iff :
    ofList entries = ofList entries' ↔
      ∀ key value, IsLast entries key value ↔ IsLast entries' key value := by
  constructor
  · intro h key value
    rw [← mem_ofList, h, mem_ofList]
  · intro h
    refine (isSorted_ofList entries).eq_of_mem_iff (isSorted_ofList entries') ?_
    rintro ⟨key, value⟩
    rw [mem_ofList, mem_ofList, h]

end Fields

end BlindSign.Json

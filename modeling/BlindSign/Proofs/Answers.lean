import BlindSign.Grant
import BlindSign.Proofs.Json.Records

set_option autoImplicit false

/-! # Answers are read back

An answer is written as an object with its fields under fixed names, the text of the warnings last
and only if there is one. Whatever texts and numbers it holds, it is read back from its body
(`Answer.ofBody?_body`), so nothing that a grant says is lost on the way.

**The answer to a grant tells its signature, its numbers, and whether it is clean**
(`Answer.read_back`): it is a success and has no field for warnings, or it is none and has the tags of
all warnings.
-/

namespace BlindSign

namespace Warning

/-- The text of a list of warnings is their tags with separators between them. -/
theorem joinTags_eq (ws : List Warning) : joinTags ws = separator.intercalate (ws.map tag) := by
  induction ws with
  | nil => rfl
  | cons w ws ih =>
      cases ws with
      | nil => rfl
      | cons v ws =>
          have hrest : joinTags (v :: ws) = separator.intercalate (v.tag :: ws.map tag) := ih
          calc joinTags (w :: v :: ws)
              = w.tag ++ separator ++ joinTags (v :: ws) := rfl
            _ = w.tag ++ separator ++ separator.intercalate (v.tag :: ws.map tag) := by rw [hrest]
            _ = separator.intercalate ((w :: v :: ws).map tag) :=
                String.intercalate_cons_cons.symm

/-- There is a text just if there is a warning. -/
theorem text?_eq (ws : List Warning) :
    text? ws = if ws = [] then none else some (separator.intercalate (ws.map tag)) := by
  cases ws with
  | nil => rfl
  | cons w ws => exact congrArg some (joinTags_eq (w :: ws))

end Warning

namespace Answer

open Json

/-! ## Writing -/

def wireEntries (a : Answer) : List (String × Tree) :=
  [("success", .bool a.success), ("signature", .ofText a.signature),
    ("version", .ofText a.version), ("performedQueryCount", .ofInt64 a.performed),
    ("totalQuota", .ofInt64 a.total), ("blockNumber", .ofInt64 a.height)] ++
    optionalEntry "error" .ofText a.warning

theorem wireTree_eq (a : Answer) :
    a.wireTree = .object (a.wireEntries.map fun e => member e.1 e.2) := by
  obtain ⟨success, signature, version, performed, total, height, warning⟩ := a
  cases warning with
  | none => rfl
  | some text => rfl

/-- The names of the fields that are written: all of them, or all but the one of the warnings. -/
theorem keys_wireEntries (a : Answer) :
    a.wireEntries.map Prod.fst = if a.warning.isSome then wireKeys else wireKeys.dropLast := by
  obtain ⟨success, signature, version, performed, total, height, warning⟩ := a
  cases warning with
  | none => rfl
  | some text => rfl

theorem isLegal_wireTree (a : Answer) : a.wireTree.IsLegal := by
  have hvalues : ∀ e ∈ a.wireEntries, e.2.IsLegal := by
    simp only [wireEntries, List.forall_mem_append, List.forall_mem_cons]
    exact ⟨⟨Tree.isLegal_bool _, Tree.isLegal_ofText _, Tree.isLegal_ofText _,
      Tree.isLegal_ofInt64 _, Tree.isLegal_ofInt64 _, Tree.isLegal_ofInt64 _, by simp⟩,
      isLegal_optionalEntry Tree.isLegal_ofText _⟩
  rw [wireTree_eq]
  exact isLegal_members hvalues

theorem parse?_body (a : Answer) : Tree.parse? a.body = some a.wireTree :=
  Tree.parse?_render a.isLegal_wireTree

/-! ## Reading -/

/-- Each field is read into its slot; the slot of a warning that was left out stays empty. -/
theorem slots_wireTree (a : Answer) : Slots.ofTree? wireKeys a.wireTree =
    some [some (.bool a.success), some (.ofText a.signature), some (.ofText a.version),
      some (.ofInt64 a.performed), some (.ofInt64 a.total), some (.ofInt64 a.height),
      a.warning.map .ofText] := by
  refine (Slots.ofTree?_eq_some_iff (by decide) a.isLegal_wireTree).2 ?_
  rw [wireTree_eq]
  refine .object (spelled_member a.wireEntries) ?_
  simp [wireKeys, wireEntries]

theorem ofTree?_wireTree (a : Answer) : ofTree? a.wireTree = some a := by
  have htext : ∀ s, (Tree.ofText s).text? = some s := fun s => (Content.denotes_ofText s).text?_eq
  have hinteger : ∀ n, (Tree.ofInt64 n).int64? = some n :=
    fun n => (Content.Denotes.integer n).int64?_eq
  have hwarning : optional Tree.text? (a.warning.map .ofText) = some a.warning := by
    cases a.warning with
    | none => rfl
    | some text => exact Content.optional_eq rfl (htext text)
  unfold ofTree?
  simp [slots_wireTree, required, Tree.bool?, htext, hinteger, hwarning]

/-- **An answer is read back from its body.** -/
theorem ofBody?_body (a : Answer) : ofBody? a.body = some a := by
  rw [ofBody?, parse?_body]
  exact a.ofTree?_wireTree

/-- The field of the warnings is written just if there is a text of them. -/
theorem error_mem_keys_iff (a : Answer) :
    "error" ∈ a.wireEntries.map Prod.fst ↔ a.warning.isSome = true := by
  rw [keys_wireEntries]
  cases a.warning with
  | none => simp [wireKeys]
  | some text => simp [wireKeys]

/-- **Answers lose nothing on the wire.** Every answer is read back from its body, whatever its texts
and its numbers. From the body of the answer to a grant are read the signature, the numbers and the
version; that it is a success, with no warning, if the grant has no warnings; and else that it is
none, with the tags of all warnings in their order. In the first case, and only then, the body has
no member for the text of warnings. -/
theorem read_back :
    (∀ a : Answer, ofBody? a.body = some a) ∧
    ∀ g : Grant, ∃ a members, ofBody? g.answer.body = some a ∧
      Tree.parse? g.answer.body = some (.object members) ∧
      a.signature = g.signature.text ∧ a.version = BlindSign.version ∧
      a.performed = g.quota.performed ∧ a.total = g.quota.total ∧ a.height = g.height ∧
      a.success = decide (g.warnings = []) ∧
      a.warning = (if g.warnings = [] then none
        else some (", ".intercalate (g.warnings.map Warning.tag))) ∧
      ((∃ m ∈ members, m.1.decode? = some "error") ↔ g.warnings ≠ []) := by
  refine ⟨ofBody?_body, fun g => ?_⟩
  have hwarning : g.answer.warning = if g.warnings = [] then none
      else some (", ".intercalate (g.warnings.map Warning.tag)) := Warning.text?_eq g.warnings
  have hsuccess : g.answer.success = decide (g.warnings = []) := by
    show g.warnings.isEmpty = _
    cases g.warnings <;> rfl
  -- the keys are those that were written, so it is enough to look at the entries
  have hmember : (∃ m ∈ g.answer.wireEntries.map fun e => member e.1 e.2,
      m.1.decode? = some "error") ↔ g.warnings ≠ [] := by
    have hsome : some "error" ∈ (g.answer.wireEntries.map Prod.fst).map some ↔
        "error" ∈ g.answer.wireEntries.map Prod.fst := by simp
    rw [← List.mem_map, map_decode?_members, hsome, error_mem_keys_iff, hwarning]
    by_cases h : g.warnings = []
    · simp [h]
    · simp [h]
  refine ⟨g.answer, _, ofBody?_body _, ?_, rfl, rfl, rfl, rfl, rfl, hsuccess, hwarning, hmember⟩
  rw [parse?_body, wireTree_eq]

end Answer

end BlindSign

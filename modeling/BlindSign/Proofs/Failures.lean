import BlindSign.Refusal
import BlindSign.Proofs.Json.Fields
import BlindSign.Proofs.Json.Writing

set_option autoImplicit false

/-! # Envelopes keep their own fields

A failure is told in an envelope: it did not succeed, its message, and the details that were
attached. Whatever is attached, and under whatever keys, the two fields of the envelope itself are
as they should be, each other key has the value that was attached last, and there are no other keys
(`Failure.mem_fields`). The order in which details were attached cannot be told from the body.

**No detail overrides the envelope** (`Failure.attachAll_keepsEnvelope`), and none can do so on the
wire either: who reads the body finds each field once, under its own key. In particular the envelope
of a refused request has all the details of the refusal (`Refusal.mem_fields_failure`).
-/

namespace BlindSign

open Json

namespace Failure

variable {kind kind' : FailureKind} {message message' : String}
  {entries entries' : List (String × Value)} {key : String} {value : Value}

/-- The keys of the envelope itself. -/
def IsReserved (key : String) : Prop := key = "success" ∨ key = "error"

/-- Details agree on the last value of each key, apart from those of the envelope itself. -/
def Agree (entries entries' : List (String × Value)) : Prop :=
  ∀ key value, ¬ IsReserved key → (IsLast entries key value ↔ IsLast entries' key value)

/-! ## Fields -/

/-- Attaching details is setting fields, one after the other. -/
theorem details_attachAll (f : Failure) (entries : List (String × Value)) :
    (f.attachAll entries).details =
      entries.foldl (fun fields e => Fields.insert e.1 e.2 fields) f.details := by
  induction entries generalizing f with
  | nil => rfl
  | cons e entries ih => exact ih (f.attach e.1 e.2)

theorem message_attachAll (f : Failure) (entries : List (String × Value)) :
    (f.attachAll entries).message = f.message := by
  induction entries generalizing f with
  | nil => rfl
  | cons e entries ih => exact ih (f.attach e.1 e.2)

/-- What the envelope sets behind all details. -/
def envelopeEntries (message : String) : List (String × Value) :=
  [("success", .bool false), ("error", .text message)]

/-- The fields of the envelope are set like details, after all of them. -/
theorem fields_attachAll (kind : FailureKind) (message : String) (entries : List (String × Value)) :
    ((plain kind message).attachAll entries).fields =
      Fields.ofList (entries ++ envelopeEntries message) := by
  rw [fields, details_attachAll, message_attachAll, Fields.ofList, List.foldl_append]
  rfl

theorem isLast_append_envelope :
    IsLast (entries ++ envelopeEntries message) key value ↔
      (key = "success" ∧ value = .bool false) ∨ (key = "error" ∧ value = .text message) ∨
        (¬ IsReserved key ∧ IsLast entries key value) := by
  have hsplit : entries ++ envelopeEntries message =
      (entries ++ [("success", .bool false)]) ++ [("error", .text message)] := by
    simp [envelopeEntries]
  rw [hsplit, isLast_concat, isLast_concat]
  simp only [Prod.mk.injEq, IsReserved]
  by_cases herror : key = "error"
  · subst herror
    simp [eq_comm]
  by_cases hsuccess : key = "success"
  · subst hsuccess
    simp [eq_comm]
  · simp [herror, hsuccess, Ne.symm herror, Ne.symm hsuccess]

/-- **The fields of an envelope.** -/
theorem mem_fields :
    (key, value) ∈ ((plain kind message).attachAll entries).fields ↔
      (key = "success" ∧ value = .bool false) ∨ (key = "error" ∧ value = .text message) ∨
        (¬ IsReserved key ∧ IsLast entries key value) := by
  rw [fields_attachAll, Fields.mem_ofList, isLast_append_envelope]

/-- Envelopes have the same fields just if their messages are the same and their details agree. -/
theorem fields_eq_iff :
    ((plain kind message).attachAll entries).fields =
        ((plain kind' message').attachAll entries').fields ↔
      message = message' ∧ Agree entries entries' := by
  rw [fields_attachAll, fields_attachAll, Fields.ofList_eq_iff]
  simp only [isLast_append_envelope]
  constructor
  · intro h
    refine ⟨?_, ?_⟩
    · have herror := (h "error" (.text message)).1 (.inr (.inl ⟨rfl, rfl⟩))
      simpa [IsReserved] using herror
    · intro key value hkey
      have hsame := h key value
      obtain ⟨hsuccess, herror⟩ := not_or.1 hkey
      simpa [hkey, hsuccess, herror] using hsame
  · rintro ⟨rfl, h⟩ key value
    by_cases hkey : IsReserved key
    · simp [hkey]
    · simp [h key value hkey]

/-! ## The body -/

/-- The body is read as the object of the fields, in their order. -/
theorem parse?_body (f : Failure) :
    Tree.parse? f.body = some (.object (f.fields.map fun e => member e.1 e.2.tree)) := by
  rw [← Value.fieldTrees_eq]
  exact Value.parse?_render (.object f.fields)

/-- **No detail overrides the envelope.** Whatever is attached to a failure, the fields of its
envelope are that it did not succeed, its message, and under each other key what was attached last;
the keys are in order, and none is there twice. Who reads the body finds these fields under their
keys and no others. Two failures have the same fields just if their messages are the same and their
details agree, in whatever order these were attached, and then they have the same body. -/
theorem attachAll_keepsEnvelope (kind : FailureKind) (message : String)
    (entries : List (String × Value)) :
    let f := (plain kind message).attachAll entries
    (∀ key value, (key, value) ∈ f.fields ↔
      (key = "success" ∧ value = .bool false) ∨ (key = "error" ∧ value = .text message) ∨
        (¬ IsReserved key ∧ IsLast entries key value)) ∧
    f.fields.Pairwise (fun e e' => e.1 < e'.1) ∧
    (∃ members, Tree.parse? f.body = some (.object members) ∧
      members.map (fun m => (m.1.decode?, m.2)) = f.fields.map fun e => (some e.1, e.2.tree)) ∧
    ∀ kind' message' entries',
      let g := (plain kind' message').attachAll entries'
      (f.fields = g.fields ↔ message = message' ∧ Agree entries entries') ∧
        (message = message' ∧ Agree entries entries' → f.body = g.body) := by
  intro f
  -- `mem_fields` is the first part; sortedness and reading follow from the form of the fields
  refine ⟨fun key value => mem_fields, ?_, ⟨_, f.parse?_body, ?_⟩, ?_⟩
  · rw [fields_attachAll]
    exact Fields.isSorted_ofList _
  · rw [List.map_map]
    refine List.map_congr_left fun e _ => ?_
    exact Prod.ext (RawText.decode?_encode e.1) rfl
  · intro kind' message' entries' g
    refine ⟨fields_eq_iff, fun h => ?_⟩
    have hfields : f.fields = g.fields := fields_eq_iff.2 h
    rw [body, body, hfields]

/-- A detail that claims success counts for nothing, and of one that is attached twice the last
value counts, wherever it stands among the others. -/
theorem attachAll_keepsEnvelope_of_forged :
    let forged : List (String × Value) := [("success", .bool true), ("blockNumber", .integer 1),
      ("version", .null), ("blockNumber", .integer 500)]
    let honest : List (String × Value) := [("blockNumber", .integer 500), ("version", .null)]
    let f := (plain .forbidden "exceeded quota").attachAll forged
    Agree forged honest ∧ ("success", .bool false) ∈ f.fields ∧
      f.body = ((plain .internal "exceeded quota").attachAll honest).body := by
  intro forged honest f
  have hagree : Agree forged honest := by
    intro key value hkey
    have hforged : forged = [] ++ [("success", .bool true)] ++ [("blockNumber", .integer 1)] ++
      [("version", .null)] ++ [("blockNumber", .integer 500)] := rfl
    have hhonest : honest = [] ++ [("blockNumber", .integer 500)] ++ [("version", .null)] := rfl
    rw [hforged, hhonest]
    simp only [isLast_concat, not_isLast_nil, Prod.mk.injEq]
    have hsuccess : key ≠ "success" := fun h => hkey (.inl h)
    grind
  obtain ⟨hfields, -, -, hsame⟩ := attachAll_keepsEnvelope .forbidden "exceeded quota" forged
  exact ⟨hagree, (hfields _ _).2 (.inl ⟨rfl, rfl⟩), (hsame _ _ _).2 ⟨rfl, hagree⟩⟩

end Failure

/-! ## Refused requests -/

namespace Refusal

open Failure (IsReserved)

theorem nodup_keys_details (r : Refusal) : (r.details.map Prod.fst).Nodup := by
  cases r with
  | exhausted quota height => simp [details]
  | _ => exact List.nodup_singleton _

/-- The envelope of a refused request has its tag and all of its details. -/
theorem mem_fields_failure (r : Refusal) {key : String} {value : Value} :
    (key, value) ∈ r.failure.fields ↔
      (key = "success" ∧ value = .bool false) ∨ (key = "error" ∧ value = .text r.tag) ∨
        (key, value) ∈ r.details := by
  have hreserved : ∀ e ∈ r.details, ¬ IsReserved e.1 := by
    cases r with
    | _ => simp [details, IsReserved]
  rw [failure, Failure.mem_fields, isLast_iff_mem r.nodup_keys_details]
  exact or_congr_right (or_congr_right (and_iff_right_of_imp fun h => hreserved _ h))

end Refusal

end BlindSign

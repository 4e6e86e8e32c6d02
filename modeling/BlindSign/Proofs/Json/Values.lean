import BlindSign.Json.Value
import BlindSign.Proofs.Json.Grammar
import BlindSign.Proofs.Json.Records

set_option autoImplicit false

/-! # The values that trees denote

`Tree.Means` tells which value a tree denotes, from the values of its parts: a string the text that
it spells, an array the values of its items in order, and an object the fields that its members make
up, of which the last one under a key counts. Trees with too many containers open at once denote
none.

**Reading finds the value that a legal tree denotes, and no other** (`Value.ofTree?_eq_some_iff`).
-/

namespace BlindSign.Json

open Text

/-- A tree denotes a value, with at most `depth` containers open at once. -/
def Tree.Means : (depth : Nat) → Tree → Value → Prop
  | _, .null, v => v = .null
  | _, .bool value, v => v = .bool value
  | _, .number spelling, v => Value.ofNumber? spelling = some v
  | _, .text raw, v => ∃ s, RawText.Spells raw (Utf8.encode s) ∧ v = .text s
  | 0, .array _, _ => False
  | depth + 1, .array items, v =>
      ∃ values, List.Forall₂ (Tree.Means depth) items values ∧ v = .array values
  | 0, .object _, _ => False
  | depth + 1, .object members, v =>
      ∃ entries : List (String × Value),
        List.Forall₂ (fun m e => RawText.Spells m.1 (Utf8.encode e.1) ∧
          Tree.Means depth m.2 e.2) members entries ∧
        v = .object (Fields.ofList entries)

/-! ## Lists of parts -/

/-- Relations that agree on the items of a list agree on the list. -/
theorem forall₂_congr {α β : Type} {r s : α → β → Prop} {as : List α} {bs : List β}
    (h : ∀ a ∈ as, ∀ b, r a b ↔ s a b) : List.Forall₂ r as bs ↔ List.Forall₂ s as bs := by
  induction as generalizing bs with
  | nil => rw [List.forall₂_nil_left_iff, List.forall₂_nil_left_iff]
  | cons a as ih =>
      have hrest := fun bs => @ih bs fun a ha => h a (List.mem_cons_of_mem _ ha)
      simp only [List.forall₂_cons_left_iff, h a List.mem_cons_self, hrest]

/-- Reading all of a list succeeds if and only if reading each item does. -/
theorem mapM_eq_some_iff {α β : Type} {read : α → Option β} {as : List α} {bs : List β} :
    as.mapM read = some bs ↔ List.Forall₂ (fun a b => read a = some b) as bs := by
  induction as generalizing bs with
  | nil =>
      rw [List.mapM_nil, List.forall₂_nil_left_iff]
      exact ⟨fun h => (Option.some.inj h).symm, fun h => congrArg some h.symm⟩
  | cons a as ih =>
      rw [List.mapM_cons]
      constructor
      · intro h
        obtain ⟨b, hb, hrest⟩ := Option.bind_eq_some_iff.1 h
        obtain ⟨bs', hbs, hbs'⟩ := Option.bind_eq_some_iff.1 hrest
        obtain rfl := Option.some.inj hbs'
        exact .cons hb (ih.1 hbs)
      · intro h
        cases h with
        | cons hb hrest =>
            rw [hb, Option.bind_eq_bind, Option.bind_some, ih.2 hrest]
            rfl

/-- Members whose keys and values are read are inserted one after the other. -/
theorem foldlM_insert_eq_some_iff {read : Tree → Option Value} {members : List (RawText × Tree)}
    {fields result : Fields} :
    members.foldlM (fun (fields : Fields) (m : RawText × Tree) => do
        let key ← m.1.decode?
        let value ← read m.2
        some (Fields.insert key value fields)) fields = some result ↔
      ∃ entries : List (String × Value),
        List.Forall₂ (fun m e => RawText.decode? m.1 = some e.1 ∧ read m.2 = some e.2)
          members entries ∧
        result = entries.foldl (fun fields e => Fields.insert e.1 e.2 fields) fields := by
  induction members generalizing fields with
  | nil =>
      rw [List.foldlM_nil]
      constructor
      · intro h
        exact ⟨[], .nil, (Option.some.inj h).symm⟩
      · rintro ⟨entries, hentries, rfl⟩
        cases hentries
        rfl
  | cons m members ih =>
      rw [List.foldlM_cons]
      constructor
      · intro h
        obtain ⟨fields', hm, hrest⟩ := Option.bind_eq_some_iff.1 h
        obtain ⟨key, hkey, hm⟩ := Option.bind_eq_some_iff.1 hm
        obtain ⟨value, hvalue, hm⟩ := Option.bind_eq_some_iff.1 hm
        obtain rfl := Option.some.inj hm
        obtain ⟨entries, hentries, rfl⟩ := ih.1 hrest
        exact ⟨(key, value) :: entries, .cons ⟨hkey, hvalue⟩ hentries, rfl⟩
      · rintro ⟨entries, hentries, rfl⟩
        cases hentries with
        | cons hm hrest =>
            obtain ⟨hkey, hvalue⟩ := hm
            refine Option.bind_eq_some_iff.2 ⟨_, ?_, ih.2 ⟨_, hrest, rfl⟩⟩
            rw [hkey, hvalue]
            rfl

/-! ## Values -/

namespace Value

theorem ofTree?_text {raw : RawText} (hlegal : raw.IsLegal) (depth : Nat) {v : Value} :
    ofTree? depth (.text raw) = some v ↔ Tree.Means depth (.text raw) v := by
  have hread : ofTree? depth (.text raw) = raw.decode?.map .text := by cases depth <;> rfl
  have hmeans : Tree.Means depth (.text raw) v ↔
      ∃ s, RawText.Spells raw (Utf8.encode s) ∧ v = .text s := by cases depth <;> rfl
  rw [hread, hmeans, Option.map_eq_some_iff]
  refine exists_congr fun s => ?_
  rw [RawText.decode?_eq_some_iff hlegal, eq_comm (a := v)]

/-- **What is read as a value.** -/
theorem ofTree?_eq_some_iff {depth : Nat} {tree : Tree} (hlegal : tree.IsLegal) {v : Value} :
    ofTree? depth tree = some v ↔ tree.Means depth v := by
  induction depth generalizing tree v with
  | zero =>
      cases tree with
      | text raw => exact ofTree?_text (hlegal (.text raw) List.mem_cons_self) 0
      | array items => simp [ofTree?, Tree.Means]
      | object members => simp [ofTree?, Tree.Means]
      | _ => simp [ofTree?, Tree.Means, eq_comm]
  | succ depth ih =>
      cases tree with
      | text raw => exact ofTree?_text (hlegal (.text raw) List.mem_cons_self) (depth + 1)
      -- the items are one level deeper, where the hypothesis is about them
      | array items =>
          have hitems : ∀ values, items.mapM (ofTree? depth) = some values ↔
              List.Forall₂ (Tree.Means depth) items values := by
            intro values
            rw [mapM_eq_some_iff]
            exact forall₂_congr fun item hitem _ => ih (hlegal.item hitem)
          show (items.mapM (ofTree? depth)).map array = some v ↔
            ∃ values, List.Forall₂ (Tree.Means depth) items values ∧ v = array values
          rw [Option.map_eq_some_iff]
          refine exists_congr fun values => ?_
          rw [hitems, eq_comm (a := v)]
      | object members =>
          have hmembers : ∀ fields, members.foldlM
              (fun (fields : Fields) (m : RawText × Tree) => do
                let key ← m.1.decode?
                let value ← ofTree? depth m.2
                some (Fields.insert key value fields)) [] = some fields ↔
              ∃ entries : List (String × Value),
                List.Forall₂ (fun m e => RawText.Spells m.1 (Utf8.encode e.1) ∧
                  Tree.Means depth m.2 e.2) members entries ∧ fields = Fields.ofList entries := by
            intro fields
            -- the fold inserts in the order of the text, so of equal keys the last one stays
            rw [foldlM_insert_eq_some_iff]
            refine exists_congr fun entries => and_congr_left' ?_
            refine forall₂_congr fun m hm e => ?_
            obtain ⟨hkey, hvalue⟩ := hlegal.member hm
            rw [RawText.decode?_eq_some_iff hkey, ih hvalue]
          show Option.map object _ = some v ↔ ∃ entries : List (String × Value), _ ∧ _
          rw [Option.map_eq_some_iff]
          constructor
          · rintro ⟨fields, hfields, rfl⟩
            obtain ⟨entries, hentries, rfl⟩ := (hmembers fields).1 hfields
            exact ⟨entries, hentries, rfl⟩
          · rintro ⟨entries, hentries, rfl⟩
            exact ⟨_, (hmembers _).2 ⟨entries, hentries, rfl⟩, rfl⟩
      | _ => simp [ofTree?, Tree.Means, eq_comm]

end Value

end BlindSign.Json

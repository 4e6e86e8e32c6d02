import BlindSign.Proofs.Json.Trees

set_option autoImplicit false

/-! # Records are read by their content

A record is read from an object by its keys and from an array by its places. `Presents` lists the
trees that present a record with given contents: objects with the members in any order, under any
spelling of their keys and among any others, and arrays with them in the order of the keys. From
each of them the members are read into the slots that fit the contents (`Presents.exists_slots`),
and where the slots fit, the tree presents the record (`Presents.of_holds`).

`Slots.Holds` lists the trees from which any members are read into slots, and `Content.Denotes`
those that are read as a text or an integer; from others nothing is read
(`Slots.ofTree?_eq_some_iff`, `Content.text?_eq_some_iff`, `Content.int64?_eq_some_iff`).
-/

namespace BlindSign.Json

/-! ## Contents -/

/-- What a member of a record holds. -/
inductive Content
  | text (s : String)
  | integer (n : Int64)
  | absent

namespace Content

def ofText? : Option String → Content
  | some s => text s
  | none => absent

def ofInteger? : Option Int64 → Content
  | some n => integer n
  | none => absent

/-- The trees that denote a content: any spelling of a text, the digits of an integer, and `null`
for what is absent. -/
inductive Denotes : Content → Tree → Prop
  | text {s : String} {raw : RawText} (h : RawText.Spells raw (Text.Utf8.encode s)) :
      Denotes (.text s) (.text raw)
  | integer (n : Int64) : Denotes (.integer n) (.ofInt64 n)
  | absent : Denotes .absent .null

/-- A slot fits a content: it holds a tree that denotes it, or it is empty and the content is
absent. -/
inductive Fits : Content → Option Tree → Prop
  | filled {c : Content} {tree : Tree} (h : c.Denotes tree) : Fits c (some tree)
  | empty : Fits .absent none

theorem denotes_ofText (s : String) : Denotes (.text s) (.ofText s) :=
  .text (RawText.spells_encode s)

/-! ### Contents are read -/

theorem Denotes.text?_eq {s : String} {tree : Tree} (h : Denotes (.text s) tree) :
    tree.text? = some s := by
  cases h with
  | text h => exact h.decode?_eq

theorem Denotes.int64?_eq {n : Int64} {tree : Tree} (h : Denotes (.integer n) tree) :
    tree.int64? = some n := by
  cases h with
  | integer n => exact NumberText.int64?_ofInt n

theorem text?_eq_some_iff {tree : Tree} (hlegal : tree.IsLegal) {s : String} :
    tree.text? = some s ↔ Denotes (.text s) tree := by
  constructor
  · intro h
    cases tree with
    | text raw =>
        have hraw : RawText.IsLegal raw := hlegal (.text raw) List.mem_cons_self
        exact .text ((RawText.decode?_eq_some_iff hraw).1 h)
    | _ => cases h
  · exact Denotes.text?_eq

theorem int64?_eq_some_iff {tree : Tree} (hlegal : tree.IsLegal) {n : Int64} :
    tree.int64? = some n ↔ Denotes (.integer n) tree := by
  constructor
  · intro h
    cases tree with
    | number spelling =>
        have hspelling : spelling.IsLegal := hlegal (.number spelling) List.mem_cons_self
        obtain rfl := hspelling.int64?_eq_some_iff.1 h
        exact .integer n
    | _ => cases h
  · exact Denotes.int64?_eq

/-- A text that must be present is read. -/
theorem Fits.required_text?_eq {s : String} {slot : Option Tree} (h : Fits (.text s) slot) :
    required Tree.text? slot = some s := by
  cases h with
  | filled h => exact h.text?_eq

/-- What is present and no `null` is read. -/
theorem optional_eq {α : Type} {read : Tree → Option α} {tree : Tree} {a : α}
    (hnull : read .null = none) (h : read tree = some a) :
    optional read (some tree) = some (some a) := by
  cases tree with
  | null => cases hnull.symm.trans h
  | _ => exact congrArg (Option.map some) h

/-- What a slot holds of a member that may be absent: nothing or `null` if it is absent, and else a
tree with its meaning. -/
def HoldsOptional {α : Type} (means : Tree → α → Prop) (slot : Option Tree) : Option α → Prop
  | none => slot = none ∨ slot = some .null
  | some a => ∃ tree, slot = some tree ∧ tree ≠ .null ∧ means tree a

theorem optional_eq_some_iff {α : Type} {read : Tree → Option α} {means : Tree → α → Prop}
    {slot : Option Tree} (h : ∀ tree a, slot = some tree → (read tree = some a ↔ means tree a))
    {o : Option α} : optional read slot = some o ↔ HoldsOptional means slot o := by
  cases slot with
  | none => cases o <;> simp [optional, HoldsOptional]
  | some tree =>
      by_cases hnull : tree = .null
      · subst hnull
        cases o <;> simp [optional, HoldsOptional]
      · have hread : optional read (some tree) = (read tree).map some := by
          cases tree with
          | null => exact absurd rfl hnull
          | _ => rfl
        rw [hread, Option.map_eq_some_iff]
        cases o with
        | none => simp [HoldsOptional, hnull]
        | some a =>
            have ha := h tree a rfl
            simp [HoldsOptional, hnull, ha]

/-- What a slot holds of a member that may be absent fits its content. -/
theorem HoldsOptional.fits {α : Type} {content : Option α → Content}
    (hnone : content none = .absent) {o : Option α} {slot : Option Tree}
    (h : HoldsOptional (fun tree a => (content (some a)).Denotes tree) slot o) :
    Fits (content o) slot := by
  cases o with
  | none =>
      rw [hnone]
      rcases h with rfl | rfl
      · exact .empty
      · exact .filled .absent
  | some a =>
      obtain ⟨tree, rfl, -, h⟩ := h
      exact .filled h

/-- A member that may be absent is read, if it is read where it is present and `null` is not. -/
theorem Fits.optional?_eq {α : Type} {read : Tree → Option α} {content : Option α → Content}
    (hnull : read .null = none) (hnone : content none = .absent)
    (hsome : ∀ a tree, (content (some a)).Denotes tree → read tree = some a)
    {o : Option α} {slot : Option Tree} (h : Fits (content o) slot) :
    optional read slot = some o := by
  cases o with
  | some a =>
      generalize hc : content (some a) = c at h
      cases h with
      | @filled _ tree h => exact optional_eq hnull (hsome a tree (hc ▸ h))
      | empty =>
          have hread := hsome a .null (hc ▸ .absent)
          cases hnull.symm.trans hread
  | none =>
      rw [hnone] at h
      cases h with
      | filled h =>
          cases h
          rfl
      | empty => rfl

theorem Fits.optional_text?_eq {o : Option String} {slot : Option Tree}
    (h : Fits (.ofText? o) slot) : optional Tree.text? slot = some o :=
  h.optional?_eq rfl rfl fun _ _ h => Denotes.text?_eq h

theorem Fits.optional_int64?_eq {o : Option Int64} {slot : Option Tree}
    (h : Fits (.ofInteger? o) slot) : optional Tree.int64? slot = some o :=
  h.optional?_eq rfl rfl fun _ _ h => Denotes.int64?_eq h

/-! ### What was read fits -/

section

variable {slot : Option Tree}

theorem Fits.of_required_text? (hlegal : ∀ t, slot = some t → t.IsLegal) {s : String}
    (h : required Tree.text? slot = some s) : Fits (.text s) slot := by
  obtain ⟨tree, rfl, htext⟩ := Option.bind_eq_some_iff.1 h
  exact .filled ((text?_eq_some_iff (hlegal tree rfl)).1 htext)

theorem Fits.of_optional_text? (hlegal : ∀ t, slot = some t → t.IsLegal) {o : Option String}
    (h : optional Tree.text? slot = some o) : Fits (.ofText? o) slot := by
  have hread : ∀ tree s, slot = some tree → (tree.text? = some s ↔ Denotes (.text s) tree) :=
    fun tree _ ht => text?_eq_some_iff (hlegal tree ht)
  exact ((optional_eq_some_iff hread).1 h).fits rfl

theorem Fits.of_optional_int64? (hlegal : ∀ t, slot = some t → t.IsLegal) {o : Option Int64}
    (h : optional Tree.int64? slot = some o) : Fits (.ofInteger? o) slot := by
  have hread : ∀ tree n, slot = some tree → (tree.int64? = some n ↔ Denotes (.integer n) tree) :=
    fun tree _ ht => int64?_eq_some_iff (hlegal tree ht)
  exact ((optional_eq_some_iff hread).1 h).fits rfl

end

end Content

/-! ## Members by their keys -/

/-- What stands on the right of a relation of lists has a counterpart on the left. -/
theorem exists_of_mem_right {α β : Type} {r : α → β → Prop} {as : List α} {bs : List β}
    (h : List.Forall₂ r as bs) {b : β} (hb : b ∈ bs) : ∃ a ∈ as, r a b := by
  induction h with
  | nil => cases hb
  | @cons a b' as bs hab _ ih =>
      rcases List.mem_cons.1 hb with rfl | hb
      · exact ⟨a, List.mem_cons_self, hab⟩
      · obtain ⟨a', ha', hab'⟩ := ih hb
        exact ⟨a', List.mem_cons_of_mem _ ha', hab'⟩

/-- The members of an object with the texts that their keys spell. -/
def Spelled (members : List (RawText × Tree)) (entries : List (String × Tree)) : Prop :=
  List.Forall₂ (fun m e => RawText.Spells m.1 (Text.Utf8.encode e.1) ∧ m.2 = e.2) members entries

def valuesOf (key : String) (entries : List (String × Tree)) : List Tree :=
  (entries.filter fun e => e.1 = key).map Prod.snd

/-- Members that are written spell their keys. -/
theorem spelled_member (entries : List (String × Tree)) :
    Spelled (entries.map fun e => member e.1 e.2) entries := by
  unfold Spelled
  rw [List.forall₂_map_left_iff, List.forall₂_same]
  exact fun e _ => ⟨RawText.spells_encode e.1, rfl⟩

@[simp] theorem valuesOf_nil (key : String) : valuesOf key [] = [] := rfl

@[simp] theorem valuesOf_cons (key : String) (e : String × Tree) (entries : List (String × Tree)) :
    valuesOf key (e :: entries) =
      if e.1 = key then e.2 :: valuesOf key entries else valuesOf key entries := by
  by_cases h : e.1 = key
  · simp [valuesOf, h]
  · simp [valuesOf, h]

@[simp] theorem valuesOf_append (key : String) (entries entries' : List (String × Tree)) :
    valuesOf key (entries ++ entries') = valuesOf key entries ++ valuesOf key entries' := by
  simp [valuesOf]

namespace Slots

/-- A member goes to its own slot, if that is free. -/
theorem fill_map {keys : List String} (hkeys : keys.Nodup) (f : String → Option Tree) {key : String}
    (tree : Tree) (hfree : key ∈ keys → f key = none) :
    fill keys key tree (keys.map f) =
      some (keys.map fun k => if k = key then some tree else f k) := by
  induction keys with
  | nil => rfl
  | cons k keys ih =>
      obtain ⟨hk, hkeys⟩ := List.nodup_cons.1 hkeys
      rw [List.map_cons, List.map_cons]
      by_cases hkey : k = key
      · subst hkey
        have hothers : (keys.map fun k' => if k' = k then some tree else f k') = keys.map f := by
          refine List.map_congr_left fun k' hk' => if_neg ?_
          rintro rfl
          exact hk hk'
        have hplaced : fill (k :: keys) k tree (none :: keys.map f) =
            some (some tree :: keys.map f) := if_pos rfl
        rw [hfree List.mem_cons_self, hothers, if_pos rfl, hplaced]
      · have hpassed : fill (k :: keys) key tree (f k :: keys.map f) =
            (fill keys key tree (keys.map f)).map (f k :: ·) := if_neg hkey
        rw [hpassed, if_neg hkey, ih hkeys fun h => hfree (List.mem_cons_of_mem _ h)]
        rfl

/-- Members are read into the slots of their keys, if there is room for each. -/
theorem foldlM_fillMember {keys : List String} (hkeys : keys.Nodup)
    {members : List (RawText × Tree)} {entries : List (String × Tree)}
    (h : Spelled members entries) (f : String → Option Tree)
    (hroom : ∀ key ∈ keys, ((f key).toList ++ valuesOf key entries).length ≤ 1) :
    members.foldlM (fillMember keys) (keys.map f) =
      some (keys.map fun key => ((f key).toList ++ valuesOf key entries).head?) := by
  induction h generalizing f with
  | nil =>
      refine congrArg some (List.map_congr_left fun key _ => ?_)
      cases f key <;> rfl
  | @cons m e members entries hspells _ ih =>
      obtain ⟨hkey, hvalue⟩ := hspells
      have hfree : e.1 ∈ keys → f e.1 = none := by
        intro hmem
        have hone := hroom e.1 hmem
        cases hf : f e.1 with
        | none => rfl
        | some tree => simp [hf] at hone
      have hfill : fillMember keys (keys.map f) m =
          some (keys.map fun k => if k = e.1 then some e.2 else f k) := by
        unfold fillMember
        rw [hkey.decode?_eq, hvalue]
        exact fill_map hkeys f e.2 hfree
      -- the member has moved from what is still to be read into its slot
      have hsame : ∀ key ∈ keys,
          (if key = e.1 then some e.2 else f key).toList ++ valuesOf key entries =
            (f key).toList ++ valuesOf key (e :: entries) := by
        intro key hmem
        by_cases he : key = e.1
        · subst he
          simp [hfree hmem]
        · have hne : ¬ e.1 = key := fun h => he h.symm
          simp [he, hne]
      have hrest := ih (fun k => if k = e.1 then some e.2 else f k) fun key hmem => by
        rw [hsame key hmem]
        exact hroom key hmem
      rw [List.foldlM_cons, hfill]
      refine hrest.trans (congrArg some (List.map_congr_left fun key hmem => ?_))
      rw [hsame key hmem]

theorem ofTree?_object {keys : List String} (hkeys : keys.Nodup)
    {members : List (RawText × Tree)} {entries : List (String × Tree)}
    (h : Spelled members entries) (hone : ∀ key ∈ keys, (valuesOf key entries).length ≤ 1) :
    ofTree? keys (.object members) = some (keys.map fun key => (valuesOf key entries).head?) :=
  foldlM_fillMember hkeys h (fun _ => none) hone

theorem ofTree?_array {keys : List String} {items : List Tree} {omitted : Nat}
    (h : keys.length = items.length + omitted) :
    ofTree? keys (.array items) = some (items.map some ++ List.replicate omitted none) := by
  have homitted : keys.length - items.length = omitted := by omega
  rw [← homitted]
  exact if_pos (by omega)

/-! ## Slots -/

/-- The trees from which members are read into slots: an object in which each key is spelled at most
once, among any other members; or an array of the members in the order of the keys, of which the
last ones may be missing. -/
inductive Holds (keys : List String) : Tree → Slots → Prop
  | object {members : List (RawText × Tree)} {entries : List (String × Tree)} {slots : Slots}
      (h : Spelled members entries)
      (hslots : List.Forall₂ (fun key slot => valuesOf key entries = slot.toList) keys slots) :
      Holds keys (.object members) slots
  | array {items : List Tree} {omitted : Nat} (h : keys.length = items.length + omitted) :
      Holds keys (.array items) (items.map some ++ List.replicate omitted none)

/-- What the slots hold of a legal tree is legal. -/
theorem Holds.isLegal {keys : List String} {tree : Tree} {slots : Slots} (h : Holds keys tree slots)
    (hlegal : tree.IsLegal) {t : Tree} (ht : some t ∈ slots) : t.IsLegal := by
  cases h with
  | @object members entries _ hentries hslots =>
      obtain ⟨key, -, hvalues⟩ := exists_of_mem_right hslots ht
      have hmem : t ∈ valuesOf key entries := by rw [hvalues]; simp
      obtain ⟨e, he, rfl⟩ := List.mem_map.1 hmem
      obtain ⟨m, hm, -, hvalue⟩ := exists_of_mem_right hentries (List.mem_of_mem_filter he)
      exact hvalue ▸ (hlegal.member hm).2
  | @array items omitted _ =>
      have hmem : t ∈ items := by simpa using ht
      exact hlegal.item hmem

/-- A slot takes one member. -/
theorem fill_eq_none {keys : List String} (hkeys : keys.Nodup) {f : String → Option Tree}
    {key : String} {tree old : Tree} (hmem : key ∈ keys) (hold : f key = some old) :
    fill keys key tree (keys.map f) = none := by
  induction keys with
  | nil => cases hmem
  | cons k keys ih =>
      obtain ⟨hk, hkeys⟩ := List.nodup_cons.1 hkeys
      by_cases hkey : k = key
      · subst hkey
        simp [fill, hold]
      · have hrest : key ∈ keys := (List.mem_cons.1 hmem).resolve_left (Ne.symm hkey)
        simp [fill, hkey, ih hkeys hrest]

/-- Members that have all found a slot have keys that are spelled, and none of the known keys was
spelled twice. -/
theorem spelled_of_foldlM {keys : List String} (hkeys : keys.Nodup)
    {members : List (RawText × Tree)} (hlegal : ∀ m ∈ members, m.1.IsLegal)
    (f : String → Option Tree) {slots : Slots}
    (h : members.foldlM (fillMember keys) (keys.map f) = some slots) :
    ∃ entries, Spelled members entries ∧
      ∀ key ∈ keys, ((f key).toList ++ valuesOf key entries).length ≤ 1 := by
  induction members generalizing f with
  | nil =>
      refine ⟨[], .nil, fun key _ => ?_⟩
      cases f key <;> simp
  | cons m members ih =>
      obtain ⟨slots₁, hfill, hrest⟩ := Option.bind_eq_some_iff.1 h
      obtain ⟨key, hkey, hfill⟩ := Option.bind_eq_some_iff.1 hfill
      have hspells := (RawText.decode?_eq_some_iff (hlegal m List.mem_cons_self)).1 hkey
      -- a slot that is taken refuses a second value
      have hfree : key ∈ keys → f key = none := by
        intro hmem
        cases hf : f key with
        | none => rfl
        | some old =>
            rw [fill_eq_none hkeys hmem hf] at hfill
            cases hfill
      rw [fill_map hkeys f m.2 hfree] at hfill
      obtain rfl := Option.some.inj hfill
      obtain ⟨entries, hentries, hroom⟩ :=
        ih (fun m hm => hlegal m (List.mem_cons_of_mem _ hm)) _ hrest
      refine ⟨(key, m.2) :: entries, .cons ⟨hspells, rfl⟩ hentries, fun k hk => ?_⟩
      -- the value of this member now counts among the entries instead of the slots
      have hone := hroom k hk
      by_cases hkk : k = key
      · subst hkk
        simpa [hfree hk] using hone
      · have hne : ¬ key = k := fun h => hkk h.symm
        simpa [hkk, hne] using hone

/-- Where there is at most one value, it is the first one. -/
theorem forall₂_valuesOf_iff {keys : List String} {entries : List (String × Tree)}
    {slots : Slots} :
    List.Forall₂ (fun key slot => valuesOf key entries = slot.toList) keys slots ↔
      (∀ key ∈ keys, (valuesOf key entries).length ≤ 1) ∧
        slots = keys.map fun key => (valuesOf key entries).head? := by
  constructor
  · intro h
    induction h with
    | nil => simp
    | @cons key slot keys slots hslot _ ih =>
        obtain ⟨hone, rfl⟩ := ih
        have hhead : (valuesOf key entries).head? = slot := by
          rw [hslot]
          cases slot <;> rfl
        refine ⟨List.forall_mem_cons.2 ⟨?_, hone⟩, by rw [List.map_cons, hhead]⟩
        rw [hslot]
        cases slot <;> simp
  · rintro ⟨hone, rfl⟩
    rw [List.forall₂_map_right_iff, List.forall₂_same]
    intro key hkey
    have hlength := hone key hkey
    match hvalues : valuesOf key entries with
    | [] => rfl
    | [tree] => rfl
    | first :: second :: rest => simp [hvalues] at hlength

/-- **What is read into slots.** -/
theorem ofTree?_eq_some_iff {keys : List String} (hkeys : keys.Nodup) {tree : Tree}
    (hlegal : tree.IsLegal) {slots : Slots} :
    ofTree? keys tree = some slots ↔ Holds keys tree slots := by
  constructor
  · intro h
    cases tree with
    | object members =>
        obtain ⟨entries, hentries, hone⟩ :=
          spelled_of_foldlM hkeys (fun m hm => (hlegal.member hm).1) (fun _ => none) h
        have hread := ofTree?_object hkeys hentries hone
        exact .object hentries
          (forall₂_valuesOf_iff.2 ⟨hone, Option.some.inj (h.symm.trans hread)⟩)
    | array items =>
        simp only [ofTree?] at h
        split at h
        · next hle =>
            obtain rfl := Option.some.inj h
            exact .array (by omega)
        · cases h
    | _ => cases h
  · rintro (⟨hentries, hslots⟩ | hlength)
    · obtain ⟨hone, rfl⟩ := forall₂_valuesOf_iff.1 hslots
      exact ofTree?_object hkeys hentries hone
    · exact ofTree?_array hlength

end Slots

/-! ## Presentations -/

/-- The trees that present a record with the given keys and contents. -/
inductive Presents (fields : List (String × Content)) : Tree → Prop
  /-- An object has each field once under its key, or not at all if its content is absent, in any
  order and among any other members. -/
  | object {members : List (RawText × Tree)} {entries : List (String × Tree)}
      (h : Spelled members entries)
      (hfields : ∀ field ∈ fields,
        (∃ tree, valuesOf field.1 entries = [tree] ∧ field.2.Denotes tree) ∨
          (valuesOf field.1 entries = [] ∧ field.2 = .absent)) :
      Presents fields (.object members)
  /-- An array has the fields in their order; those at the end may be left out if they would be
  `null`. -/
  | array {items : List Tree} {omitted : Nat}
      (h : List.Forall₂ (fun field tree => field.2.Denotes tree) fields
        (items ++ List.replicate omitted .null)) : Presents fields (.array items)

/-- What is left out at the end of an array leaves its slots empty. -/
theorem fits_of_denotes {fields : List (String × Content)} {items : List Tree} {omitted : Nat}
    (h : List.Forall₂ (fun field tree => field.2.Denotes tree) fields
      (items ++ List.replicate omitted .null)) :
    List.Forall₂ (fun field slot => field.2.Fits slot) fields
      (items.map some ++ List.replicate omitted none) := by
  induction items generalizing fields with
  | nil =>
      induction omitted generalizing fields with
      | zero =>
          cases h
          exact .nil
      | succ omitted ih =>
          rw [List.nil_append, List.replicate_succ] at h
          cases h with
          | @cons field _ rest _ hnull hrest =>
              obtain ⟨key, content⟩ := field
              cases hnull
              exact .cons .empty (ih hrest)
  | cons item items ih =>
      cases h with
      | cons hitem hrest => exact .cons (.filled hitem) (ih hrest)

/-- An array that fills its slots has the fields in their order. -/
theorem denotes_of_fits {fields : List (String × Content)} {items : List Tree} {omitted : Nat}
    (h : List.Forall₂ (fun field slot => field.2.Fits slot) fields
      (items.map some ++ List.replicate omitted none)) :
    List.Forall₂ (fun field tree => field.2.Denotes tree) fields
      (items ++ List.replicate omitted .null) := by
  induction items generalizing fields with
  | nil =>
      -- an array may end early: the fields behind its end are absent
      induction omitted generalizing fields with
      | zero =>
          cases h
          exact .nil
      | succ omitted ih =>
          rw [List.map_nil, List.nil_append, List.replicate_succ] at h
          cases h with
          | @cons field _ rest _ hempty hrest =>
              obtain ⟨key, content⟩ := field
              cases hempty
              exact .cons .absent (ih hrest)
  | cons item items ih =>
      cases h with
      | @cons field _ rest _ hitem hrest =>
          obtain ⟨key, content⟩ := field
          cases hitem with
          | filled hitem => exact .cons hitem (ih hrest)

/-- A tree that holds slots which fit contents presents the record. -/
theorem Presents.of_holds {fields : List (String × Content)} {tree : Tree} {slots : Slots}
    (h : Slots.Holds (fields.map Prod.fst) tree slots)
    (hfits : List.Forall₂ (fun field slot => field.2.Fits slot) fields slots) :
    Presents fields tree := by
  cases h with
  | @object members entries _ hentries hslots =>
      refine .object hentries ?_
      rw [List.forall₂_map_left_iff] at hslots
      -- on the fields, each with the slot of its own key
      induction hfits with
      | nil => simp
      | @cons field slot fields slots hfit _ ih =>
          obtain ⟨key, content⟩ := field
          cases hslots with
          | cons hslot hslots =>
              refine List.forall_mem_cons.2 ⟨?_, ih hslots⟩
              cases hfit with
              | filled hdenotes => exact .inl ⟨_, hslot, hdenotes⟩
              | empty => exact .inr ⟨hslot, rfl⟩
  | @array items omitted hlength => exact .array (denotes_of_fits hfits)

/-- From a presentation of a record its members are read into slots that fit their contents. -/
theorem Presents.exists_slots {fields : List (String × Content)} {tree : Tree}
    (h : Presents fields tree) (hkeys : (fields.map Prod.fst).Nodup) :
    ∃ slots, Slots.ofTree? (fields.map Prod.fst) tree = some slots ∧
      List.Forall₂ (fun field slot => field.2.Fits slot) fields slots := by
  cases h with
  | @object members entries h hfields =>
      have hone : ∀ key ∈ fields.map Prod.fst, (valuesOf key entries).length ≤ 1 := by
        intro key hkey
        obtain ⟨field, hfield, rfl⟩ := List.mem_map.1 hkey
        rcases hfields field hfield with ⟨tree, hvalue, _⟩ | ⟨hvalue, _⟩
        · rw [hvalue]
          exact Nat.le_refl 1
        · rw [hvalue]
          exact Nat.zero_le 1
      refine ⟨_, Slots.ofTree?_object hkeys h hone, ?_⟩
      rw [List.map_map, List.forall₂_map_right_iff, List.forall₂_same]
      rintro ⟨key, content⟩ hfield
      rcases hfields _ hfield with ⟨tree, hvalue, hdenotes⟩ | ⟨hvalue, habsent⟩
      · show content.Fits (valuesOf key entries).head?
        rw [hvalue]
        exact .filled hdenotes
      · obtain rfl : content = .absent := habsent
        show Content.absent.Fits (valuesOf key entries).head?
        rw [hvalue]
        exact .empty
  | @array items omitted h =>
      have hlength := h.length_eq
      rw [List.length_append, List.length_replicate, ← List.length_map Prod.fst] at hlength
      exact ⟨_, Slots.ofTree?_array hlength, fits_of_denotes h⟩

/-! ## Optional members -/

/-- An optional member as it is written, left out if it is absent. -/
def optionalEntry {α : Type} (key : String) (write : α → Tree) (o : Option α) :
    List (String × Tree) :=
  (o.map fun a => (key, write a)).toList

@[simp] theorem valuesOf_optionalEntry {α : Type} (name key : String) (write : α → Tree)
    (o : Option α) :
    valuesOf name (optionalEntry key write o) =
      if key = name then (o.map write).toList else [] := by
  cases o with
  | none => simp [optionalEntry]
  | some a => simp [optionalEntry]

/-- An optional member is written once if it is present, and else not at all. -/
theorem denotes_option {α : Type} {write : α → Tree} {content : Option α → Content}
    (hnone : content none = .absent) (hsome : ∀ a, (content (some a)).Denotes (write a))
    (o : Option α) :
    (∃ tree, (o.map write).toList = [tree] ∧ (content o).Denotes tree) ∨
      ((o.map write).toList = [] ∧ content o = .absent) := by
  cases o with
  | none => exact .inr ⟨rfl, hnone⟩
  | some a => exact .inl ⟨_, rfl, hsome a⟩

theorem isLegal_optionalEntry {α : Type} {key : String} {write : α → Tree}
    (hwrite : ∀ a, (write a).IsLegal) (o : Option α) :
    ∀ e ∈ optionalEntry key write o, e.2.IsLegal := by
  intro e he
  obtain ⟨a, -, rfl⟩ := Option.map_eq_some_iff.1 (Option.mem_toList.1 he)
  exact hwrite a

/-! ## Written records -/

/-- An object whose members are written is legal if its values are. -/
theorem isLegal_members {entries : List (String × Tree)} (h : ∀ e ∈ entries, e.2.IsLegal) :
    Tree.IsLegal (.object (entries.map fun e => member e.1 e.2)) := by
  refine Tree.isLegal_object ?_
  rw [List.forall_mem_map]
  exact fun e he => ⟨Token.isLegal_text e.1, h e he⟩

/-- The keys of members that are written are read back. -/
theorem map_decode?_members (entries : List (String × Tree)) :
    ((entries.map fun e => member e.1 e.2).map fun m => m.1.decode?) =
      (entries.map Prod.fst).map some := by
  rw [List.map_map, List.map_map]
  exact List.map_congr_left fun e _ => RawText.decode?_encode e.1

end BlindSign.Json

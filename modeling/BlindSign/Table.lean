set_option autoImplicit false

/-! # Tables

Finite maps as lists of entries in the order in which their keys were first entered, no key twice.
-/

namespace BlindSign

/-- A finite map. -/
structure Table (κ ν : Type) where
  /-- The entries, the oldest key first. -/
  entries : List (κ × ν)
  /-- No key has two entries. -/
  nodup_keys : (entries.map Prod.fst).Nodup
  deriving DecidableEq

namespace Table

variable {κ ν : Type} [DecidableEq κ]

def empty : Table κ ν := ⟨[], List.nodup_nil⟩

instance : Inhabited (Table κ ν) := ⟨empty⟩

def keys (t : Table κ ν) : List κ := t.entries.map Prod.fst

def get? (t : Table κ ν) (key : κ) : Option ν := t.entries.lookup key

def contains (t : Table κ ν) (key : κ) : Bool := decide (key ∈ t.keys)

def replaceIn (key : κ) (value : ν) (entries : List (κ × ν)) : List (κ × ν) :=
  entries.map fun e => if e.1 = key then (key, value) else e

theorem keys_replaceIn (key : κ) (value : ν) (entries : List (κ × ν)) :
    (replaceIn key value entries).map Prod.fst = entries.map Prod.fst := by
  induction entries with
  | nil => rfl
  | cons e rest ih =>
    simp only [replaceIn, List.map_cons] at ih ⊢
    rw [ih]
    split
    · next h => rw [h]
    · rfl

omit [DecidableEq κ] in
theorem nodup_append (t : Table κ ν) {key : κ} (value : ν) (h : key ∉ t.keys) :
    ((t.entries ++ [(key, value)]).map Prod.fst).Nodup := by
  rw [List.map_append, List.nodup_append]
  refine ⟨t.nodup_keys, by simp, ?_⟩
  intro a ha b hb
  simp only [List.map_cons, List.map_nil, List.mem_singleton] at hb
  subst hb
  intro hab
  exact h (hab ▸ ha)

/-- Enter a value under a key, in place of the one that is there. -/
def insert (t : Table κ ν) (key : κ) (value : ν) : Table κ ν :=
  if h : key ∈ t.keys then
    ⟨replaceIn key value t.entries, by rw [keys_replaceIn]; exact t.nodup_keys⟩
  else ⟨t.entries ++ [(key, value)], nodup_append t value h⟩

/-- Enter a value under a key that has no entry; otherwise change nothing. -/
def insertNew (t : Table κ ν) (key : κ) (value : ν) : Table κ ν :=
  -- as an insertion that does nothing on a conflict
  if h : key ∈ t.keys then t else ⟨t.entries ++ [(key, value)], nodup_append t value h⟩

def keep (t : Table κ ν) (test : ν → Bool) : Table κ ν :=
  ⟨t.entries.filter fun e => test e.2,
    t.nodup_keys.sublist (List.filter_sublist.map Prod.fst)⟩

def insertAll (t : Table κ ν) (entries : List (κ × ν)) : Table κ ν :=
  entries.foldl (fun t e => t.insert e.1 e.2) t

def size (t : Table κ ν) : Nat := t.entries.length

/-! ## Small laws -/

@[simp] theorem get?_empty (key : κ) : (empty : Table κ ν).get? key = none := rfl

theorem lookup_append (l m : List (κ × ν)) (key : κ) :
    (l ++ m).lookup key = (l.lookup key).or (m.lookup key) := by
  induction l with
  | nil => simp
  | cons e rest ih =>
    obtain ⟨k, v⟩ := e
    simp only [List.cons_append, List.lookup_cons]
    split <;> simp_all

theorem lookup_eq_none {l : List (κ × ν)} {key : κ} (h : key ∉ l.map Prod.fst) :
    l.lookup key = none := by
  induction l with
  | nil => rfl
  | cons e rest ih =>
    obtain ⟨k, v⟩ := e
    simp only [List.map_cons, List.mem_cons, not_or] at h
    simp only [List.lookup_cons]
    have : (key == k) = false := by simpa using h.1
    rw [this]
    exact ih h.2

theorem lookup_replaceIn (key : κ) (value : ν) (l : List (κ × ν)) (k : κ) :
    (replaceIn key value l).lookup k =
      if k = key then (l.lookup k).map fun _ => value else l.lookup k := by
  induction l with
  | nil => simp [replaceIn]
  | cons e rest ih =>
    obtain ⟨k', v⟩ := e
    simp only [replaceIn, List.map_cons] at ih ⊢
    by_cases h : k' = key
    · subst h
      by_cases hk : k = k'
      · subst hk; simp
      · have : (k == k') = false := by simpa using hk
        simp [List.lookup_cons, this, ih, hk]
    · by_cases hk : k = k'
      · subst hk; simp [h]
      · have : (k == k') = false := by simpa using hk
        simp [h, List.lookup_cons, this, ih]

theorem get?_insertNew (t : Table κ ν) (key : κ) (value : ν) (k : κ) :
    (t.insertNew key value).get? k =
      if k = key then some ((t.get? key).getD value) else t.get? k := by
  unfold insertNew get?
  split
  · next h =>
    by_cases hk : k = key
    · subst hk
      obtain ⟨v, hv⟩ : ∃ v, t.entries.lookup k = some v := by
        cases hl : t.entries.lookup k with
        | some v => exact ⟨v, rfl⟩
        | none =>
          rw [List.lookup_eq_none_iff] at hl
          simp only [keys, List.mem_map] at h
          obtain ⟨e, he, rfl⟩ := h
          exact absurd (hl e he) (by simp)
      simp [hv]
    · simp [hk]
  · next h =>
    rw [lookup_append]
    by_cases hk : k = key
    · subst hk; rw [lookup_eq_none h]; simp
    · have : (k == key) = false := by simpa using hk
      simp [List.lookup_cons, this, hk]

theorem get?_insert (t : Table κ ν) (key : κ) (value : ν) (k : κ) :
    (t.insert key value).get? k = if k = key then some value else t.get? k := by
  unfold insert get?
  split
  · next h =>
    rw [lookup_replaceIn]
    by_cases hk : k = key
    · subst hk
      cases hl : t.entries.lookup k with
      | some v => simp
      | none =>
        rw [List.lookup_eq_none_iff] at hl
        simp only [keys, List.mem_map] at h
        obtain ⟨e, he, rfl⟩ := h
        exact absurd (hl e he) (by simp)
    · simp [hk]
  · next h =>
    rw [lookup_append]
    by_cases hk : k = key
    · subst hk; rw [lookup_eq_none h]; simp
    · have : (k == key) = false := by simpa using hk
      simp [List.lookup_cons, this, hk]

end Table

end BlindSign

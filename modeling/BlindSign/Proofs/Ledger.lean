import BlindSign.Ledger.Database

set_option autoImplicit false

/-! # Laws of the ledger

The ledger keeps its entries under the names of accounts and the texts of fingerprints. Different
accounts have different names, so counting a query of one leaves the counts of the others as they
are. A record that is made is found from then on, and no other is.
-/

namespace BlindSign

/-! ## Names -/

namespace Encoding.Hex

theorem digitOf_inj {m n : Nat} (hm : m < 16) (hn : n < 16) (h : digitOf m = digitOf n) :
    m = n := by
  have hall : ∀ m < 16, ∀ n < 16, digitOf m = digitOf n → m = n := by decide
  exact hall m hm n hn h

theorem encodeByte_inj {a b : UInt8} (h : encodeByte a = encodeByte b) : a = b := by
  have ha : a.toNat < 256 := a.toNat_lt
  have hb : b.toNat < 256 := b.toNat_lt
  simp only [encodeByte, List.cons.injEq, and_true] at h
  have hhigh : a.toNat / 16 = b.toNat / 16 := digitOf_inj (by omega) (by omega) h.1
  have hlow : a.toNat % 16 = b.toNat % 16 := digitOf_inj (by omega) (by omega) h.2
  refine UInt8.toNat.inj ?_
  omega

theorem encodeChars_inj {xs ys : List UInt8} (h : encodeChars xs = encodeChars ys) :
    xs = ys := by
  induction xs generalizing ys with
  | nil =>
      cases ys with
      | nil => rfl
      | cons y ys => simp [encodeChars, encodeByte] at h
  | cons x xs ih =>
      cases ys with
      | nil => simp [encodeChars, encodeByte] at h
      | cons y ys =>
          have h' : encodeByte x ++ encodeChars xs = encodeByte y ++ encodeChars ys := h
          obtain ⟨hx, hxs⟩ := List.append_inj h' rfl
          rw [encodeByte_inj hx, ih hxs]

theorem encode_inj {xs ys : List UInt8} (h : encode xs = encode ys) : xs = ys :=
  encodeChars_inj (String.ofList_injective h)

end Encoding.Hex

/-- Different accounts have different names. -/
theorem Account.text_inj {a b : Account} (h : a.text = b.text) : a = b := by
  have hs : "0x".toList ++ (Encoding.Hex.encode a.bytes).toList =
      "0x".toList ++ (Encoding.Hex.encode b.bytes).toList := by
    rw [← String.toList_append, ← String.toList_append]
    exact congrArg String.toList h
  have hb : a.bytes = b.bytes :=
    Encoding.Hex.encode_inj (String.toList_inj.1 (List.append_cancel_left hs))
  obtain ⟨xs, hx⟩ := a
  obtain ⟨ys, hy⟩ := b
  obtain rfl : xs = ys := hb
  rfl

theorem Fingerprint.text_inj {f g : Fingerprint} (h : f.text = g.text) : f = g := by
  obtain ⟨s⟩ := f
  obtain rfl : s = g.text := h
  rfl

namespace Table

variable {κ ν : Type} [DecidableEq κ]

theorem contains_iff (t : Table κ ν) (key : κ) : t.contains key = true ↔ key ∈ t.keys :=
  decide_eq_true_iff

theorem contains_eq_isSome (t : Table κ ν) (key : κ) : t.contains key = (t.get? key).isSome := by
  rw [Bool.eq_iff_iff, contains_iff]
  cases h : t.get? key with
  | none =>
      have hnone : ∀ e ∈ t.entries, key ≠ e.1 := by simpa using List.lookup_eq_none_iff.1 h
      simp only [Option.isSome_none, Bool.false_eq_true, iff_false, keys, List.mem_map, not_exists,
        not_and]
      intro e he hkey
      exact hnone e he hkey.symm
  | some v =>
      obtain ⟨l, m, hentries, _⟩ := List.lookup_eq_some_iff.1 h
      simp [keys, hentries]

theorem contains_insertNew (t : Table κ ν) (key : κ) (value : ν) (k : κ) :
    (t.insertNew key value).contains k = (decide (k = key) || t.contains k) := by
  rw [Bool.eq_iff_iff, Bool.or_eq_true, contains_iff, contains_iff, decide_eq_true_iff]
  unfold insertNew
  split
  · next h =>
      refine ⟨Or.inr, ?_⟩
      rintro (rfl | hk)
      · exact h
      · exact hk
  · next h =>
      show k ∈ (t.entries ++ [(key, value)]).map Prod.fst ↔ k = key ∨ k ∈ t.entries.map Prod.fst
      rw [List.map_append, List.mem_append, or_comm]
      simp

end Table

/-- A number below another one can be increased without wrapping around. -/
theorem toInt_add_one {m n : Int64} (h : m < n) : (m + 1).toInt = m.toInt + 1 := by
  have hlt : m.toInt < n.toInt := Int64.lt_iff_toInt_lt.1 h
  have hmax : n.toInt ≤ 9223372036854775807 := Int64.toInt_le n
  have hmin : -9223372036854775808 ≤ m.toInt := Int64.le_toInt m
  have hone : (1 : Int64).toInt = 1 := by decide
  rw [Int64.toInt_add, hone]
  exact Int.bmod_eq_of_le (by omega) (by omega)

namespace Ledger

/-! ## Records -/

theorem hasRecord_addRecord (l : Ledger) (f : Fingerprint) (r : Record) (g : Fingerprint) :
    (l.addRecord f r).hasRecord g = (decide (g = f) || l.hasRecord g) := by
  have hd : decide (g.text = f.text) = decide (g = f) :=
    decide_eq_decide.2 ⟨Fingerprint.text_inj, fun h => h ▸ rfl⟩
  rw [← hd]
  exact l.records.contains_insertNew f.text r g.text

def record? (l : Ledger) (f : Fingerprint) : Option Record := l.records.get? f.text

theorem hasRecord_eq_isSome (l : Ledger) (f : Fingerprint) :
    l.hasRecord f = (l.record? f).isSome := l.records.contains_eq_isSome f.text

theorem record?_addRecord (l : Ledger) (f g : Fingerprint) (r : Record) :
    (l.addRecord f r).record? g = if g = f then some ((l.record? f).getD r) else l.record? g := by
  have hget := l.records.get?_insertNew f.text r g.text
  by_cases hg : g = f
  · subst hg
    simpa [record?, addRecord] using hget
  · have hne : g.text ≠ f.text := fun h => hg (Fingerprint.text_inj h)
    simpa [record?, addRecord, hg, hne] using hget

@[simp] theorem count_addRecord (l : Ledger) (f : Fingerprint) (r : Record) (a : Account) :
    (l.addRecord f r).count a = l.count a := rfl

/-! ## Counts -/

theorem increment?_eq_some {l l' : Ledger} {a : Account} (h : l.increment? a = some l') :
    l.count a < Int64.maxValue ∧
      l' = { l with counts := l.counts.insert a.text (l.count a + 1) } := by
  unfold increment? at h
  by_cases hm : l.count a < Int64.maxValue
  · simp only [hm, if_true, Option.some.injEq] at h
    exact ⟨hm, h.symm⟩
  · simp only [hm, if_false] at h
    cases h

theorem hasRecord_increment? {l l' : Ledger} {a : Account} (h : l.increment? a = some l')
    (f : Fingerprint) : l'.hasRecord f = l.hasRecord f := by
  obtain ⟨_, rfl⟩ := increment?_eq_some h
  rfl

/-- Counting a query adds one to the count of its account and to no other. -/
theorem count_increment? {l l' : Ledger} {a : Account} (h : l.increment? a = some l')
    (b : Account) : l'.count b = if b = a then l.count a + 1 else l.count b := by
  obtain ⟨_, rfl⟩ := increment?_eq_some h
  show ((l.counts.insert a.text (l.count a + 1)).get? b.text).getD 0 = _
  rw [Table.get?_insert]
  by_cases hb : b = a
  · subst hb
    simp
  · have hne : b.text ≠ a.text := fun h => hb (Account.text_inj h)
    simp only [hne, hb, if_false]
    rfl

/-- Counts do not wrap around. -/
theorem toInt_count_increment? {l l' : Ledger} {a : Account} (h : l.increment? a = some l') :
    (l'.count a).toInt = (l.count a).toInt + 1 := by
  rw [count_increment? h, if_pos rfl]
  exact toInt_add_one (increment?_eq_some h).1

theorem exists_increment? {l : Ledger} {a : Account} (h : l.count a < Int64.maxValue) :
    ∃ l', l.increment? a = some l' :=
  ⟨_, if_pos h⟩

end Ledger

end BlindSign

import BlindSign.Proofs.Deployment
import BlindSign.Proofs.Ledger

set_option autoImplicit false

/-! # Retention of records

Instants are stored in microseconds, rounded toward the start of the year 2000, which keeps their
order (`Instant.stored_le_stored`). So what is stored before the instant that pruning goes by was
made before it (`Record.madeAt_lt`), and what was made a microsecond before it is stored before it
(`Record.createdAt_lt`).

**A retention is honoured if and only if it is not replaced**, that is if its milliseconds fit into
64 bits with a sign, and up to there a longer retention keeps all that a shorter one keeps
(`Span.isHonouredRetention_iff`). Every longer one counts as thirty days, and a record that should
be kept for an age is removed after a month (`pruned_within_retention`).
-/

namespace BlindSign

/-! ## Tables -/

namespace Table

variable {κ ν : Type} [DecidableEq κ]

theorem lookup_filter {entries : List (κ × ν)} (h : (entries.map Prod.fst).Nodup)
    (test : ν → Bool) (key : κ) :
    (entries.filter fun e => test e.2).lookup key = (entries.lookup key).filter test := by
  induction entries with
  | nil => rfl
  | cons e rest ih =>
      obtain ⟨k, v⟩ := e
      obtain ⟨hk, hrest⟩ := List.nodup_cons.1 h
      have hlookup := ih hrest
      by_cases hkey : key = k
      · subst hkey
        have hnone : rest.lookup key = none := lookup_eq_none hk
        rw [hnone] at hlookup
        cases hv : test v with
        | true => simp [hv, Option.filter]
        | false => simp [hv, hlookup, Option.filter]
      · have hbeq : (key == k) = false := by simpa using hkey
        cases hv : test v with
        | true => simp [hv, List.lookup_cons, hbeq, hlookup]
        | false => simp [hv, List.lookup_cons, hbeq, hlookup]

/-- What is kept is as it was. -/
theorem get?_keep (t : Table κ ν) (test : ν → Bool) (key : κ) :
    (t.keep test).get? key = (t.get? key).filter test := lookup_filter t.nodup_keys test key

theorem get?_of_mem (t : Table κ ν) {e : κ × ν} (he : e ∈ t.entries) : t.get? e.1 = some e.2 := by
  obtain ⟨key, value⟩ := e
  obtain ⟨l, m, hentries⟩ := List.append_of_mem he
  have hnodup := t.nodup_keys
  rw [hentries, List.map_append, List.nodup_append] at hnodup
  have hbefore : key ∉ l.map Prod.fst := fun hl => hnodup.2.2 _ hl _ List.mem_cons_self rfl
  rw [get?, hentries, lookup_append, lookup_eq_none hbefore]
  simp

/-- The entries that go are those that are no longer found. -/
theorem size_sub_size_keep (t : Table κ ν) (test : ν → Bool) :
    t.size - (t.keep test).size =
      t.entries.countP fun e => ((t.keep test).get? e.1).isNone := by
  have hsplit := List.length_eq_countP_add_countP (fun e : κ × ν => test e.2) (l := t.entries)
  have hkept : (t.keep test).size = t.entries.countP fun e => test e.2 :=
    List.countP_eq_length_filter.symm
  have hgone : t.entries.countP (fun e => ((t.keep test).get? e.1).isNone) =
      t.entries.countP fun e => ¬ test e.2 = true := by
    refine List.countP_congr fun e he => ?_
    rw [get?_keep, t.get?_of_mem he]
    cases hv : test e.2 <;> simp [Option.filter, hv]
  rw [hkept, hgone, size]
  omega

end Table

/-! ## Stored instants -/

namespace Instant

/-- Microseconds are rounded toward zero. -/
theorem tdiv_cases (x : Int) :
    (0 ≤ x ∧ x.tdiv 1000 = x / 1000) ∨ (x < 0 ∧ x.tdiv 1000 = -(-x / 1000)) := by
  by_cases hx : 0 ≤ x
  · exact .inl ⟨hx, Int.tdiv_eq_ediv_of_nonneg hx⟩
  · refine .inr ⟨by omega, ?_⟩
    rw [← Int.tdiv_eq_ediv_of_nonneg (by omega), Int.neg_tdiv, Int.neg_neg]

theorem stored_le_stored {s t : Instant} (h : s.nanos ≤ t.nanos) : s.stored ≤ t.stored :=
  Int.tdiv_le_tdiv (by decide) (by omega)

end Instant

/-- When a record was made, in nanoseconds since the start of 1970. -/
def Record.madeAt (r : Record) : Int := Instant.storageStart.nanos + r.createdAt * 1000

namespace Record

variable {r : Record} {t : Instant}

/-- What is stored before an instant was made before it. -/
theorem madeAt_lt (h : r.createdAt < t.stored) : r.madeAt < t.nanos := by
  unfold Instant.stored at h
  unfold madeAt
  rcases Instant.tdiv_cases (t.nanos - Instant.storageStart.nanos) with ⟨_, hd⟩ | ⟨_, hd⟩ <;> omega

/-- What was made a microsecond before an instant is stored before it. -/
theorem createdAt_lt (h : r.madeAt + 1000 ≤ t.nanos) : r.createdAt < t.stored := by
  unfold madeAt at h
  unfold Instant.stored
  rcases Instant.tdiv_cases (t.nanos - Instant.storageStart.nanos) with ⟨_, hd⟩ | ⟨_, hd⟩ <;> omega

end Record

/-! ## Pruning -/

namespace Retention

theorem cutoff?_eq_some {now cutoff : Instant} {retention : Span}
    (h : cutoff? now retention = some cutoff) :
    cutoff.nanos = now.nanos - applied retention := by
  unfold cutoff? Instant.earlier? at h
  simp only [Option.ite_none_right_eq_some, Option.some.injEq] at h
  rw [← h.2]

end Retention

namespace Database

theorem pruneOlder_of_works {now cutoff : Instant} {retention : Span} {d : Database}
    (hc : Retention.cutoff? now retention = some cutoff)
    (hf : d.faultOf? (.prune cutoff.stored) = none) :
    d.pruneOlder now retention = (.ok (d.ledger.prune cutoff.stored).1,
      { d with ledger := (d.ledger.prune cutoff.stored).2 }) := by
  unfold pruneOlder execute
  simp only [hc, bind, StateT.bind, hf]
  rfl

/-- **What pruning does.** It changes nothing, or it removes the records that were stored before an
instant that lies as far back as the retention is applied. -/
theorem pruneOlder_cases (now : Instant) (retention : Span) (d : Database) :
    (∃ fault, d.pruneOlder now retention = (.error fault, d)) ∨
      ∃ cutoff, Retention.cutoff? now retention = some cutoff ∧
        d.pruneOlder now retention = (.ok (d.ledger.prune cutoff.stored).1,
          { d with ledger := (d.ledger.prune cutoff.stored).2 }) := by
  cases hc : Retention.cutoff? now retention with
  | none =>
      unfold pruneOlder
      rw [hc]
      exact .inl ⟨_, rfl⟩
  | some cutoff =>
      cases hf : d.faultOf? (.prune cutoff.stored) with
      | some fault =>
          unfold pruneOlder execute
          simp only [hc, bind, StateT.bind, hf]
          exact .inl ⟨_, rfl⟩
      | none => exact .inr ⟨cutoff, rfl, pruneOlder_of_works hc hf⟩

variable {now : Instant} {retention : Span} {d d' : Database} {n : Nat}

theorem exists_cutoff_of_pruneOlder (h : d.pruneOlder now retention = (.ok n, d')) :
    ∃ cutoff, Retention.cutoff? now retention = some cutoff ∧
      n = (d.ledger.prune cutoff.stored).1 ∧
      d' = { d with ledger := (d.ledger.prune cutoff.stored).2 } := by
  rcases d.pruneOlder_cases now retention with ⟨fault, hfault⟩ | ⟨cutoff, hc, hok⟩
  · rw [hfault] at h
    cases h
  · rw [hok] at h
    cases h
    exact ⟨cutoff, hc, rfl, rfl⟩

/-! ## Honoured retentions -/

/-- That the records older than a retention are gone, `n` of them, and that nothing else changed. -/
structure Prunes (now : Instant) (retention : Span) (d : Database) (n : Nat) (d' : Database) :
    Prop where
  /-- What is gone was older than the retention. -/
  older : ∀ key r, d.ledger.records.get? key = some r → d'.ledger.records.get? key = none →
    r.madeAt < now.nanos - retention.totalNanos
  /-- What was older by a microsecond is gone. -/
  gone : ∀ key r, d.ledger.records.get? key = some r →
    r.madeAt + 1000 ≤ now.nanos - retention.totalNanos → d'.ledger.records.get? key = none
  /-- What is still there is as it was. -/
  kept : ∀ key r, d'.ledger.records.get? key = some r → d.ledger.records.get? key = some r
  /-- Only records are gone. -/
  rest : d' = { d with ledger := { d.ledger with records := d'.ledger.records } }
  count : n = d.ledger.records.entries.countP fun e => (d'.ledger.records.get? e.1).isNone

theorem get?_prune (l : Ledger) (cutoff : Int) (key : String) :
    (l.prune cutoff).2.records.get? key =
      (l.records.get? key).filter fun r => decide (cutoff ≤ r.createdAt) :=
  l.records.get?_keep _ key

end Database

/-- Whether a retention is honoured: at any time and for any records, whenever pruning succeeds, it
prunes by that retention. -/
def Span.IsHonouredRetention (retention : Span) : Prop :=
  ∀ (now : Instant) (d : Database) (n : Nat) (d' : Database),
    d.pruneOlder now retention = (.ok n, d') → d.Prunes now retention n d'

namespace Span

open Database Retention

theorem isHonouredRetention_of_le {retention : Span} (h : retention.totalNanos ≤ longest) :
    retention.IsHonouredRetention := by
  intro now d n d' hprune
  obtain ⟨cutoff, hc, rfl, rfl⟩ := exists_cutoff_of_pruneOlder hprune
  have hcutoff := cutoff?_eq_some hc
  -- up to `longest` the retention applied is the one given
  rw [applied, if_pos h] at hcutoff
  constructor
  case older =>
    intro key r hr hnone
    rw [get?_prune, hr] at hnone
    have hlt : r.createdAt < cutoff.stored := by simpa [Option.filter] using hnone
    have hmade := Record.madeAt_lt hlt
    omega
  case gone =>
    intro key r hr hold
    have hlt : r.createdAt < cutoff.stored := Record.createdAt_lt (by omega)
    rw [get?_prune, hr]
    simpa [Option.filter] using hlt
  case kept =>
    intro key r hr
    rw [get?_prune, Option.filter_eq_some_iff] at hr
    exact hr.1
  case rest => rfl
  case count => exact d.ledger.records.size_sub_size_keep _

/-- A database with a record that was made at the start of December 1969. -/
def monthOld : Database where
  ledger := { Ledger.empty with
    records := ⟨[("old", ⟨"seed", "seed", none, -949363200000000⟩)], by decide⟩ }
  connected := true
  broken := []
  fault := .unreachable

/-- At the start of 1970, that record is removed for every retention that is replaced. -/
theorem pruneOlder_monthOld {retention : Span} (h : longest < retention.totalNanos) :
    monthOld.pruneOlder ⟨0⟩ retention = (.ok 1, { monthOld with ledger := .empty }) := by
  have hc : cutoff? ⟨0⟩ retention = some ⟨-2592000000000000⟩ := by
    rw [cutoff?, applied, if_neg (Nat.not_le_of_lt h)]
    rfl
  have hstored : Instant.stored ⟨-2592000000000000⟩ = -949276800000000 := by decide
  have hprune : monthOld.ledger.prune (-949276800000000) = (1, .empty) := by decide
  rw [pruneOlder_of_works hc rfl, hstored, hprune]

/-- A retention of a year keeps it. -/
theorem pruneOlder_monthOld_year :
    monthOld.pruneOlder ⟨0⟩ (.ofSeconds 31536000) = (.ok 0, monthOld) := by
  have hc : cutoff? ⟨0⟩ (.ofSeconds 31536000) = some ⟨-31536000000000000⟩ := by decide
  have hstored : Instant.stored ⟨-31536000000000000⟩ = -978220800000000 := by decide
  have hprune : monthOld.ledger.prune (-978220800000000) = (0, monthOld.ledger) := by decide
  rw [pruneOlder_of_works hc rfl, hstored, hprune]

theorem le_of_isHonouredRetention {retention : Span} (h : retention.IsHonouredRetention) :
    retention.totalNanos ≤ longest := by
  refine Nat.le_of_not_lt fun hlt => ?_
  have hprunes := h _ _ _ _ (pruneOlder_monthOld hlt)
  -- the record is too young for a retention that is replaced, and is removed
  have hold : (-2678400000000000 : Int) < 0 - retention.totalNanos :=
    hprunes.older "old" _ rfl rfl
  unfold longest at hlt
  omega

/-- **A retention is honoured if and only if it is applied as it is.** Such a retention keeps
whatever a shorter one keeps. -/
theorem isHonouredRetention_iff (retention : Span) :
    (retention.IsHonouredRetention ↔ retention.totalNanos ≤ longest) ∧
      (retention.IsHonouredRetention → ∀ (shorter : Span) (now : Instant) (d d₁ d₂ : Database)
        (n₁ n₂ : Nat), shorter.totalNanos ≤ retention.totalNanos →
          d.pruneOlder now shorter = (.ok n₁, d₁) → d.pruneOlder now retention = (.ok n₂, d₂) →
          ∀ key r, d₁.ledger.records.get? key = some r →
            d₂.ledger.records.get? key = some r) := by
  refine ⟨⟨le_of_isHonouredRetention, isHonouredRetention_of_le⟩, ?_⟩
  intro h shorter now d d₁ d₂ n₁ n₂ hshorter hprune₁ hprune₂ key r hr
  have hlongest := le_of_isHonouredRetention h
  obtain ⟨cutoff₁, hc₁, _, rfl⟩ := exists_cutoff_of_pruneOlder hprune₁
  obtain ⟨cutoff₂, hc₂, _, rfl⟩ := exists_cutoff_of_pruneOlder hprune₂
  have hcutoff₁ := cutoff?_eq_some hc₁
  have hcutoff₂ := cutoff?_eq_some hc₂
  rw [applied, if_pos (by omega)] at hcutoff₁
  rw [applied, if_pos hlongest] at hcutoff₂
  -- the longer retention has the earlier cutoff, and what the later one kept it keeps
  have hstored : cutoff₂.stored ≤ cutoff₁.stored := Instant.stored_le_stored (by omega)
  rw [get?_prune, Option.filter_eq_some_iff, decide_eq_true_iff] at hr ⊢
  exact ⟨hr.1, by omega⟩

/-- **A record is removed long before its time.** The longest retention of all counts as thirty
days: it removes a record of thirty-one days, which a retention of a year keeps. -/
theorem pruned_within_retention :
    let forever := Span.ofSeconds 18446744073709551615
    let year := Span.ofSeconds 31536000
    year.totalNanos ≤ forever.totalNanos ∧ ¬ forever.IsHonouredRetention ∧
      monthOld.pruneOlder ⟨0⟩ forever = (.ok 1, { monthOld with ledger := .empty }) ∧
      monthOld.pruneOlder ⟨0⟩ year = (.ok 0, monthOld) := by
  intro forever year
  have hreplaced : longest < forever.totalNanos := by decide
  exact ⟨by decide, fun h => absurd (le_of_isHonouredRetention h) (Nat.not_le_of_lt hreplaced),
    pruneOlder_monthOld hreplaced, pruneOlder_monthOld_year⟩

end Span

end BlindSign

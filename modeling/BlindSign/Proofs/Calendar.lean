import BlindSign.Proofs.Retention
import BlindSign.Settings

set_option autoImplicit false

/-! # Pruning and the start of the calendar

Pruning goes by an instant that lies as far back as the retention is applied, if the calendar has
that instant. But a retention is applied with up to 292 million years before it is replaced, and the
calendar begins only some 264 thousand years before the present. A retention between these bounds is
not answered: pruning neither removes anything nor reports a fault of the store
(`Database.answers_iff`).

**Pruning by a retention is always answered if and only if the retention reaches from the start of
1970 to no instant before the calendar, or is replaced** (`Span.isAnsweredRetention_iff`). The
settings accept others, with which no start of the service is answered (`unanswered_of_setting`).
-/

namespace BlindSign

/-- Whether an instant lies in the years 1970 to 9999. -/
def Instant.IsOfOurTime (t : Instant) : Prop := 0 ≤ t.nanos ∧ t.nanos < 253402300800 * 1000000000

namespace Retention

/-- What the calendar has before the start of 1970, in nanoseconds. -/
def reach : Nat := 8334601228800 * 1000000000

theorem cutoff?_eq_none_iff {now : Instant} {retention : Span} :
    cutoff? now retention = none ↔ now.nanos + reach < applied retention := by
  have hstart : Instant.calendarStart.nanos = -(8334601228800 * 1000000000) := rfl
  unfold cutoff? Instant.earlier? reach
  rw [hstart, ite_eq_right_iff]
  constructor
  · intro h
    refine Int.lt_of_not_ge fun hle => ?_
    cases h (by omega)
  · intro h hle
    omega

/-- A retention that is replaced lies within the calendar. -/
theorem applied_le_reach {retention : Span} (h : longest < retention.totalNanos) :
    applied retention ≤ reach := by
  rw [applied, if_neg (Nat.not_le_of_lt h)]
  decide

end Retention

namespace Database

open Retention

/-- Whether pruning is answered: with a number of records, or with a fault of the store. -/
def Answers (d : Database) (now : Instant) (retention : Span) : Prop :=
  ∃ reply : Except StoreFault Nat, (d.pruneOlder now retention).1 = reply.mapError .store

variable {d : Database} {now : Instant} {retention : Span}

theorem pruneOlder_of_cutoff?_eq_none (h : cutoff? now retention = none) :
    d.pruneOlder now retention = (.error .beforeCalendar, d) := by
  unfold pruneOlder
  rw [h]
  rfl

theorem answers_of_cutoff? {cutoff : Instant} (h : cutoff? now retention = some cutoff) :
    d.Answers now retention := by
  refine ⟨(d.execute (.prune cutoff.stored)).1, ?_⟩
  unfold pruneOlder
  rw [h]
  rfl

/-- Pruning is answered just if the calendar has the instant that it goes by. -/
theorem answers_iff : d.Answers now retention ↔ applied retention ≤ now.nanos + reach := by
  constructor
  · rintro ⟨reply, hreply⟩
    refine Int.le_of_not_gt fun hlt => ?_
    rw [pruneOlder_of_cutoff?_eq_none (cutoff?_eq_none_iff.2 hlt)] at hreply
    -- no reply of the store says that the calendar does not reach far enough
    cases reply with
    | error fault => cases hreply
    | ok n => cases hreply
  · intro hle
    cases hc : cutoff? now retention with
    | none =>
        have hlt := cutoff?_eq_none_iff.1 hc
        omega
    | some cutoff => exact answers_of_cutoff? hc

theorem pruneOlder_of_not_answers (h : ¬ d.Answers now retention) :
    d.pruneOlder now retention = (.error .beforeCalendar, d) := by
  rw [answers_iff, Int.not_le] at h
  exact pruneOlder_of_cutoff?_eq_none (cutoff?_eq_none_iff.2 h)

/-- In our time only a retention that is not replaced can be too long for the calendar. -/
theorem not_answers_iff (hnow : now.IsOfOurTime) :
    ¬ d.Answers now retention ↔
      retention.totalNanos ≤ longest ∧ now.nanos + reach < retention.totalNanos := by
  rw [answers_iff, Int.not_le]
  by_cases h : retention.totalNanos ≤ longest
  · rw [applied, if_pos h]
    exact (and_iff_right h).symm
  · have hlt : longest < retention.totalNanos := Nat.lt_of_not_le h
    have hreach := applied_le_reach hlt
    have hstart := hnow.1
    constructor
    · intro hfar
      omega
    · rintro ⟨hle, _⟩
      exact absurd hle h

end Database

/-- Whether pruning by a retention is answered whenever it is asked for in our time. -/
def Span.IsAnsweredRetention (retention : Span) : Prop :=
  ∀ (now : Instant) (d : Database), now.IsOfOurTime → d.Answers now retention

namespace Span

open Database Retention

/-- **Pruning is always answered if and only if the retention is within the reach of the calendar
or is replaced.** At a given time it is not answered just if the retention reaches back to before
the calendar; nothing is removed then. -/
theorem isAnsweredRetention_iff (retention : Span) :
    (retention.IsAnsweredRetention ↔
      retention.totalNanos ≤ reach ∨ longest < retention.totalNanos) ∧
    (∀ (now : Instant) (d : Database), now.IsOfOurTime →
      (¬ d.Answers now retention ↔
        retention.totalNanos ≤ longest ∧ now.nanos + reach < retention.totalNanos)) ∧
    (∀ (now : Instant) (d : Database), ¬ d.Answers now retention →
      d.pruneOlder now retention = (.error .beforeCalendar, d)) := by
  refine ⟨?_, fun now d => not_answers_iff, fun now d => pruneOlder_of_not_answers⟩
  constructor
  · intro h
    -- the calendar is shortest at the start of 1970
    have hfirst : Instant.IsOfOurTime ⟨0⟩ := ⟨by decide, by decide⟩
    have hanswers := h ⟨0⟩ monthOld hfirst
    by_cases hle : retention.totalNanos ≤ longest
    · refine .inl (Nat.le_of_not_lt fun hfar => ?_)
      refine (not_answers_iff hfirst).2 ⟨hle, ?_⟩ hanswers
      show (0 : Int) + reach < retention.totalNanos
      omega
    · exact .inr (Nat.lt_of_not_le hle)
  · intro h now d hnow
    refine Classical.byContradiction fun hno => ?_
    obtain ⟨hle, hfar⟩ := (not_answers_iff hnow).1 hno
    have hstart := hnow.1
    omega

/-- The variables of a service that keeps its records for a hundred million days. -/
def longKept : Environment := fun name =>
  [("DATABASE_URL", "postgres://localhost/signer"), ("CHAIN_RPC_URL", "http://localhost:8545"),
    ("SIGNER_REQUEST_RETENTION_DAYS", "100000000")].lookup name

/-- **A retention of a hundred million days is accepted, and then pruning is not answered at any
time of ours.** -/
theorem unanswered_of_setting :
    let kept := Span.ofSeconds 8640000000000
    (Settings.load longKept).toOption.map (fun s => s.config.retention) = some kept ∧
      (∀ (now : Instant) (d : Database), now.IsOfOurTime →
        d.pruneOlder now kept = (.error .beforeCalendar, d)) ∧
      ¬ kept.IsAnsweredRetention := by
  intro kept
  have hle : kept.totalNanos ≤ longest := by decide
  have htotal : kept.totalNanos = 8640000000000 * 1000000000 := by decide
  have hno : ∀ (now : Instant) (d : Database), now.IsOfOurTime → ¬ d.Answers now kept := by
    intro now d hnow
    refine (not_answers_iff hnow).2 ⟨hle, ?_⟩
    have hend := hnow.2
    unfold reach
    omega
  refine ⟨by decide +kernel, fun now d hnow => pruneOlder_of_not_answers (hno now d hnow), ?_⟩
  intro h
  have hfirst : Instant.IsOfOurTime ⟨0⟩ := ⟨by decide, by decide⟩
  exact hno ⟨0⟩ monthOld hfirst (h ⟨0⟩ monthOld hfirst)

end Span

end BlindSign

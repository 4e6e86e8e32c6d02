import Mathlib.Algebra.GroupWithZero.Nat
import BlindSign.Proofs.Accounting
import BlindSign.Proofs.Retention
import BlindSign.Proofs.Window

set_option autoImplicit false

/-! # Pruning and timestamps

Calls and prunings over one ledger, one after the other, by a clock that does not go back. A request
with a timestamp is protected from being counted twice by its record, and once the record may be
pruned, by its timestamp. The invariant is that the request is *spent* (`Spent`): its time has
passed, or it is on record and the record was not made before the timestamp had come within the
window.

The constant comes from both ends of the window. A timestamp may lie a whole window ahead of the
call that is granted, and it remains recent for another window after its own time. So a record that
is kept for two windows, and a little longer for the milliseconds that are cut off, is there as long
as the timestamp is recent.

**Such a request is counted at most once, whatever is pruned**, and after its record is gone every
call with it is refused without a look at the ledger (`counted_once_of_undergoes`).
-/

namespace BlindSign

/-! ## Records and when they were made -/

section

variable {start stop : Instant} {l l' : Ledger} {f : Fingerprint} {r : Record}

/-- Records stay as they are. A record is made only where there was none, and not before the
start. -/
theorem Exchange.MovesBetween.record?_cases {e : Exchange} (h : e.MovesBetween start stop l l') :
    l'.record? f = l.record? f ∨
      l.record? f = none ∧ ∃ r, l'.record? f = some r ∧ start.stored ≤ r.createdAt := by
  obtain ⟨call, reply⟩ := e
  cases call with
  | addRecord request =>
      cases reply with
      | error fault =>
          obtain rfl : l' = l := h
          exact .inl rfl
      | ok u =>
          obtain ⟨now, hstart, _, rfl⟩ := h
          rw [Ledger.record?_addRecord]
          -- a record that is there already is kept, so only a missing one is made
          by_cases hf : f = request.fingerprint
          · subst hf
            cases hl : l.record? request.fingerprint with
            | some r => exact .inl (if_pos rfl)
            | none => exact .inr ⟨rfl, _, if_pos rfl, Instant.stored_le_stored hstart⟩
          · exact .inl (by simp [hf])
  | addCount account =>
      cases reply with
      | error fault =>
          obtain rfl : l' = l := h
          exact .inl rfl
      | ok u =>
          obtain ⟨_, rfl⟩ := Ledger.increment?_eq_some h
          exact .inl rfl
  | _ =>
      obtain rfl : l' = l := h
      exact .inl rfl

theorem Exchange.MovesBetween.record?_eq_some {e : Exchange} (h : e.MovesBetween start stop l l')
    (hr : l.record? f = some r) : l'.record? f = some r := by
  rcases h.record?_cases (f := f) with heq | ⟨hnone, _⟩
  · rw [heq, hr]
  · rw [hr] at hnone
    cases hnone

namespace Ledger

variable {trace : List Exchange}

theorem ServesBetween.record?_cases (h : l.ServesBetween start stop trace l') :
    l'.record? f = l.record? f ∨
      l.record? f = none ∧ ∃ r, l'.record? f = some r ∧ start.stored ≤ r.createdAt := by
  induction trace generalizing l with
  | nil =>
      obtain rfl : l' = l := h
      exact .inl rfl
  | cons e trace ih =>
      obtain ⟨_, l₁, hm, hs⟩ := h
      rcases ih hs with heq | ⟨hnone, hnew⟩
      · rw [heq]
        exact hm.record?_cases
      · rcases hm.record?_cases (f := f) with heq₁ | ⟨_, r, hr, _⟩
        · exact .inr ⟨heq₁ ▸ hnone, hnew⟩
        · rw [hr] at hnone
          cases hnone

theorem ServesBetween.record?_eq_some (h : l.ServesBetween start stop trace l')
    (hr : l.record? f = some r) : l'.record? f = some r := by
  rcases h.record?_cases (f := f) with heq | ⟨hnone, _⟩
  · rw [heq, hr]
  · rw [hr] at hnone
    cases hnone

/-- A record that is new was not made before the start. -/
theorem ServesBetween.stored_le (h : l.ServesBetween start stop trace l')
    (hr : l'.record? f = some r) : l.record? f = some r ∨ start.stored ≤ r.createdAt := by
  rcases h.record?_cases (f := f) with heq | ⟨_, r', hr', hnew⟩
  · exact .inl (heq ▸ hr)
  · obtain rfl : r' = r := Option.some.inj (hr'.symm.trans hr)
    exact .inr hnew

/-- A record that is there is found. -/
theorem ServesBetween.found_eq_true {found : Bool} (h : l.ServesBetween start stop trace l')
    (hr : l.record? f = some r) (he : ⟨.findRecord f, .ok found⟩ ∈ trace) : found = true := by
  induction trace generalizing l with
  | nil => cases he
  | cons e trace ih =>
      obtain ⟨ht, l₁, hm, hs⟩ := h
      rcases List.mem_cons.1 he with rfl | he
      · have htrue : found = l.hasRecord f := ht
        rw [htrue, hasRecord_eq_isSome, hr]
        rfl
      · exact ih hs (hm.record?_eq_some hr) he

end Ledger

end

/-- A complete execution either writes nothing, or it was admitted, looked for its record in vain,
and tried to record and to count its query once. -/
theorem Signing.Transcript.writes_cases {limits : Limits} {now : Int64} {s : Submission}
    {trace : List Exchange} {outcome : Except Refusal Grant}
    (h : Transcript limits now s trace outcome) :
    (trace.countP Exchange.counts = 0 ∧ ∀ f, trace.any (Exchange.records f) = false) ∨
      ∃ request found recorded,
        Admitted.ofRequest limits now s.body.length s.request = .ok request ∧
        trace.countP Exchange.counts = 1 ∧ found ≠ .ok true ∧
        ⟨.findRecord request.fingerprint, found⟩ ∈ trace ∧
        ⟨.addRecord request, recorded⟩ ∈ trace := by
  cases h with
  | invalid hs => exact .inl ⟨rfl, fun _ => rfl⟩
  | unauthenticated hs => exact .inl ⟨rfl, fun _ => rfl⟩
  | exhausted hs hr hq =>
      exact .inl (by simp [hr.countP, hr.any, Exchange.counts, Exchange.records])
  | @passed request quota height reads rest outcome hs hr hq hc =>
      cases hc with
      | keyUnavailable fault =>
          exact .inl (by simp [hr.countP, hr.any, Exchange.counts, Exchange.records])
      | unsigned share fault =>
          exact .inl (by simp [hr.countP, hr.any, Exchange.counts, Exchange.records])
      | duplicate share signature =>
          exact .inl (by simp [hr.countP, hr.any, Exchange.counts, Exchange.records])
      | @entered share signature found recorded counted writes hf hw =>
          refine .inr ⟨request, found, recorded, hs, ?_, hf, by simp, ?_⟩
          · simp [hr.countP, hw.countP, Exchange.counts]
          · rcases hw with rfl | rfl <;> simp

/-! ## Calls and prunings by the clock -/

/-- Whether the milliseconds of an instant fit into 64 bits, as those of all dates do. -/
def Instant.HasMillis (t : Instant) : Prop :=
  -9223372036854775808 ≤ t.nanos / 1000000 ∧ t.nanos / 1000000 < 9223372036854775808

theorem Instant.HasMillis.toInt_millis {t : Instant} (h : t.HasMillis) :
    t.millis.toInt = t.nanos / 1000000 := Int64.toInt_ofInt_of_le h.1 h.2

/-- A call of the service that has returned, with the instant at which it read the clock to check
its request and that by which it returned. A record that it made was made in between. -/
structure TimedVisit (c : Config) where
  start : Instant
  stop : Instant
  submission : Submission
  /-- The ledger that the call found. -/
  opening : Ledger
  trace : List Exchange
  outcome : Except Refusal Grant
  /-- The ledger that the call left. -/
  closing : Ledger
  yields : (Signing.procedure c.limits start.millis submission).Yields trace outcome
  serves : opening.ServesBetween start stop trace closing

/-- What happens to a ledger at a time. -/
inductive Turn (c : Config)
  | call (visit : TimedVisit c)
  /-- Records are pruned, if the database is up to it. -/
  | prune (now : Instant) (database : Database)

namespace Turn

variable {c : Config}

def start : Turn c → Instant
  | call v => v.start
  | prune now _ => now

def stop : Turn c → Instant
  | call v => v.stop
  | prune now _ => now

def opening : Turn c → Ledger
  | call v => v.opening
  | prune _ d => d.ledger

def closing : Turn c → Ledger
  | call v => v.closing
  | prune now d => (d.pruneOlder now c.retention).2.ledger

/-- How often a turn tries to count a query of a request. -/
def countings (r : Request) : Turn c → Nat
  | call v => if v.submission.request = r then v.trace.countP Exchange.counts else 0
  | prune _ _ => 0

theorem countings_of_eq {r : Request} {v : TimedVisit c} (hv : v.submission.request = r) :
    (call v).countings r = v.trace.countP Exchange.counts := if_pos hv

end Turn

/-- A ledger undergoes turns one after the other, from an instant on, by a clock that does not go
back. -/
def Ledger.Undergoes {c : Config} : Ledger → Instant → List (Turn c) → Prop
  | _, _, [] => True
  | l, t, turn :: turns =>
      turn.opening = l ∧ t.nanos ≤ turn.start.nanos ∧ turn.start.nanos ≤ turn.stop.nanos ∧
        turn.start.HasMillis ∧ turn.closing.Undergoes turn.stop turns

/-! ## Requests that cannot be counted any more -/

/-- Whether records are kept for twice the window for timestamps and a second more, and neither of
the two is too long to be taken as it is. -/
structure Config.Outlasts (c : Config) : Prop where
  window_lt : c.timestampWindow.millis < 9223372036854775808
  two_windows_le : 2 * c.timestampWindow.totalNanos + 1000000000 ≤ c.retention.totalNanos
  retention_le : c.retention.totalNanos ≤ Retention.longest

/-- Whether a timestamp lies more than the window before an instant. -/
def Config.Expired (c : Config) (timestamp : Int64) (t : Instant) : Prop :=
  timestamp.toInt + c.timestampWindow.millis < t.nanos / 1000000

theorem Config.Expired.mono {c : Config} {timestamp : Int64} {t t' : Instant}
    (h : c.Expired timestamp t) (hle : t.nanos ≤ t'.nanos) : c.Expired timestamp t' := by
  unfold Config.Expired at *
  omega

/-- Whether a request is spent: its time has passed, or it is on record and the record was not made
before some instant at which its timestamp was at most a window ahead. -/
def Spent (c : Config) (r : Request) (timestamp : Int64) (l : Ledger) (t : Instant) : Prop :=
  c.Expired timestamp t ∨
    ∃ (record : Record) (since : Instant), l.record? r.fingerprint = some record ∧
      since.stored ≤ record.createdAt ∧
      timestamp.toInt ≤ since.nanos / 1000000 + c.timestampWindow.millis

theorem Span.millis_le (s : Span) : s.millis * 1000000 ≤ s.totalNanos := by
  unfold Span.millis Span.totalNanos
  omega

namespace Spent

variable {c : Config} {r : Request} {timestamp : Int64} {l : Ledger} {t : Instant}

/-- **Pruning does not bring a request back.** When its record goes, its time has passed. -/
theorem prune (hc : c.Outlasts) {d : Database} {now : Instant}
    (h : Spent c r timestamp d.ledger t) (hle : t.nanos ≤ now.nanos) :
    Spent c r timestamp (d.pruneOlder now c.retention).2.ledger now := by
  rcases h with hexpired | ⟨record, since, hrecord, hsince, hahead⟩
  · exact .inl (hexpired.mono hle)
  · rcases d.pruneOlder_cases now c.retention with ⟨fault, hfault⟩ | ⟨cutoff, hcut, hok⟩
    · rw [hfault]
      exact .inr ⟨record, since, hrecord, hsince, hahead⟩
    · rw [hok]
      by_cases hkept : cutoff.stored ≤ record.createdAt
      · refine .inr ⟨record, since, ?_, hsince, hahead⟩
        unfold Ledger.record? at hrecord ⊢
        rw [Database.get?_prune, hrecord]
        simp [Option.filter, hkept]
      · -- the record was made after `since`, so `since` lies before the cutoff as well
        have hbefore : since.nanos < cutoff.nanos := by
          refine Int.lt_of_not_ge fun hge => hkept ?_
          exact Int.le_trans (Instant.stored_le_stored hge) hsince
        have hcutoff := Retention.cutoff?_eq_some hcut
        rw [Retention.applied, if_pos hc.retention_le] at hcutoff
        have hkeep := hc.two_windows_le
        have hmillis := c.timestampWindow.millis_le
        refine .inl ?_
        unfold Config.Expired
        omega

/-- A call leaves records as they are. -/
theorem visit {v : TimedVisit c} (h : Spent c r timestamp v.opening t)
    (hle : t.nanos ≤ v.stop.nanos) : Spent c r timestamp v.closing v.stop := by
  rcases h with hexpired | ⟨record, since, hrecord, hsince, hahead⟩
  · exact .inl (hexpired.mono hle)
  · exact .inr ⟨record, since, v.serves.record?_eq_some hrecord, hsince, hahead⟩

end Spent

namespace TimedVisit

variable {c : Config} {r : Request} {timestamp : Int64} {v : TimedVisit c} {t : Instant}

/-- Whether a call neither failed to look for a record nor to make it. -/
def Works (v : TimedVisit c) (f : Fingerprint) : Prop :=
  ∀ e ∈ v.trace, e.failsToFind f = false ∧ e.failsToEnter f = false

/-- A call that works finds a record that is there. -/
theorem Works.found_eq {f : Fingerprint} {record : Record} {found : Except StoreFault Bool}
    (h : v.Works f) (hrecord : v.opening.record? f = some record)
    (he : ⟨.findRecord f, found⟩ ∈ v.trace) : found = .ok true := by
  cases found with
  | error fault =>
      have hfails := (h _ he).1
      simp [Exchange.failsToFind] at hfails
  | ok b => rw [v.serves.found_eq_true hrecord he]

theorem transcript (v : TimedVisit c) :
    Signing.Transcript c.limits v.start.millis v.submission v.trace v.outcome :=
  Signing.yields_iff.1 v.yields

/-- What is admitted has a timestamp within the window. -/
theorem distance_le (hwindow : c.timestampWindow.millis < 9223372036854775808)
    (hclock : v.start.HasMillis) (ht : r.timestamp = some timestamp) {n : Nat} {request : Admitted}
    (hs : Admitted.ofRequest c.limits v.start.millis n r = .ok request) :
    (v.start.nanos / 1000000 - timestamp.toInt).natAbs ≤ c.timestampWindow.millis := by
  obtain ⟨_, _, _, _, hall, _⟩ := Admitted.ofRequest_eq_ok.1 hs
  have hrecent := (Config.all_isRecent_iff ht).1 hall
  rwa [hclock.toInt_millis, Config.tolerance_eq (by omega)] at hrecent

/-- A request whose time has passed is refused. -/
theorem refused_of_expired (hwindow : c.timestampWindow.millis < 9223372036854775808)
    (hclock : v.start.HasMillis) (ht : r.timestamp = some timestamp)
    (hv : v.submission.request = r) (h : c.Expired timestamp v.start) :
    v.trace = [] ∧ ∃ fault, v.outcome = .error (.invalid fault) ∧
      (Admitted.IsFit c.limits v.submission.body.length r → fault = .staleTimestamp) := by
  have hnot : ∀ request, Admitted.ofRequest c.limits v.start.millis v.submission.body.length
      v.submission.request ≠ .ok request := by
    intro request hs
    rw [hv] at hs
    have hdistance := distance_le hwindow hclock ht hs
    unfold Config.Expired at h
    omega
  have htranscript := v.transcript
  -- the trace and the outcome become variables, for the case split on the transcript
  generalize htrace : v.trace = trace, houtcome : v.outcome = outcome at htranscript
  cases htranscript with
  | @invalid fault hs =>
      refine ⟨rfl, fault, rfl, fun hfit => ?_⟩
      rw [hv] at hs hnot
      rcases hfit.cases v.start.millis with ⟨_, request, hok⟩ | ⟨_, hstale⟩
      · exact absurd hok (hnot request)
      · exact Except.error.inj (hs.symm.trans hstale)
  | unauthenticated hs => exact absurd hs (hnot _)
  | exhausted hs => exact absurd hs (hnot _)
  | passed hs => exact absurd hs (hnot _)

/-- A request that is spent is neither counted nor recorded. -/
theorem writes_of_spent (hwindow : c.timestampWindow.millis < 9223372036854775808)
    (hclock : v.start.HasMillis) (ht : r.timestamp = some timestamp)
    (hv : v.submission.request = r) (hworks : v.Works r.fingerprint)
    (hle : t.nanos ≤ v.start.nanos) (h : Spent c r timestamp v.opening t) :
    v.trace.countP Exchange.counts = 0 ∧ ∀ f, v.trace.any (Exchange.records f) = false := by
  rcases h with hexpired | ⟨record, since, hrecord, _, _⟩
  · obtain ⟨htrace, _⟩ := refused_of_expired hwindow hclock ht hv (hexpired.mono hle)
    rw [htrace]
    exact ⟨rfl, fun _ => rfl⟩
  · rcases v.transcript.writes_cases with hnone | ⟨request, found, recorded, hs, _, hf, he, _⟩
    · exact hnone
    · -- the record is there, so it was found
      obtain ⟨_, _, _, _, _, hfingerprint, _⟩ := Admitted.ofRequest_eq_ok.1 hs
      rw [hfingerprint, hv] at he
      exact absurd (hworks.found_eq hrecord he) hf

/-- **A request is counted once and then it is spent**, unless nothing is written at all. -/
theorem writes_or_spent (hwindow : c.timestampWindow.millis < 9223372036854775808)
    (hclock : v.start.HasMillis) (ht : r.timestamp = some timestamp)
    (hv : v.submission.request = r) (hworks : v.Works r.fingerprint) :
    (v.trace.countP Exchange.counts = 0 ∧ ∀ f, v.trace.any (Exchange.records f) = false) ∨
      (v.trace.countP Exchange.counts = 1 ∧ Spent c r timestamp v.closing v.stop) := by
  rcases v.transcript.writes_cases with hnone | ⟨request, found, recorded, hs, hone, hf, he, hm⟩
  · exact .inl hnone
  · refine .inr ⟨hone, .inr ?_⟩
    obtain ⟨_, _, _, _, _, hfingerprint, _⟩ := Admitted.ofRequest_eq_ok.1 hs
    rw [hv] at hs hfingerprint
    have hdistance := distance_le hwindow hclock ht hs
    have hrecords : v.trace.any (Exchange.records r.fingerprint) = true := by
      refine List.any_eq_true.2 ⟨_, hm, ?_⟩
      cases recorded with
      | error fault =>
          have hfails := (hworks _ hm).2
          simp [Exchange.failsToEnter, hfingerprint] at hfails
      | ok u => simp [Exchange.records, hfingerprint]
    have hclosing : v.closing.hasRecord r.fingerprint = true := by
      rw [v.serves.serves.hasRecord_or, hrecords, Bool.or_true]
    rw [Ledger.hasRecord_eq_isSome, Option.isSome_iff_exists] at hclosing
    obtain ⟨record, hrecord⟩ := hclosing
    refine ⟨record, v.start, hrecord, ?_, by omega⟩
    rcases v.serves.stored_le hrecord with hopening | hnew
    · -- a record that had been there would have been found
      rw [hfingerprint] at he
      exact absurd (hworks.found_eq hopening he) hf
    · exact hnew

end TimedVisit

/-! ## Runs -/

namespace Ledger

variable {c : Config} {r : Request} {timestamp : Int64} {l : Ledger} {t : Instant}
  {turn : Turn c} {turns : List (Turn c)}

/-- What is spent stays spent over a turn. -/
theorem spent_of_turn (hc : c.Outlasts) (h : Spent c r timestamp turn.opening t)
    (hstart : t.nanos ≤ turn.start.nanos) (hstop : turn.start.nanos ≤ turn.stop.nanos) :
    Spent c r timestamp turn.closing turn.stop := by
  cases turn with
  | call v => exact Spent.visit h (Int.le_trans hstart hstop)
  | prune now d => exact Spent.prune hc h hstart

/-- A ledger goes on from where the first of its turns have led it. -/
theorem Undergoes.exists_of_append {before after : List (Turn c)}
    (h : l.Undergoes t (before ++ after)) :
    ∃ (l' : Ledger) (t' : Instant), l'.Undergoes t' after := by
  induction before generalizing l t with
  | nil => exact ⟨l, t, h⟩
  | cons turn before ih =>
      obtain ⟨_, _, _, _, hrest⟩ := h
      exact ih hrest

/-- What is spent stays spent over any number of turns. -/
theorem Undergoes.spent (hc : c.Outlasts) {before after : List (Turn c)}
    (h : l.Undergoes t (before ++ after)) (hspent : Spent c r timestamp l t) :
    ∃ (l' : Ledger) (t' : Instant), l'.Undergoes t' after ∧ Spent c r timestamp l' t' := by
  induction before generalizing l t with
  | nil => exact ⟨l, t, h, hspent⟩
  | cons turn before ih =>
      obtain ⟨rfl, hstart, hstop, _, hrest⟩ := h
      exact ih hrest (spent_of_turn hc hspent hstart hstop)

/-- A request that is spent is not counted. -/
theorem Undergoes.countings_eq_zero (hc : c.Outlasts) (ht : r.timestamp = some timestamp)
    (hworks : ∀ v, .call v ∈ turns → v.Works r.fingerprint)
    (h : l.Undergoes t turns) (hspent : Spent c r timestamp l t) :
    (turns.map (Turn.countings r)).sum = 0 := by
  induction turns generalizing l t with
  | nil => rfl
  | cons turn turns ih =>
      obtain ⟨rfl, hstart, hstop, hclock, hrest⟩ := h
      have hlater := ih (fun v hv => hworks v (List.mem_cons_of_mem _ hv)) hrest
        (spent_of_turn hc hspent hstart hstop)
      have hnow : turn.countings r = 0 := by
        cases turn with
        | prune now d => rfl
        | call v =>
            by_cases hv : v.submission.request = r
            · rw [Turn.countings_of_eq hv]
              exact (v.writes_of_spent hc.window_lt hclock ht hv (hworks v List.mem_cons_self)
                hstart hspent).1
            · exact if_neg hv
      rw [List.map_cons, List.sum_cons, hnow, hlater]

theorem Undergoes.countings_le_one (hc : c.Outlasts) (ht : r.timestamp = some timestamp)
    (hworks : ∀ v, .call v ∈ turns → v.Works r.fingerprint) (h : l.Undergoes t turns) :
    (turns.map (Turn.countings r)).sum ≤ 1 := by
  induction turns generalizing l t with
  | nil => exact Nat.zero_le 1
  | cons turn turns ih =>
      obtain ⟨rfl, hstart, hstop, hclock, hrest⟩ := h
      have hworks' : ∀ v, .call v ∈ turns → v.Works r.fingerprint :=
        fun v hv => hworks v (List.mem_cons_of_mem _ hv)
      have hlater := ih hworks' hrest
      -- either this turn counts nothing, or the request is spent after it
      have hcases : turn.countings r = 0 ∨
          turn.countings r = 1 ∧ Spent c r timestamp turn.closing turn.stop := by
        cases turn with
        | prune now d => exact .inl rfl
        | call v =>
            by_cases hv : v.submission.request = r
            · rw [Turn.countings_of_eq hv]
              rcases v.writes_or_spent hc.window_lt hclock ht hv (hworks v List.mem_cons_self) with
                hnone | hspent
              · exact .inl hnone.1
              · exact .inr hspent
            · exact .inl (if_neg hv)
      rw [List.map_cons, List.sum_cons]
      rcases hcases with hzero | ⟨hone, hspent⟩
      · omega
      · have hnone := hrest.countings_eq_zero hc ht hworks' hspent
        omega

/-- **Pruning never brings back a request with a timestamp.** Let records be kept for twice the
window and a second, and let no call fail to look for the record of the request or to make it. Then
the request is counted at most once, and once its record was made and is gone again, every call with
it is refused: its timestamp is stale, or an earlier check fails. -/
theorem counted_once_of_undergoes (hc : c.Outlasts) (ht : r.timestamp = some timestamp)
    (hworks : ∀ v, .call v ∈ turns → v.Works r.fingerprint) (h : l.Undergoes t turns) :
    (turns.map (Turn.countings r)).sum ≤ 1 ∧
      ∀ before v between w after, turns = before ++ .call v :: (between ++ .call w :: after) →
        v.submission.request = r → v.trace.any (Exchange.records r.fingerprint) = true →
        w.submission.request = r → w.opening.hasRecord r.fingerprint = false →
          ∃ fault, w.outcome = .error (.invalid fault) ∧
            (Admitted.IsFit c.limits w.submission.body.length r → fault = .staleTimestamp) := by
  refine ⟨h.countings_le_one hc ht hworks, ?_⟩
  rintro before v between w after rfl hv hrecords hw hgone
  obtain ⟨l₁, t₁, rfl, _, _, hclock, hrest⟩ := h.exists_of_append
  -- after `v` the request is spent: its record is there, or its time has passed
  have hspent : Spent c r timestamp v.closing v.stop := by
    have hworks' : v.Works r.fingerprint := hworks v (by simp)
    rcases v.writes_or_spent hc.window_lt hclock ht hv hworks' with ⟨_, hnone⟩ | ⟨_, hspent⟩
    · rw [hnone] at hrecords
      cases hrecords
    · exact hspent
  -- it still is when `w` begins, and since the record is gone its time has passed
  obtain ⟨l₂, t₂, ⟨rfl, hstart, _, hclock', _⟩, hspent'⟩ := hrest.spent hc hspent
  rcases hspent' with hexpired | ⟨record, _, hrecord, _, _⟩
  · exact (w.refused_of_expired hc.window_lt hclock' ht hw (hexpired.mono hstart)).2
  · have hthere : w.opening.hasRecord r.fingerprint = true := by
      rw [hasRecord_eq_isSome]
      exact Option.isSome_iff_exists.2 ⟨record, hrecord⟩
    rw [hthere] at hgone
    cases hgone

end Ledger

/-! ## Submissions to deployments -/

namespace Deployment

/-- A deployment whose database works neither fails to look for a record nor to make it. -/
theorem exchange_of_works {d : Deployment} (h : ∀ s, d.database.faultOf? s = none) (call : Call)
    (f : Fingerprint) :
    (exchange call d).failsToFind f = false ∧ (exchange call d).failsToEnter f = false := by
  cases call with
  | findRecord g =>
      have hok : (answer (.findRecord g) d).1 = .ok (d.database.ledger.hasRecord g) := by
        rw [answer_findRecord]
        unfold Database.execute
        rw [h]
        rfl
      unfold exchange
      rw [hok]
      exact ⟨rfl, rfl⟩
  | addRecord request =>
      have hok : (answer (.addRecord request) d).1 = .ok () := by
        have hlogging : (d.logging .addRecord).database = d.database := rfl
        rw [answer_addRecord]
        unfold execute Database.execute
        rw [hlogging, h]
        rfl
      unfold exchange
      rw [hok]
      exact ⟨rfl, rfl⟩
  | _ => exact ⟨rfl, rfl⟩

/-- What is submitted to a deployment is a call at the time of its clock, and if the database works
the call does. -/
theorem exists_timedVisit (s : Submission) (d : Deployment)
    (h : ∀ s, d.database.faultOf? s = none) :
    ∃ v : TimedVisit d.config, v.start = d.clock ∧ v.stop = d.clock ∧ v.submission = s ∧
      v.opening = d.database.ledger ∧ v.outcome = (submit s d).1 ∧
      v.closing = (submit s d).2.database.ledger ∧ ∀ f, v.Works f := by
  obtain ⟨trace, hy, hl, he⟩ :=
    exists_servesBetween_perform (Signing.procedure d.config.limits d.clock.millis s) d
  refine ⟨⟨d.clock, d.clock, s, d.database.ledger, trace, _, _, hy, hl⟩, rfl, rfl, rfl, rfl, rfl,
    rfl, ?_⟩
  intro f e hmem
  obtain ⟨call, d', hsame, rfl⟩ := he e hmem
  refine exchange_of_works (fun statement => ?_) call f
  rw [hsame]
  exact h statement

end Deployment

/-! ## A rehearsal -/

def Deployment.rehearsalAt (t : Instant) (ledger : Ledger) : Deployment :=
  { rehearsal ledger (some 10) with clock := t }

/-- Thirty-one days after the start of 1970. -/
def monthLater : Instant := ⟨2678400000000000⟩

/-- A turn that takes no time. -/
theorem Ledger.undergoes_at {c : Config} {l : Ledger} {t s : Instant} {turn : Turn c}
    {turns : List (Turn c)} (hopening : turn.opening = l) (hstart : turn.start = s)
    (hstop : turn.stop = s) (hle : t.nanos ≤ s.nanos) (hs : s.HasMillis)
    (hrest : turn.closing.Undergoes s turns) : l.Undergoes t (turn :: turns) := by
  refine ⟨hopening, by rw [hstart]; exact hle, Int.le_of_eq (by rw [hstart, hstop]), ?_, ?_⟩
  · rw [hstart]
    exact hs
  · rw [hstop]
    exact hrest

theorem exists_rehearsed_visit (t : Instant) (ledger : Ledger) :
    ∃ v : TimedVisit .standard, v.start = t ∧ v.stop = t ∧
      v.submission = Deployment.rehearsedSubmission ∧ v.opening = ledger ∧
      v.closing = (Deployment.submit Deployment.rehearsedSubmission
        (Deployment.rehearsalAt t ledger)).2.database.ledger ∧ ∀ f, v.Works f := by
  obtain ⟨v, hstart, hstop, hsubmission, hopening, _, hclosing, hworks⟩ :=
    Deployment.exists_timedVisit Deployment.rehearsedSubmission
      (Deployment.rehearsalAt t ledger) fun _ => rfl
  exact ⟨v, hstart, hstop, hsubmission, hopening, hclosing, hworks⟩

/-- What a rehearsal at the start of 1970 leaves on an empty ledger is gone a month later. -/
theorem exists_rehearsed_database : ∃ d : Database,
    (Deployment.submit Deployment.rehearsedSubmission
      (Deployment.rehearsalAt ⟨0⟩ .empty)).2.database = d ∧
    d.ledger.hasRecord Deployment.rehearsed.fingerprint = true ∧
    (d.pruneOlder monthLater Config.standard.retention).2.ledger.hasRecord
      Deployment.rehearsed.fingerprint = false := by
  obtain ⟨request, hs⟩ := Deployment.exists_rehearsed_admitted
  have hd : Deployment.Rehearses (Deployment.rehearsalAt ⟨0⟩ .empty) := ⟨rfl, rfl, rfl, rfl, rfl⟩
  have hquota := Deployment.quotaOf_rehearsal .empty 10 request.account
  obtain ⟨signature, _, hleft⟩ := hd.submits hs (Deployment.accepts_of_acceptAll rfl _ _ _)
    (by rw [show (Deployment.rehearsalAt ⟨0⟩ .empty).quotaOf request.account = _ from hquota]; rfl)
  obtain ⟨l, hentered, hrecords, hmade, _⟩ := @Deployment.exists_entered_of_new request
    (Deployment.rehearsalAt ⟨0⟩ .empty) (fun _ _ => rfl) rfl (show (0 : Int64) < _ by decide)
  rw [hentered] at hleft
  rw [← Deployment.fingerprint_of_rehearsed hs]
  refine ⟨_, hleft, hmade, ?_⟩
  have hcutoff : Retention.cutoff? monthLater Config.standard.retention =
      some ⟨86400000000000⟩ := rfl
  rw [Database.pruneOlder_of_works hcutoff rfl]
  show (l.records.keep _).contains _ = false
  rw [hrecords]
  rfl

/-- A request is granted at the start of 1970, its record is pruned after a month, and then the
request is refused for its timestamp. -/
theorem Ledger.counted_once_of_rehearsal :
    ∃ (v w : TimedVisit .standard) (d : Database),
      Ledger.empty.Undergoes ⟨0⟩ [.call v, .prune monthLater d, .call w] ∧
      v.trace.any (Exchange.records Deployment.rehearsed.fingerprint) = true ∧
      w.opening.hasRecord Deployment.rehearsed.fingerprint = false ∧
      (([.call v, .prune monthLater d, .call w] : List (Turn .standard)).map
        (Turn.countings Deployment.rehearsed)).sum ≤ 1 ∧
      w.outcome = .error (.invalid .staleTimestamp) := by
  have hzero : Instant.HasMillis ⟨0⟩ := ⟨by decide, by decide⟩
  have hmonth : monthLater.HasMillis := ⟨by decide, by decide⟩
  have hlater : (0 : Int) ≤ monthLater.nanos := by decide
  have houtlasts : Config.Outlasts .standard := ⟨by decide, by decide, by decide⟩
  obtain ⟨d, hd, hmade, hgone⟩ := exists_rehearsed_database
  -- `v` is the first call, on an empty ledger, and `w` the one after the pruning
  obtain ⟨v, hstart, hstop, hsubmission, hopening, hclosing, hworks⟩ :=
    exists_rehearsed_visit ⟨0⟩ .empty
  rw [hd] at hclosing
  obtain ⟨w, hstart', hstop', hsubmission', hopening', _, hworks'⟩ :=
    exists_rehearsed_visit monthLater
      (d.pruneOlder monthLater Config.standard.retention).2.ledger
  have hundergoes : Ledger.empty.Undergoes ⟨0⟩
      ([.call v, .prune monthLater d, .call w] : List (Turn .standard)) :=
    undergoes_at hopening hstart hstop (Int.le_refl _) hzero <|
      undergoes_at hclosing.symm rfl rfl hlater hmonth <|
        undergoes_at hopening' hstart' hstop' (Int.le_refl _) hmonth trivial
  -- the record is there after `v` and was not there before: `v` made it
  have hrecords : v.trace.any (Exchange.records Deployment.rehearsed.fingerprint) = true := by
    have hempty : ∀ f, Ledger.empty.hasRecord f = false := fun _ => rfl
    have hor := v.serves.serves.hasRecord_or Deployment.rehearsed.fingerprint
    rw [hclosing, hmade, hopening, hempty, Bool.false_or] at hor
    exact hor.symm
  have hgone' : w.opening.hasRecord Deployment.rehearsed.fingerprint = false := by
    rw [hopening']
    exact hgone
  have hall : ∀ u, .call u ∈ ([.call v, .prune monthLater d, .call w] : List (Turn .standard)) →
      u.Works Deployment.rehearsed.fingerprint := by
    intro u hu
    simp only [List.mem_cons, List.not_mem_nil, or_false, reduceCtorEq, Turn.call.injEq,
      false_or] at hu
    rcases hu with rfl | rfl
    · exact hworks _
    · exact hworks' _
  have htimestamp : Deployment.rehearsed.timestamp = some 0 := rfl
  obtain ⟨hsum, hrefused⟩ := counted_once_of_undergoes houtlasts htimestamp hall hundergoes
  obtain ⟨fault, hfault, hstale⟩ := hrefused [] v [.prune monthLater d] w [] rfl
    (congrArg Submission.request hsubmission) hrecords (congrArg Submission.request hsubmission')
    hgone'
  have hfit : Admitted.IsFit Config.standard.limits w.submission.body.length
      Deployment.rehearsed := by
    obtain ⟨request, hs⟩ := Deployment.exists_rehearsed_admitted
    rw [hsubmission']
    exact Admitted.isFit_of_ofRequest hs
  obtain rfl := hstale hfit
  exact ⟨v, w, d, hundergoes, hrecords, hgone', hsum, hfault⟩

end BlindSign

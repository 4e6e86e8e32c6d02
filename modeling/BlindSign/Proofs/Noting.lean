import BlindSign.Proofs.Counters
import BlindSign.Proofs.Outcome

set_option autoImplicit false

/-! # What executions note

Beside its calls a procedure notes events. `Procedure.Logs` are its complete executions with the
exchanges that take place and the events that are noted, each in their order; without the events
they are the executions of `Procedure.Yields` (`Procedure.yields_iff_exists_logs`). An execution of
parts put together is put together of executions of the parts (`Procedure.logs_bind`).

For signing, `Signing.counters_of_logs` tells all events but the timings of stages: whether the
session is missing, then whether quota or height could not be read, then whether the request was a
duplicate. Each is noted at most once, whatever the outcome.
-/

namespace BlindSign

namespace Procedure

variable {α β : Type}

/-- A procedure ends with a result after the exchanges of a trace, and notes events on the way. -/
inductive Logs : Procedure α → List Exchange → List Metric → α → Prop
  | finish (a : α) : Logs (.finish a) [] [] a
  | note (event : Metric) {next : Procedure α} {trace : List Exchange} {events : List Metric}
      {a : α} (h : Logs next trace events a) : Logs (.note event next) trace (event :: events) a
  | ask (call : Call) {next : call.Reply → Procedure α} (reply : call.Reply)
      {trace : List Exchange} {events : List Metric} {a : α}
      (h : Logs (next reply) trace events a) :
      Logs (.ask call next) (⟨call, reply⟩ :: trace) events a
  | askBoth {first second : Call} {next : first.Reply → second.Reply → Procedure α}
      {x : first.Reply} {y : second.Reply} {es trace : List Exchange} {events : List Metric} {a : α}
      (hes : Signing.BothWays ⟨first, x⟩ ⟨second, y⟩ es) (h : Logs (next x y) trace events a) :
      Logs (.askBoth first second next) (es ++ trace) events a

/-! ## Executions with and without their events -/

theorem Logs.yields {p : Procedure α} {trace : List Exchange} {events : List Metric} {a : α}
    (h : p.Logs trace events a) : p.Yields trace a := by
  induction h with
  | finish a => exact .refl _
  | note event _ ih => exact .head (.note event _) ih
  | ask call reply _ ih => exact .head (.ask call _ reply) ih
  | @askBoth first second next x y es trace events a hes _ ih =>
      rcases hes with rfl | rfl
      · have hsecond : (Procedure.ask second (next x)).Reaches (⟨second, y⟩ :: trace) (.finish a) :=
          .head (.ask second _ y) ih
        have hboth := Reaches.head (.askFirst first second next x) hsecond
        exact hboth
      · have hfirst : (Procedure.ask first fun x => next x y).Reaches (⟨first, x⟩ :: trace)
            (.finish a) := .head (.ask first _ x) ih
        have hboth := Reaches.head (.askSecond first second next y) hfirst
        exact hboth

theorem Yields.exists_logs {p : Procedure α} {trace : List Exchange} {a : α}
    (h : p.Yields trace a) : ∃ events, p.Logs trace events a := by
  -- by induction on the tree: the first step of an execution is one of its root
  induction p generalizing trace with
  | finish result =>
      cases h with
      | refl => exact ⟨[], .finish a⟩
      | head hs => cases hs
  | note event next ih =>
      cases h with
      | head hs hr =>
          cases hs with
          | note =>
              obtain ⟨events, hl⟩ := ih hr
              exact ⟨event :: events, .note event hl⟩
  | ask call next ih =>
      cases h with
      | head hs hr =>
          cases hs with
          | ask _ _ reply =>
              obtain ⟨events, hl⟩ := ih reply hr
              exact ⟨events, .ask call reply hl⟩
  | askBoth first second next ih =>
      cases h with
      | head hs hr =>
          cases hs with
          | askFirst _ _ _ x =>
              cases hr with
              | @head _ _ _ _ fs hs' hr' =>
                  cases hs' with
                  | ask _ _ y =>
                      obtain ⟨events, hl⟩ := ih x y hr'
                      have hboth : (askBoth first second next).Logs
                          ([⟨first, x⟩, ⟨second, y⟩] ++ fs) events a := .askBoth (.inl rfl) hl
                      exact ⟨events, hboth⟩
          | askSecond _ _ _ y =>
              cases hr with
              | @head _ _ _ _ fs hs' hr' =>
                  cases hs' with
                  | ask _ _ x =>
                      obtain ⟨events, hl⟩ := ih x y hr'
                      have hboth : (askBoth first second next).Logs
                          ([⟨second, y⟩, ⟨first, x⟩] ++ fs) events a := .askBoth (.inr rfl) hl
                      exact ⟨events, hboth⟩

/-- The executions that note events are all executions. -/
theorem yields_iff_exists_logs {p : Procedure α} {trace : List Exchange} {a : α} :
    p.Yields trace a ↔ ∃ events, p.Logs trace events a := by
  constructor
  · exact Yields.exists_logs
  · rintro ⟨events, h⟩
    exact h.yields

/-! ## Executions of parts -/

section

variable {trace : List Exchange} {events : List Metric}

theorem logs_pure {a b : α} :
    (pure a : Procedure α).Logs trace events b ↔ trace = [] ∧ events = [] ∧ b = a := by
  constructor
  · intro h
    cases h
    exact ⟨rfl, rfl, rfl⟩
  · rintro ⟨rfl, rfl, rfl⟩
    exact .finish b

theorem Logs.bind {p : Procedure α} {f : α → Procedure β} {es fs : List Exchange}
    {ms ns : List Metric} {a : α} {b : β} (h : p.Logs es ms a) (hf : (f a).Logs fs ns b) :
    (p >>= f).Logs (es ++ fs) (ms ++ ns) b := by
  induction h with
  | finish a => exact hf
  | note event _ ih => exact .note event (ih hf)
  | ask call reply _ ih => exact .ask call reply (ih hf)
  | askBoth hes _ ih =>
      rw [List.append_assoc]
      exact .askBoth hes (ih hf)

/-- An execution of two parts is one of the first and then one of the second. -/
theorem logs_bind {p : Procedure α} {f : α → Procedure β} {b : β} :
    (p >>= f).Logs trace events b ↔
      ∃ es ms a fs ns, p.Logs es ms a ∧ (f a).Logs fs ns b ∧ trace = es ++ fs ∧
        events = ms ++ ns := by
  constructor
  · intro h
    change (p.andThen f).Logs trace events b at h
    induction p generalizing trace events with
    | finish result => exact ⟨[], [], result, trace, events, .finish result, h, rfl, rfl⟩
    | note event next ih =>
        cases h with
        | note _ h =>
            obtain ⟨es, ms, a, fs, ns, hp, hf, rfl, rfl⟩ := ih h
            exact ⟨es, event :: ms, a, fs, ns, .note event hp, hf, rfl, rfl⟩
    | ask call next ih =>
        cases h with
        | ask _ reply h =>
            obtain ⟨es, ms, a, fs, ns, hp, hf, rfl, rfl⟩ := ih reply h
            exact ⟨_ :: es, ms, a, fs, ns, .ask call reply hp, hf, rfl, rfl⟩
    | askBoth first second next ih =>
        cases h with
        | askBoth hes h =>
            obtain ⟨es, ms, a, fs, ns, hp, hf, rfl, rfl⟩ := ih _ _ h
            exact ⟨_ ++ es, ms, a, fs, ns, .askBoth hes hp, hf, (List.append_assoc _ _ _).symm, rfl⟩
  · rintro ⟨es, ms, a, fs, ns, hp, hf, rfl, rfl⟩
    exact hp.bind hf

theorem logs_noting {event : Metric} {u : Unit} :
    (noting event).Logs trace events u ↔ trace = [] ∧ events = [event] := by
  constructor
  · intro h
    cases h with
    | note _ h =>
        cases h
        exact ⟨rfl, rfl⟩
  · rintro ⟨rfl, rfl⟩
    exact .note event (.finish u)

theorem logs_asking {call : Call} {reply : call.Reply} :
    (asking call).Logs trace events reply ↔ trace = [⟨call, reply⟩] ∧ events = [] := by
  constructor
  · intro h
    cases h with
    | ask _ _ h =>
        cases h
        exact ⟨rfl, rfl⟩
  · rintro ⟨rfl, rfl⟩
    exact .ask call reply (.finish reply)

theorem logs_askingBoth {first second : Call} {x : first.Reply} {y : second.Reply} :
    (askingBoth first second).Logs trace events (x, y) ↔
      Signing.BothWays ⟨first, x⟩ ⟨second, y⟩ trace ∧ events = [] := by
  constructor
  · intro h
    cases h with
    | askBoth hes h =>
        cases h
        exact ⟨by rwa [List.append_nil], rfl⟩
  · rintro ⟨hes, rfl⟩
    have h : (askingBoth first second).Logs (trace ++ []) [] (x, y) := .askBoth hes (.finish (x, y))
    rwa [List.append_nil] at h

theorem logs_timed {stage : Stage} {p : Procedure α} {a : α} :
    (timed stage p).Logs trace events a ↔
      ∃ ms, p.Logs trace ms a ∧ events = ms ++ [.stage stage] := by
  unfold timed
  simp only [logs_bind, logs_noting, logs_pure]
  constructor
  · rintro ⟨es, ms, b, fs, ns, hp, ⟨gs, ks, u, hs, js, ⟨rfl, rfl⟩, ⟨rfl, rfl, rfl⟩, rfl, rfl⟩, rfl,
      rfl⟩
    exact ⟨ms, by rwa [List.append_nil, List.append_nil], rfl⟩
  · rintro ⟨ms, hp, rfl⟩
    exact ⟨trace, ms, a, [], _, hp, ⟨[], [_], (), [], [], ⟨rfl, rfl⟩, ⟨rfl, rfl, rfl⟩, rfl, rfl⟩,
      (List.append_nil trace).symm, rfl⟩

end

end Procedure

/-! ## What signing notes -/

/-- Quota or height were asked for and could not be read. -/
def Exchange.missesChain : Exchange → Bool
  | ⟨.readQuota _ _, .error _⟩ => true
  | ⟨.readHeight, .error _⟩ => true
  | _ => false

namespace Signing

open Procedure

variable {request : Admitted} {trace : List Exchange} {events : List Metric}

def warnsOfDuplicate : Except Refusal Grant → Bool
  | .ok g => decide (.duplicate ∈ g.warnings)
  | .error _ => false

/-- A reading is incomplete just if one of its exchanges has failed. -/
theorem Reads.isComplete_eq {quota : Except QuotaFault Quota} {height : Except ChainFault Int64}
    (h : Reads request quota height trace) :
    (Standing.ofReplies quota height).isComplete = !trace.any Exchange.missesChain := by
  rw [BothWays.any h]
  cases quota with
  | error fault => rfl
  | ok quota =>
      cases height with
      | error fault => rfl
      | ok height => rfl

theorem logs_readStanding {standing : Standing}
    (h : (readStanding request).Logs trace events standing) :
    ∃ quota height, Reads request quota height trace ∧ standing = .ofReplies quota height ∧
      events.filter Metric.isCounter =
        if trace.any Exchange.missesChain then [.chainError] else [] := by
  unfold readStanding at h
  obtain ⟨es, ms, standing', fs, ns, htimed, hrest, rfl, rfl⟩ := logs_bind.1 h
  obtain ⟨ms, hread, rfl⟩ := logs_timed.1 htimed
  obtain ⟨es, ks, ⟨quota, height⟩, gs, js, hboth, hpure, rfl, rfl⟩ := logs_bind.1 hread
  obtain ⟨hreads, rfl⟩ := logs_askingBoth.1 hboth
  obtain ⟨rfl, rfl, rfl⟩ := logs_pure.1 hpure
  have hcomplete := Reads.isComplete_eq hreads
  dsimp only at hrest
  -- the reading is incomplete just if an exchange of it misses the chain
  rw [hcomplete, Bool.not_not] at hrest
  cases hmisses : es.any Exchange.missesChain with
  | true =>
      rw [if_pos hmisses] at hrest
      obtain ⟨_, _, u, _, _, hnoting, hend, rfl, rfl⟩ := logs_bind.1 hrest
      obtain ⟨rfl, rfl⟩ := logs_noting.1 hnoting
      obtain ⟨rfl, rfl, rfl⟩ := logs_pure.1 hend
      refine ⟨quota, height, ?_, rfl, by simp [Metric.isCounter, hmisses]⟩
      simp only [List.append_nil]
      exact hreads
  | false =>
      rw [if_neg (Bool.eq_false_iff.1 hmisses)] at hrest
      obtain ⟨rfl, rfl, rfl⟩ := logs_pure.1 hrest
      refine ⟨quota, height, ?_, rfl, by simp [Metric.isCounter, hmisses]⟩
      simp only [List.append_nil]
      exact hreads

theorem logs_produceSignature {query : BlindedQuery} {signed : Except Refusal PartialSignature}
    (h : (produceSignature query).Logs trace events signed) :
    events.filter Metric.isCounter = [] ∧ trace.any Exchange.missesChain = false := by
  unfold produceSignature at h
  obtain ⟨ms, hsign, rfl⟩ := logs_timed.1 h
  obtain ⟨_, _, loaded, _, _, hload, hrest, rfl, rfl⟩ := logs_bind.1 hsign
  obtain ⟨rfl, rfl⟩ := logs_asking.1 hload
  cases loaded with
  | error fault =>
      obtain ⟨rfl, rfl, rfl⟩ := logs_pure.1 hrest
      exact ⟨rfl, rfl⟩
  | ok share =>
      obtain ⟨_, _, signature, _, _, hask, hend, rfl, rfl⟩ := logs_bind.1 hrest
      obtain ⟨rfl, rfl⟩ := logs_asking.1 hask
      cases signature with
      | error fault =>
          obtain ⟨rfl, rfl, rfl⟩ := logs_pure.1 hend
          exact ⟨rfl, rfl⟩
      | ok signature =>
          obtain ⟨rfl, rfl, rfl⟩ := logs_pure.1 hend
          exact ⟨rfl, rfl⟩

theorem logs_enter {entry : Entry} (h : (enter request).Logs trace events entry) :
    events.filter Metric.isCounter = [] ∧ trace.any Exchange.missesChain = false ∧
      .duplicate ∉ entry.warnings := by
  unfold enter at h
  obtain ⟨_, _, ⟨recorded, counted⟩, _, _, htimed, hend, rfl, rfl⟩ := logs_bind.1 h
  obtain ⟨_, hwrites, rfl⟩ := logs_timed.1 htimed
  obtain ⟨hboth, rfl⟩ := logs_askingBoth.1 hwrites
  obtain ⟨rfl, rfl, rfl⟩ := logs_pure.1 hend
  refine ⟨rfl, ?_, ?_⟩
  · rw [List.append_nil, hboth.any]
    rfl
  · show Warning.duplicate ∉ (if recorded.isOk then [] else [Warning.notRecorded]) ++
      (if counted.isOk then [] else [Warning.notCounted])
    generalize recorded.isOk = isRecorded
    generalize counted.isOk = isCounted
    revert isRecorded isCounted
    decide

/-- Whether a request was on record is noted just if its entry warns of it. -/
theorem logs_enterOnce {entry : Entry} (h : (enterOnce request).Logs trace events entry) :
    events.filter Metric.isCounter =
        (if .duplicate ∈ entry.warnings then [.duplicate] else []) ∧
      trace.any Exchange.missesChain = false := by
  unfold enterOnce at h
  obtain ⟨_, _, found, fs, ns, hfind, hrest, rfl, rfl⟩ := logs_bind.1 h
  obtain ⟨rfl, rfl⟩ := logs_asking.1 hfind
  by_cases hfound : found.toOption.getD false = true
  · rw [if_pos hfound] at hrest
    obtain ⟨_, _, u, _, _, hnoting, hend, rfl, rfl⟩ := logs_bind.1 hrest
    obtain ⟨rfl, rfl⟩ := logs_noting.1 hnoting
    obtain ⟨rfl, rfl, rfl⟩ := logs_pure.1 hend
    exact ⟨rfl, rfl⟩
  · rw [if_neg hfound] at hrest
    obtain ⟨hevents, hmisses, hwarnings⟩ := logs_enter hrest
    refine ⟨?_, ?_⟩
    · rw [if_neg hwarnings]
      exact hevents
    · show fs.any Exchange.missesChain = false
      exact hmisses

/-- **What a grant or a refusal notes after the caller was authenticated.** -/
theorem logs_grant {outcome : Except Refusal Grant}
    (h : (grant request).Logs trace events outcome) :
    events.filter Metric.isCounter =
      (if trace.any Exchange.missesChain then [.chainError] else []) ++
        (if warnsOfDuplicate outcome then [.duplicate] else []) := by
  unfold grant at h
  obtain ⟨reads, ms, standing, fs, ns, hread, hrest, rfl, rfl⟩ := logs_bind.1 h
  obtain ⟨quota, height, hreads, rfl, hevents⟩ := logs_readStanding hread
  cases hx : (Standing.ofReplies quota height).exhausted? with
  | some q =>
      rw [hx] at hrest
      obtain ⟨rfl, rfl, rfl⟩ := logs_pure.1 hrest
      simp [hevents, warnsOfDuplicate]
  | none =>
      rw [hx] at hrest
      obtain ⟨es, ks, signed, gs, js, hsign, hend, rfl, rfl⟩ := logs_bind.1 hrest
      obtain ⟨hsilent, hquiet⟩ := logs_produceSignature hsign
      cases signed with
      | error refusal =>
          obtain ⟨rfl, rfl, rfl⟩ := logs_pure.1 hend
          simp [hevents, hsilent, hquiet, warnsOfDuplicate]
      | ok signature =>
          obtain ⟨_, _, entry, _, _, henter, hgranted, rfl, rfl⟩ := logs_bind.1 hend
          obtain ⟨hduplicate, hrecord⟩ := logs_enterOnce henter
          obtain ⟨rfl, rfl, rfl⟩ := logs_pure.1 hgranted
          -- a warning of a duplicate can only come from the entry
          have hstanding : .duplicate ∉ (Standing.ofReplies quota height).warnings := by
            unfold Standing.warnings
            split
            · simp
            · simp
          simp [hevents, hsilent, hquiet, hduplicate, hrecord, warnsOfDuplicate, hstanding]

variable {limits : Limits} {now : Int64} {s : Submission}

/-- **What signing notes.** In every execution the events, but for the timings of stages, are these:
that the session is missing, if it is; that the chain could not be read, if quota or height could
not be read; and that the request is a duplicate, if the grant warns of it. -/
theorem counters_of_logs {outcome : Except Refusal Grant}
    (h : (procedure limits now s).Logs trace events outcome) :
    events.filter Metric.isCounter =
      (if s.request.sessionId.isNone then [.missingSession] else []) ++
        (if trace.any Exchange.missesChain then [.chainError] else []) ++
        (if warnsOfDuplicate outcome then [.duplicate] else []) := by
  -- the session is looked at before the gates, which note the rest
  have hgates : ∀ {events}, (gates limits now s).Logs trace events outcome →
      events.filter Metric.isCounter =
        (if trace.any Exchange.missesChain then [.chainError] else []) ++
          (if warnsOfDuplicate outcome then [.duplicate] else []) := by
    intro events h
    unfold gates at h
    cases hs : Admitted.ofRequest limits now s.body.length s.request with
    | error fault =>
        rw [hs] at h
        obtain ⟨rfl, rfl, rfl⟩ := logs_pure.1 h
        rfl
    | ok request =>
        rw [hs] at h
        obtain ⟨_, _, authentic, fs, ns, htimed, hrest, rfl, rfl⟩ := logs_bind.1 h
        obtain ⟨_, hask, rfl⟩ := logs_timed.1 htimed
        obtain ⟨rfl, rfl⟩ := logs_asking.1 hask
        cases authentic with
        | false =>
            obtain ⟨rfl, rfl, rfl⟩ := logs_pure.1 hrest
            rfl
        | true =>
            have hgrant : (grant request).Logs fs ns outcome := hrest
            have hevents := logs_grant hgrant
            exact hevents
  rw [procedure_eq] at h
  by_cases hsession : s.request.sessionId.isNone = true
  · rw [if_pos hsession] at h
    cases h with
    | note _ h =>
        rw [List.filter_cons_of_pos rfl, hgates h, if_pos hsession]
        rfl
  · rw [if_neg hsession] at h
    rw [hgates h, if_neg hsession]
    rfl

end Signing

end BlindSign

import BlindSign.Proofs.Rehearsals

set_option autoImplicit false

/-! # The order of calls

A submission that is refused makes the calls up to the gate that refuses it and none after it; no
record is looked for, nothing is recorded or counted, and the ledger stays as it is. One that is
granted looks for its record once, after it was signed, and is recorded and counted once if the
record was not found.

This holds whatever the collaborators reply, so also of every deployment.
-/

namespace BlindSign

/-- Whether a call belongs to the entering of a request. -/
def Call.isBookkeeping : Call → Bool
  | .findRecord _ => true
  | .addRecord _ => true
  | .addCount _ => true
  | _ => false

/-- Writes are bookkeeping. -/
theorem Call.isWrite_of_isBookkeeping {call : Call} (h : call.isBookkeeping = false) :
    call.isWrite = false := by
  cases call with
  | addRecord request => cases h
  | addCount account => cases h
  | _ => rfl

namespace Signing

/-- The calls that authenticate a request and read quota and height for it, the last two in either
order. -/
def CallsToRead (s : Submission) (request : Admitted) (calls : List Call) : Prop :=
  ∃ reads, reads.Perm [.readQuota request.account request.phoneHash, .readHeight] ∧
    calls = .authenticate request s.body s.authorization :: reads

def CallsToSign (s : Submission) (request : Admitted) (calls : List Call) : Prop :=
  ∃ reads share, CallsToRead s request reads ∧
    calls = reads ++ [.loadKey, .sign request.query share]

/-- The calls up to the gate that refuses a submission. -/
inductive CallsUntil (limits : Limits) (now : Int64) (s : Submission) : Refusal → List Call → Prop
  | invalid {fault : RequestFault}
      (hs : Admitted.ofRequest limits now s.body.length s.request = .error fault) :
      CallsUntil limits now s (.invalid fault) []
  | unauthenticated {request : Admitted}
      (hs : Admitted.ofRequest limits now s.body.length s.request = .ok request) :
      CallsUntil limits now s .unauthenticated [.authenticate request s.body s.authorization]
  | exhausted {request : Admitted} {calls : List Call} (quota : Quota) (height : Int64)
      (hs : Admitted.ofRequest limits now s.body.length s.request = .ok request)
      (hc : CallsToRead s request calls) :
      CallsUntil limits now s (.exhausted quota height) calls
  | keyUnavailable {request : Admitted} {calls : List Call} (fault : KeyFault)
      (hs : Admitted.ofRequest limits now s.body.length s.request = .ok request)
      (hc : CallsToRead s request calls) :
      CallsUntil limits now s (.keyUnavailable fault) (calls ++ [.loadKey])
  | unsigned {request : Admitted} {calls : List Call} (fault : EngineFault)
      (hs : Admitted.ofRequest limits now s.body.length s.request = .ok request)
      (hc : CallsToSign s request calls) :
      CallsUntil limits now s (.unsigned fault) calls

section

variable {limits : Limits} {now : Int64} {s : Submission} {request : Admitted}

/-- No gate is bookkeeping. -/
theorem CallsToRead.isBookkeeping {calls : List Call} (h : CallsToRead s request calls) :
    ∀ call ∈ calls, call.isBookkeeping = false := by
  obtain ⟨reads, hp, rfl⟩ := h
  intro call hc
  rcases List.mem_cons.1 hc with rfl | hc
  · rfl
  · have hr := hp.mem_iff.1 hc
    simp only [List.mem_cons, List.not_mem_nil, or_false] at hr
    rcases hr with rfl | rfl
    · rfl
    · rfl

theorem CallsToSign.isBookkeeping {calls : List Call} (h : CallsToSign s request calls) :
    ∀ call ∈ calls, call.isBookkeeping = false := by
  obtain ⟨reads, share, hc, rfl⟩ := h
  intro call h
  rcases List.mem_append.1 h with h | h
  · exact hc.isBookkeeping call h
  · simp only [List.mem_cons, List.not_mem_nil, or_false] at h
    rcases h with rfl | rfl
    · rfl
    · rfl

theorem CallsUntil.isBookkeeping {refusal : Refusal} {calls : List Call}
    (h : CallsUntil limits now s refusal calls) : ∀ call ∈ calls, call.isBookkeeping = false := by
  cases h with
  | invalid hs => simp
  | unauthenticated hs => simp [Call.isBookkeeping]
  | exhausted quota height hs hc => exact hc.isBookkeeping
  | keyUnavailable fault hs hc =>
      intro call h
      rcases List.mem_append.1 h with h | h
      · exact hc.isBookkeeping call h
      · obtain rfl := List.mem_singleton.1 h
        rfl
  | unsigned fault hs hc => exact hc.isBookkeeping

/-- Calls that are no bookkeeping leave the ledger as it is. -/
theorem follows_of_isBookkeeping {l l' : Ledger} {trace : List Exchange}
    (h : l.Follows trace l') (hb : ∀ call ∈ trace.map Exchange.call, call.isBookkeeping = false) :
    l' = l :=
  h.eq_of_isWrite fun _ he => Call.isWrite_of_isBookkeeping (hb _ (List.mem_map_of_mem he))

theorem BothWays.perm {a b : Exchange} {es : List Exchange} (h : BothWays a b es) :
    (es.map Exchange.call).Perm [a.call, b.call] := by
  rcases h with rfl | rfl
  · exact .refl _
  · exact .swap _ _ _

theorem Reads.callsToRead {quota : Except QuotaFault Quota} {height : Except ChainFault Int64}
    {reads : List Exchange} (h : Reads request quota height reads) :
    CallsToRead s request
      (.authenticate request s.body s.authorization :: reads.map Exchange.call) :=
  ⟨_, h.perm, rfl⟩

/-! ## Refusals and grants -/

theorem Transcript.callsUntil {trace : List Exchange} {refusal : Refusal}
    (h : Transcript limits now s trace (.error refusal)) :
    CallsUntil limits now s refusal (trace.map Exchange.call) := by
  cases h with
  | invalid hs => exact .invalid hs
  | unauthenticated hs => exact .unauthenticated hs
  | exhausted hs hr hq => exact .exhausted _ _ hs hr.callsToRead
  | passed hs hr hq hc =>
      rw [List.map_cons, List.map_append]
      cases hc with
      | keyUnavailable fault => exact .keyUnavailable fault hs hr.callsToRead
      | unsigned share fault => exact .unsigned fault hs ⟨_, share, hr.callsToRead, rfl⟩

/-- What is granted was signed before its record was looked for, and is entered after it unless the
record was found. -/
theorem Transcript.of_granted {trace : List Exchange} {g : Grant}
    (h : Transcript limits now s trace (.ok g)) :
    ∃ request before found after,
      Admitted.ofRequest limits now s.body.length s.request = .ok request ∧
        trace = before ++ ⟨.findRecord request.fingerprint, found⟩ :: after ∧
        CallsToSign s request (before.map Exchange.call) ∧
        (found = .ok true → after = []) ∧
        (found ≠ .ok true →
          (after.map Exchange.call).Perm [.addRecord request, .addCount request.account]) := by
  cases h with
  | @passed request quota height reads rest outcome hs hr hq hc =>
      -- both ways of being granted begin with the same calls
      have hsign : ∀ share (signature : PartialSignature), CallsToSign s request
          ((⟨.authenticate request s.body s.authorization, true⟩ :: (reads ++
            [⟨.loadKey, .ok share⟩, ⟨.sign request.query share, .ok signature⟩])).map
              Exchange.call) := by
        intro share signature
        refine ⟨_, share, hr.callsToRead, ?_⟩
        rw [List.map_cons, List.map_append]
        rfl
      cases hc with
      | duplicate share signature =>
          refine ⟨request, _, .ok true, [], hs, ?_, hsign share signature, fun _ => rfl,
            fun h => absurd rfl h⟩
          simp
      | @entered share signature found recorded counted writes hf hw =>
          refine ⟨request, _, found, writes, hs, ?_, hsign share signature,
            fun h => absurd h hf, fun _ => hw.perm⟩
          simp

/-- **Which calls are made.** A refused submission makes the calls up to the gate that refuses it,
none of them bookkeeping, and leaves the ledger as it is. A granted one is signed, then its record
is looked for once; if it is found nothing follows and the ledger stays as it is, otherwise the
request is recorded once and counted once. -/
theorem calls_of_yields {trace : List Exchange} {outcome : Except Refusal Grant} {l l' : Ledger}
    (hy : (procedure limits now s).Yields trace outcome) (hl : l.Follows trace l') :
    match outcome with
    | .error refusal =>
        l' = l ∧ (∀ call ∈ trace.map Exchange.call, call.isBookkeeping = false) ∧
          CallsUntil limits now s refusal (trace.map Exchange.call)
    | .ok _ =>
        ∃ request before found after,
          Admitted.ofRequest limits now s.body.length s.request = .ok request ∧
            trace = before ++ ⟨.findRecord request.fingerprint, found⟩ :: after ∧
            CallsToSign s request (before.map Exchange.call) ∧
            (found = .ok true → after = [] ∧ l' = l) ∧
            (found ≠ .ok true →
              (after.map Exchange.call).Perm [.addRecord request, .addCount request.account]) := by
  have ht : Transcript limits now s trace outcome := (obeys_procedure limits now s).yields hy
  cases outcome with
  | error refusal =>
      have hc : CallsUntil limits now s refusal (trace.map Exchange.call) := ht.callsUntil
      exact ⟨follows_of_isBookkeeping hl hc.isBookkeeping, hc.isBookkeeping, hc⟩
  | ok g =>
      obtain ⟨request, before, found, after, hs, rfl, hb, hfound, hnew⟩ := ht.of_granted
      refine ⟨request, before, found, after, hs, rfl, hb, fun hf => ⟨hfound hf, ?_⟩, hnew⟩
      -- up to the lookup, and with it, nothing was written
      obtain rfl := hfound hf
      refine hl.eq_of_isWrite fun e he => ?_
      rcases List.mem_append.1 he with he | he
      · exact Call.isWrite_of_isBookkeeping (hb.isBookkeeping _ (List.mem_map_of_mem he))
      · obtain rfl := List.mem_singleton.1 he
        rfl

/-- A rehearsal with an empty ledger grants its request, so it makes the calls of a granted one. -/
theorem calls_of_rehearsal :
    ∃ trace g l', (procedure Config.standard.limits 0 Deployment.rehearsedSubmission).Yields trace
        (.ok g) ∧ Ledger.empty.Follows trace l' ∧
      ∃ request before found after,
        trace = before ++ ⟨.findRecord request.fingerprint, found⟩ :: after ∧
          CallsToSign Deployment.rehearsedSubmission request (before.map Exchange.call) := by
  obtain ⟨request, hs⟩ := Deployment.exists_rehearsed_admitted
  obtain ⟨signature, ho, _⟩ := (Deployment.rehearses_rehearsal .empty (some 10)).grants hs
    (Deployment.accepts_of_acceptAll rfl _ _ _) (by rw [Deployment.quotaOf_rehearsal]; rfl)
  obtain ⟨trace, hy, hl⟩ := Deployment.exists_yields_perform
    (procedure Config.standard.limits 0 Deployment.rehearsedSubmission)
    (Deployment.rehearsal .empty (some 10))
  rw [ho] at hy
  obtain ⟨request', before, found, after, _, ht, hc, _⟩ := calls_of_yields hy hl.follows
  exact ⟨trace, _, _, hy, hl.follows, request', before, found, after, ht, hc⟩

end

end Signing

end BlindSign

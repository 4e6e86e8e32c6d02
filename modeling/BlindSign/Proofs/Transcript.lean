import BlindSign.Proofs.Execution

set_option autoImplicit false

/-! # Transcripts of signing

What the executions of the signing procedure look like from outside. `Transcript` lists the complete
ones with their outcomes, one constructor for each way to end; `Permits` tells which exchanges may
follow on which, also in an execution that has not come to its end. The procedure obeys both
(`obeys_procedure`); this is the only place where its definition is looked at.
-/

namespace BlindSign

namespace Exchange

/-! ## Kinds of exchanges -/

def asksQuota : Exchange → Bool
  | ⟨.readQuota _ _, _⟩ => true
  | _ => false

/-- The quota of an account was asked for, and it was not exhausted or could not be read. -/
def entitles (account : Account) : Exchange → Bool
  | ⟨.readQuota a _, reply⟩ => decide (a = account) && !reply.toOption.any Quota.isExhausted
  | _ => false

def looksUp : Exchange → Bool
  | ⟨.findRecord _, _⟩ => true
  | _ => false

/-- The record with a fingerprint was looked for, and it was not there or could not be read. -/
def findsNew (fingerprint : Fingerprint) : Exchange → Bool
  | ⟨.findRecord f, reply⟩ => decide (f = fingerprint) && !reply.toOption.getD false
  | _ => false

def enters : Exchange → Bool
  | ⟨.addRecord _, _⟩ => true
  | _ => false

def counts : Exchange → Bool
  | ⟨.addCount _, _⟩ => true
  | _ => false

end Exchange

namespace Signing

/-- The exchanges of two calls that are made at once, in the order of their replies. -/
def BothWays (a b : Exchange) (es : List Exchange) : Prop := es = [a, b] ∨ es = [b, a]

theorem BothWays.any {a b : Exchange} {es : List Exchange} (h : BothWays a b es)
    (test : Exchange → Bool) : es.any test = (test a || test b) := by
  rcases h with rfl | rfl
  · simp
  · simp [Bool.or_comm]

/-! ## Order -/

/-- Whether an exchange may follow on those of `past`. Quota and record are asked for once. Nothing
is recorded or counted but after the quota left a query and the record was not found, and that
once. -/
def Permits (past : List Exchange) (e : Exchange) : Prop :=
  match e.call with
  | .readQuota _ _ => past.any Exchange.asksQuota = false
  | .findRecord _ => past.any Exchange.looksUp = false
  | .addRecord request =>
      past.any (Exchange.findsNew request.fingerprint) = true ∧
        past.any Exchange.enters = false
  | .addCount account =>
      past.any (Exchange.entitles account) = true ∧
        (∃ fingerprint, past.any (Exchange.findsNew fingerprint) = true) ∧
          past.any Exchange.counts = false
  | _ => True

/-! ## Transcripts -/

/-- The exchanges that read quota and height for a request. -/
def Reads (request : Admitted) (quota : Except QuotaFault Quota)
    (height : Except ChainFault Int64) (es : List Exchange) : Prop :=
  BothWays ⟨.readQuota request.account request.phoneHash, quota⟩ ⟨.readHeight, height⟩ es

/-- The exchanges that record a request and count its query. -/
def Writes (request : Admitted) (recorded counted : Except StoreFault Unit)
    (es : List Exchange) : Prop :=
  BothWays ⟨.addRecord request, recorded⟩ ⟨.addCount request.account, counted⟩ es

/-- What follows on the reading of a quota that leaves a query, and the outcome. -/
inductive Completion (request : Admitted) (quota : Except QuotaFault Quota)
    (height : Except ChainFault Int64) : List Exchange → Except Refusal Grant → Prop
  | keyUnavailable (fault : KeyFault) :
      Completion request quota height [⟨.loadKey, .error fault⟩] (.error (.keyUnavailable fault))
  | unsigned (share : KeyShare) (fault : EngineFault) :
      Completion request quota height
        [⟨.loadKey, .ok share⟩, ⟨.sign request.query share, .error fault⟩]
        (.error (.unsigned fault))
  | duplicate (share : KeyShare) (signature : PartialSignature) :
      Completion request quota height
        [⟨.loadKey, .ok share⟩, ⟨.sign request.query share, .ok signature⟩,
          ⟨.findRecord request.fingerprint, .ok true⟩]
        (.ok ⟨signature, reportedQuota quota.toOption false, height.toOption.getD unknown,
          (Standing.ofReplies quota height).warnings ++ [.duplicate]⟩)
  | entered (share : KeyShare) (signature : PartialSignature) {found : Except StoreFault Bool}
      {recorded counted : Except StoreFault Unit} {writes : List Exchange}
      (hf : found ≠ .ok true) (hw : Writes request recorded counted writes) :
      Completion request quota height
        (⟨.loadKey, .ok share⟩ :: ⟨.sign request.query share, .ok signature⟩ ::
          ⟨.findRecord request.fingerprint, found⟩ :: writes)
        (.ok ⟨signature, reportedQuota quota.toOption counted.isOk,
          height.toOption.getD unknown,
          (Standing.ofReplies quota height).warnings ++
            ((if recorded.isOk then [] else [.notRecorded]) ++
              (if counted.isOk then [] else [.notCounted]))⟩)

/-- The complete executions for a submission, with their outcomes. -/
inductive Transcript (limits : Limits) (now : Int64) (s : Submission) :
    List Exchange → Except Refusal Grant → Prop
  | invalid {fault : RequestFault}
      (hs : Admitted.ofRequest limits now s.body.length s.request = .error fault) :
      Transcript limits now s [] (.error (.invalid fault))
  | unauthenticated {request : Admitted}
      (hs : Admitted.ofRequest limits now s.body.length s.request = .ok request) :
      Transcript limits now s [⟨.authenticate request s.body s.authorization, false⟩]
        (.error .unauthenticated)
  | exhausted {request : Admitted} {quota : Quota} {height : Except ChainFault Int64}
      {reads : List Exchange}
      (hs : Admitted.ofRequest limits now s.body.length s.request = .ok request)
      (hr : Reads request (.ok quota) height reads) (hq : quota.isExhausted = true) :
      Transcript limits now s (⟨.authenticate request s.body s.authorization, true⟩ :: reads)
        (.error (.exhausted quota (height.toOption.getD unknown)))
  | passed {request : Admitted} {quota : Except QuotaFault Quota}
      {height : Except ChainFault Int64} {reads rest : List Exchange}
      {outcome : Except Refusal Grant}
      (hs : Admitted.ofRequest limits now s.body.length s.request = .ok request)
      (hr : Reads request quota height reads)
      (hq : quota.toOption.any Quota.isExhausted = false)
      (hc : Completion request quota height rest outcome) :
      Transcript limits now s
        (⟨.authenticate request s.body s.authorization, true⟩ :: (reads ++ rest)) outcome

theorem Standing.exhausted?_of_isExhausted {quota : Quota} (height : Except ChainFault Int64)
    (hq : quota.isExhausted = true) :
    (Standing.ofReplies (.ok quota) height).exhausted? = some quota :=
  Option.filter_eq_some_iff.2 ⟨rfl, hq⟩

theorem Standing.exhausted?_eq_none {quota : Except QuotaFault Quota}
    (height : Except ChainFault Int64) (hq : quota.toOption.any Quota.isExhausted = false) :
    (Standing.ofReplies quota height).exhausted? = none := by
  cases quota with
  | error fault => rfl
  | ok q =>
      refine Option.filter_eq_none_iff.2 ?_
      rintro _ ⟨rfl⟩
      have hq' : q.isExhausted = false := hq
      simp [hq']

/-- The gates of signing and what lies behind them. -/
def gates (limits : Limits) (now : Int64) (s : Submission) : Procedure (Except Refusal Grant) :=
  match Admitted.ofRequest limits now s.body.length s.request with
  | .error fault => return .error (.invalid fault)
  | .ok request => do
    let authentic ← Procedure.timed .authentication
      (Procedure.asking (.authenticate request s.body s.authorization))
    if authentic then grant request else return .error .unauthenticated

/-- Before its gates signing only notes whether the session is missing. -/
theorem procedure_eq (limits : Limits) (now : Int64) (s : Submission) :
    procedure limits now s =
      if s.request.sessionId.isNone then .note .missingSession (gates limits now s)
      else gates limits now s := rfl

/-- What is not admitted is refused, and nobody is asked about it. -/
theorem endsAtOnce_procedure {limits : Limits} {now : Int64} {s : Submission}
    {fault : RequestFault}
    (h : Admitted.ofRequest limits now s.body.length s.request = .error fault) :
    (procedure limits now s).EndsAtOnce (.error (.invalid fault)) := by
  have hgates : gates limits now s = return .error (.invalid fault) := by
    unfold gates
    rw [h]
  rw [procedure_eq, hgates]
  split
  · exact .note .missingSession (.finish _)
  · exact .finish _

/-! ## The procedure obeys -/

section

variable {past : List Exchange} {request : Admitted}

theorem obeys_askingBoth {may : List Exchange → Exchange → Prop} {first second : Call}
    {ends : List Exchange → first.Reply × second.Reply → Prop}
    (h₁ : ∀ x, may past ⟨first, x⟩ ∧ ∀ y, may (past ++ [⟨first, x⟩]) ⟨second, y⟩)
    (h₂ : ∀ y, may past ⟨second, y⟩ ∧ ∀ x, may (past ++ [⟨second, y⟩]) ⟨first, x⟩)
    (h : ∀ x y es, BothWays ⟨first, x⟩ ⟨second, y⟩ es → ends (past ++ es) (x, y)) :
    (Procedure.askingBoth first second).Obeys may ends past := by
  refine ⟨fun x => ⟨(h₁ x).1, fun y => ⟨(h₁ x).2 y, ?_⟩⟩,
    fun y => ⟨(h₂ y).1, fun x => ⟨(h₂ y).2 x, ?_⟩⟩⟩
  · have := h x y _ (.inl rfl)
    rwa [List.append_assoc]
  · have := h x y _ (.inr rfl)
    rwa [List.append_assoc]

theorem obeys_readStanding {ends : List Exchange → Standing → Prop}
    (hp : past.any Exchange.asksQuota = false)
    (h : ∀ quota height reads, Reads request quota height reads →
      ends (past ++ reads) (.ofReplies quota height)) :
    (readStanding request).Obeys Permits ends past := by
  unfold readStanding
  simp only [Procedure.obeys_bind, Procedure.obeys_timed, Procedure.obeys_pure]
  refine obeys_askingBoth (fun x => ⟨hp, fun y => trivial⟩) (fun y => ⟨trivial, fun x => ?_⟩) ?_
  · simp [Permits, hp, Exchange.asksQuota]
  · intro quota height reads hr
    split
    · exact h quota height reads hr
    · exact h quota height reads hr

theorem obeys_produceSignature {query : BlindedQuery}
    {ends : List Exchange → Except Refusal PartialSignature → Prop}
    (hk : ∀ fault, ends (past ++ [⟨.loadKey, .error fault⟩]) (.error (.keyUnavailable fault)))
    (hs : ∀ share fault,
      ends (past ++ [⟨.loadKey, .ok share⟩, ⟨.sign query share, .error fault⟩])
        (.error (.unsigned fault)))
    (h : ∀ share signature,
      ends (past ++ [⟨.loadKey, .ok share⟩, ⟨.sign query share, .ok signature⟩])
        (.ok signature)) :
    (produceSignature query).Obeys Permits ends past := by
  unfold produceSignature
  simp only [Procedure.obeys_bind, Procedure.obeys_timed]
  intro loaded
  refine ⟨trivial, ?_⟩
  cases loaded with
  | error fault => exact hk fault
  | ok share =>
      intro signed
      refine ⟨trivial, ?_⟩
      rw [List.append_assoc]
      cases signed with
      | error fault => exact hs share fault
      | ok signature => exact h share signature

theorem obeys_enter {ends : List Exchange → Entry → Prop}
    (hn : past.any (Exchange.findsNew request.fingerprint) = true)
    (ht : past.any (Exchange.entitles request.account) = true)
    (he : past.any Exchange.enters = false) (hc : past.any Exchange.counts = false)
    (h : ∀ recorded counted writes, Writes request recorded counted writes →
      ends (past ++ writes) ⟨(if recorded.isOk then [] else [.notRecorded]) ++
        (if counted.isOk then [] else [.notCounted]), counted.isOk⟩) :
    (enter request).Obeys Permits ends past := by
  unfold enter
  simp only [Procedure.obeys_bind, Procedure.obeys_timed, Procedure.obeys_pure]
  refine obeys_askingBoth (fun x => ⟨⟨hn, he⟩, fun y => ?_⟩)
    (fun y => ⟨⟨ht, ⟨_, hn⟩, hc⟩, fun x => ?_⟩) h
  · refine ⟨?_, ⟨request.fingerprint, ?_⟩, ?_⟩
    · simp [ht]
    · simp [hn]
    · simp [hc, Exchange.counts]
  · refine ⟨?_, ?_⟩
    · simp [hn]
    · simp [he, Exchange.enters]

theorem obeys_enterOnce {ends : List Exchange → Entry → Prop}
    (hl : past.any Exchange.looksUp = false)
    (ht : past.any (Exchange.entitles request.account) = true)
    (he : past.any Exchange.enters = false) (hc : past.any Exchange.counts = false)
    (hd : ends (past ++ [⟨.findRecord request.fingerprint, .ok true⟩]) ⟨[.duplicate], false⟩)
    (h : ∀ found recorded counted writes, found ≠ .ok true →
      Writes request recorded counted writes →
      ends (past ++ ⟨.findRecord request.fingerprint, found⟩ :: writes)
        ⟨(if recorded.isOk then [] else [.notRecorded]) ++
          (if counted.isOk then [] else [.notCounted]), counted.isOk⟩) :
    (enterOnce request).Obeys Permits ends past := by
  unfold enterOnce
  rw [Procedure.obeys_bind]
  intro found
  refine ⟨hl, ?_⟩
  -- a lookup that failed and one that found nothing go on alike
  have hnew : found ≠ .ok true →
      (enter request).Obeys Permits ends (past ++ [⟨.findRecord request.fingerprint, found⟩]) := by
    intro hf
    have hfound : found.toOption.getD false = false := by
      cases found with
      | error fault => rfl
      | ok b =>
          cases b with
          | false => rfl
          | true => exact absurd rfl hf
    refine obeys_enter ?_ ?_ ?_ ?_ ?_
    · simp [Exchange.findsNew, hfound]
    · simp [ht]
    · simp [he, Exchange.enters]
    · simp [hc, Exchange.counts]
    · intro recorded counted writes hw
      rw [List.append_assoc]
      exact h found recorded counted writes hf hw
  cases found with
  | error fault => exact hnew (by simp)
  | ok b =>
      cases b with
      | false => exact hnew (by simp)
      | true => exact hd

theorem obeys_grant {ends : List Exchange → Except Refusal Grant → Prop}
    (ha : past.any Exchange.asksQuota = false) (hl : past.any Exchange.looksUp = false)
    (he : past.any Exchange.enters = false) (hc : past.any Exchange.counts = false)
    (hx : ∀ quota height reads, Reads request (.ok quota) height reads →
      quota.isExhausted = true →
      ends (past ++ reads) (.error (.exhausted quota (height.toOption.getD unknown))))
    (h : ∀ quota height reads rest outcome, Reads request quota height reads →
      quota.toOption.any Quota.isExhausted = false →
      Completion request quota height rest outcome → ends (past ++ reads ++ rest) outcome) :
    (grant request).Obeys Permits ends past := by
  unfold grant
  rw [Procedure.obeys_bind]
  refine obeys_readStanding ha ?_
  intro quota height reads hr
  cases hq : quota.toOption.any Quota.isExhausted with
  | true =>
      cases quota with
      | error fault => cases hq
      | ok q =>
          rw [Standing.exhausted?_of_isExhausted height hq]
          exact hx q height reads hr hq
  | false =>
      rw [Standing.exhausted?_eq_none height hq, Procedure.obeys_bind]
      -- one goal for each way a completion can end
      refine obeys_produceSignature (fun fault => ?_) (fun share fault => ?_)
        fun share signature => ?_
      · exact h _ _ _ _ _ hr hq (.keyUnavailable fault)
      · exact h _ _ _ _ _ hr hq (.unsigned share fault)
      · rw [Procedure.obeys_bind]
        refine obeys_enterOnce ?_ ?_ ?_ ?_ ?_ ?_
        · simp [hl, hr.any, Exchange.looksUp]
        · simp [hr.any, Exchange.entitles, hq]
        · simp [he, hr.any, Exchange.enters]
        · simp [hc, hr.any, Exchange.counts]
        · rw [List.append_assoc]
          exact h _ _ _ _ _ hr hq (.duplicate share signature)
        · intro found recorded counted writes hf hw
          rw [List.append_assoc]
          exact h _ _ _ _ _ hr hq (.entered share signature hf hw)

end

/-- **What signing does.** Every exchange of the signing procedure is permitted after those before
it, and every complete execution is listed as a transcript. -/
theorem obeys_procedure (limits : Limits) (now : Int64) (s : Submission) :
    (procedure limits now s).Obeys Permits (Transcript limits now s) [] := by
  have hrest : (gates limits now s).Obeys Permits (Transcript limits now s) [] := by
    unfold gates
    cases hs : Admitted.ofRequest limits now s.body.length s.request with
    | error fault => exact .invalid hs
    | ok request =>
        rw [Procedure.obeys_bind, Procedure.obeys_timed]
        intro authentic
        refine ⟨trivial, ?_⟩
        cases authentic with
        | false => exact .unauthenticated hs
        | true =>
            refine obeys_grant rfl rfl rfl rfl ?_ ?_
            · intro quota height reads hr hq
              exact .exhausted hs hr hq
            · intro quota height reads rest outcome hr hq hc
              rw [List.append_assoc]
              show Transcript limits now s (_ :: (reads ++ rest)) outcome
              exact .passed hs hr hq hc
  -- noting that the session is missing is no exchange
  rw [procedure_eq]
  split
  · exact hrest
  · exact hrest

/-! ## Every transcript is an execution -/

section

open Procedure

variable {request : Admitted}

theorem BothWays.yields {first second : Call} {x : first.Reply} {y : second.Reply}
    {es : List Exchange} (h : BothWays ⟨first, x⟩ ⟨second, y⟩ es) :
    (askingBoth first second).Yields es (x, y) := by
  rcases h with rfl | rfl
  · exact .head (.askFirst first second _ x) (.head (.ask second _ y) (.refl _))
  · exact .head (.askSecond first second _ y) (.head (.ask first _ x) (.refl _))

theorem Reads.yields {quota : Except QuotaFault Quota} {height : Except ChainFault Int64}
    {reads : List Exchange} (h : Reads request quota height reads) :
    (readStanding request).Yields reads (.ofReplies quota height) := by
  have hb : (askingBoth (.readQuota request.account request.phoneHash) .readHeight >>=
      fun replies => return Standing.ofReplies replies.1 replies.2).Yields (reads ++ [])
      (.ofReplies quota height) := (BothWays.yields h).bind (.refl _)
  rw [List.append_nil] at hb
  rw [← List.append_nil reads]
  refine (hb.timed .quotaResolution).bind ?_
  dsimp only
  split
  · exact (yields_noting .chainError).bind (.refl _)
  · exact .refl _

theorem yields_keyUnavailable (query : BlindedQuery) (fault : KeyFault) :
    (produceSignature query).Yields [⟨.loadKey, .error fault⟩]
      (.error (.keyUnavailable fault)) := by
  unfold produceSignature
  refine Yields.timed ?_ .signature
  exact (yields_asking .loadKey (.error fault)).bind (.refl _)

theorem yields_sign (query : BlindedQuery) (share : KeyShare)
    (signed : Except EngineFault PartialSignature) :
    (produceSignature query).Yields [⟨.loadKey, .ok share⟩, ⟨.sign query share, signed⟩]
      (signed.mapError .unsigned) := by
  unfold produceSignature
  refine Yields.timed ?_ .signature
  refine (yields_asking .loadKey (.ok share)).bind ?_
  refine (yields_asking (.sign query share) signed).bind ?_
  cases signed with
  | error fault => exact .refl _
  | ok signature => exact .refl _

theorem Writes.yields {recorded counted : Except StoreFault Unit} {writes : List Exchange}
    (h : Writes request recorded counted writes) :
    (enter request).Yields writes ⟨(if recorded.isOk then [] else [.notRecorded]) ++
      (if counted.isOk then [] else [.notCounted]), counted.isOk⟩ := by
  rw [← List.append_nil writes]
  exact ((BothWays.yields h).timed .persistence).bind (.refl _)

theorem yields_duplicate (request : Admitted) :
    (enterOnce request).Yields [⟨.findRecord request.fingerprint, .ok true⟩]
      ⟨[.duplicate], false⟩ :=
  (yields_asking (.findRecord request.fingerprint) (.ok true)).bind
    ((yields_noting .duplicate).bind (.refl _))

theorem yields_entered {found : Except StoreFault Bool} {writes : List Exchange} {entry : Entry}
    (hf : found ≠ .ok true) (h : (enter request).Yields writes entry) :
    (enterOnce request).Yields (⟨.findRecord request.fingerprint, found⟩ :: writes) entry := by
  refine (yields_asking (.findRecord request.fingerprint) found).bind ?_
  cases found with
  | error fault => exact h
  | ok b =>
      cases b with
      | false => exact h
      | true => exact absurd rfl hf

theorem Completion.yields {quota : Except QuotaFault Quota} {height : Except ChainFault Int64}
    {reads rest : List Exchange} {outcome : Except Refusal Grant}
    (hr : Reads request quota height reads) (hq : quota.toOption.any Quota.isExhausted = false)
    (hc : Completion request quota height rest outcome) :
    (grant request).Yields (reads ++ rest) outcome := by
  refine hr.yields.bind ?_
  rw [Standing.exhausted?_eq_none height hq]
  cases hc with
  | keyUnavailable fault => exact (yields_keyUnavailable request.query fault).bind (.refl _)
  | unsigned share fault =>
      exact (yields_sign request.query share (.error fault)).bind (.refl _)
  | duplicate share signature =>
      refine (yields_sign request.query share (.ok signature)).bind ?_
      exact (yields_duplicate request).bind (.refl _)
  | entered share signature hf hw =>
      refine (yields_sign request.query share (.ok signature)).bind ?_
      rw [← List.append_nil (_ :: _)]
      exact (yields_entered hf hw.yields).bind (.refl _)

theorem Transcript.yields {limits : Limits} {now : Int64} {s : Submission}
    {trace : List Exchange} {outcome : Except Refusal Grant}
    (h : Transcript limits now s trace outcome) :
    (procedure limits now s).Yields trace outcome := by
  -- noting that the session is missing adds no exchange
  have hrest : (gates limits now s).Yields trace outcome := by
    unfold gates
    cases h with
    | invalid hs =>
        rw [hs]
        exact .refl _
    | @unauthenticated request hs =>
        rw [hs]
        exact ((yields_asking (.authenticate request s.body s.authorization) false).timed
          .authentication).bind (.refl _)
    | @exhausted request quota height reads hs hr hq =>
        rw [hs]
        refine ((yields_asking (.authenticate request s.body s.authorization) true).timed
          .authentication).bind ?_
        rw [← List.append_nil reads]
        refine hr.yields.bind ?_
        rw [Standing.exhausted?_of_isExhausted height hq]
        exact .refl _
    | @passed request quota height reads rest outcome hs hr hq hc =>
        rw [hs]
        exact ((yields_asking (.authenticate request s.body s.authorization) true).timed
          .authentication).bind (hc.yields hr hq)
  rw [procedure_eq]
  split
  · exact .head (.note .missingSession _) hrest
  · exact hrest

/-- Transcripts are the executions of signing. -/
theorem yields_iff {limits : Limits} {now : Int64} {s : Submission} {trace : List Exchange}
    {outcome : Except Refusal Grant} :
    (procedure limits now s).Yields trace outcome ↔ Transcript limits now s trace outcome :=
  ⟨(obeys_procedure limits now s).yields, Transcript.yields⟩

end

end Signing

end BlindSign

import BlindSign.Proofs.Deployment
import BlindSign.Proofs.Ledger
import BlindSign.Proofs.Transcript

set_option autoImplicit false

/-! # The outcome of signing

What becomes of a submission if it is known what each call would be answered. The outcome is then
settled, whichever of two calls made at once is answered first (`Procedure.yields_iff_course`).

It is a grant just if all gates open: admission, authentication, the quota if it could be read, the
key share, and the engine. Otherwise the first gate that stays shut names the refusal. No other
reply matters to whether a submission is granted; the others only show in what the grant reports.
-/

namespace BlindSign

/-! ## Given replies -/

/-- The replies in a trace are those that a function gives. -/
def AnsweredBy (replies : (call : Call) → call.Reply) (trace : List Exchange) : Prop :=
  ∀ e ∈ trace, e.reply = replies e.call

section

variable {replies : (call : Call) → call.Reply}

@[simp] theorem answeredBy_nil : AnsweredBy replies [] := by
  intro e he
  cases he

@[simp] theorem answeredBy_cons {call : Call} {reply : call.Reply} {trace : List Exchange} :
    AnsweredBy replies (⟨call, reply⟩ :: trace) ↔
      reply = replies call ∧ AnsweredBy replies trace := by
  unfold AnsweredBy
  simp only [List.forall_mem_cons]

@[simp] theorem answeredBy_append {es fs : List Exchange} :
    AnsweredBy replies (es ++ fs) ↔ AnsweredBy replies es ∧ AnsweredBy replies fs := by
  unfold AnsweredBy
  simp only [List.forall_mem_append]

theorem answeredBy_map (calls : List Call) :
    AnsweredBy replies (calls.map fun call => ⟨call, replies call⟩) := by
  intro e he
  obtain ⟨call, _, rfl⟩ := List.mem_map.1 he
  rfl

namespace Procedure

variable {α : Type} {p q : Procedure α} {es trace : List Exchange}

/-- A step with the given replies leaves a procedure that comes to the same result. -/
theorem Step.course_eq (h : p.Step es q) (hr : AnsweredBy replies es) :
    (q.course replies).result = (p.course replies).result := by
  cases h with
  | note event next => rfl
  | ask call next reply =>
      obtain rfl : reply = replies call := (answeredBy_cons.1 hr).1
      rfl
  | askFirst first second next reply =>
      obtain rfl : reply = replies first := (answeredBy_cons.1 hr).1
      rfl
  | askSecond first second next reply =>
      obtain rfl : reply = replies second := (answeredBy_cons.1 hr).1
      rfl

theorem Reaches.course_eq (h : p.Reaches trace q) (hr : AnsweredBy replies trace) :
    (q.course replies).result = (p.course replies).result := by
  -- by induction on the steps: none of them changes what the rest comes to
  induction h with
  | refl p => rfl
  | head hstep _ ih =>
      obtain ⟨hfirst, hrest⟩ := answeredBy_append.1 hr
      exact (ih hrest).trans (hstep.course_eq hfirst)

/-- With given replies a procedure has an execution, and all its executions end with one result. -/
theorem yields_iff_course (p : Procedure α) (a : α) :
    (∃ trace, p.Yields trace a ∧ AnsweredBy replies trace) ↔ a = (p.course replies).result := by
  constructor
  · rintro ⟨trace, hy, hr⟩
    exact Reaches.course_eq hy hr
  · rintro rfl
    exact ⟨_, yields_course replies p, answeredBy_map _⟩

end Procedure

end

namespace Signing

variable {limits : Limits} {now : Int64} {s : Submission} {request : Admitted}
  {replies : (call : Call) → call.Reply} {trace : List Exchange}

theorem BothWays.answeredBy {first second : Call} {x : first.Reply} {y : second.Reply}
    {es : List Exchange} (h : BothWays ⟨first, x⟩ ⟨second, y⟩ es) :
    AnsweredBy replies es ↔ x = replies first ∧ y = replies second := by
  rcases h with rfl | rfl
  · simp
  · simp [and_comm]

/-! ## The gates -/

/-- A request passes the gates before its signing: its caller is authentic, and its quota leaves a
query, if it could be read. -/
structure Passes (replies : (call : Call) → call.Reply) (s : Submission) (request : Admitted) :
    Prop where
  authentic : replies (.authenticate request s.body s.authorization) = true
  unspent : ∀ quota, replies (.readQuota request.account request.phoneHash) = .ok quota →
    quota.performed < quota.total

/-- The refusal of a submission, by the first gate that it does not pass. -/
inductive Refuses (limits : Limits) (now : Int64) (replies : (call : Call) → call.Reply)
    (s : Submission) : Refusal → Prop
  | invalid {fault : RequestFault}
      (hs : Admitted.ofRequest limits now s.body.length s.request = .error fault) :
      Refuses limits now replies s (.invalid fault)
  | unauthenticated {request : Admitted}
      (hs : Admitted.ofRequest limits now s.body.length s.request = .ok request)
      (ha : replies (.authenticate request s.body s.authorization) = false) :
      Refuses limits now replies s .unauthenticated
  | exhausted {request : Admitted} {quota : Quota}
      (hs : Admitted.ofRequest limits now s.body.length s.request = .ok request)
      (ha : replies (.authenticate request s.body s.authorization) = true)
      (hq : replies (.readQuota request.account request.phoneHash) = .ok quota)
      (hx : quota.total ≤ quota.performed) :
      Refuses limits now replies s
        (.exhausted quota ((replies .readHeight).toOption.getD unknown))
  | keyUnavailable {request : Admitted} {fault : KeyFault}
      (hs : Admitted.ofRequest limits now s.body.length s.request = .ok request)
      (hp : Passes replies s request) (hk : replies .loadKey = .error fault) :
      Refuses limits now replies s (.keyUnavailable fault)
  | unsigned {request : Admitted} {share : KeyShare} {fault : EngineFault}
      (hs : Admitted.ofRequest limits now s.body.length s.request = .ok request)
      (hp : Passes replies s request) (hk : replies .loadKey = .ok share)
      (he : replies (.sign request.query share) = .error fault) :
      Refuses limits now replies s (.unsigned fault)

/-- What the procedure asks of a quota is that it leaves a query, if it was read. -/
theorem any_isExhausted_iff {quota : Except QuotaFault Quota} :
    quota.toOption.any Quota.isExhausted = false ↔
      ∀ q, quota = .ok q → q.performed < q.total := by
  cases quota with
  | error fault =>
      constructor
      · intro _ q hq
        cases hq
      · intro _
        rfl
  | ok quota =>
      have hleft : quota.isExhausted = false ↔ quota.performed < quota.total := by
        unfold Quota.isExhausted
        rw [decide_eq_false_iff_not, Int64.not_le]
      constructor
      · intro h q hq
        obtain rfl := Except.ok.inj hq
        exact hleft.1 h
      · intro h
        exact hleft.2 (h quota rfl)

/-! ## From an execution to the gates -/

/-- A call that goes on after reading its quota has passed the gates before its signing. -/
theorem Passes.of_answeredBy {quota : Except QuotaFault Quota} {height : Except ChainFault Int64}
    {reads rest : List Exchange} (hreads : Reads request quota height reads)
    (hq : quota.toOption.any Quota.isExhausted = false)
    (hr : AnsweredBy replies
      (⟨.authenticate request s.body s.authorization, true⟩ :: (reads ++ rest))) :
    Passes replies s request ∧ AnsweredBy replies rest := by
  simp only [answeredBy_cons, answeredBy_append, hreads.answeredBy] at hr
  obtain ⟨hauthentic, ⟨hquota, _⟩, hrest⟩ := hr
  refine ⟨⟨hauthentic.symm, ?_⟩, hrest⟩
  rw [← hquota]
  exact any_isExhausted_iff.1 hq

/-- What is granted has passed all gates, and its signature is that of the engine. -/
theorem Transcript.passes {g : Grant} (h : Transcript limits now s trace (.ok g))
    (hr : AnsweredBy replies trace) :
    ∃ request, Admitted.ofRequest limits now s.body.length s.request = .ok request ∧
      Passes replies s request ∧ ∃ share, replies .loadKey = .ok share ∧
        replies (.sign request.query share) = .ok g.signature := by
  cases h with
  | @passed request quota height reads rest outcome hs hreads hq hc =>
      obtain ⟨hpasses, hrest⟩ := Passes.of_answeredBy hreads hq hr
      -- both completions with a grant start with the key share and the engine
      cases hc with
      | duplicate share signature =>
          simp only [answeredBy_cons] at hrest
          exact ⟨request, hs, hpasses, share, hrest.1.symm, hrest.2.1.symm⟩
      | entered share signature hf hw =>
          simp only [answeredBy_cons] at hrest
          exact ⟨request, hs, hpasses, share, hrest.1.symm, hrest.2.1.symm⟩

/-- What is refused is refused by the first gate that it does not pass. -/
theorem Transcript.refuses {refusal : Refusal} (h : Transcript limits now s trace (.error refusal))
    (hr : AnsweredBy replies trace) : Refuses limits now replies s refusal := by
  cases h with
  | invalid hs => exact .invalid hs
  | unauthenticated hs =>
      rw [answeredBy_cons] at hr
      exact .unauthenticated hs hr.1.symm
  | exhausted hs hreads hx =>
      rw [answeredBy_cons, hreads.answeredBy] at hr
      obtain ⟨hauthentic, hquota, rfl⟩ := hr
      exact .exhausted hs hauthentic.symm hquota.symm (of_decide_eq_true hx)
  | @passed request quota height reads rest outcome hs hreads hq hc =>
      obtain ⟨hpasses, hrest⟩ := Passes.of_answeredBy hreads hq hr
      cases hc with
      | keyUnavailable fault =>
          rw [answeredBy_cons] at hrest
          exact .keyUnavailable hs hpasses hrest.1.symm
      | unsigned share fault =>
          simp only [answeredBy_cons] at hrest
          exact .unsigned hs hpasses hrest.1.symm hrest.2.1.symm

/-! ## From the gates to an execution -/

/-- The reading of quota and height with given replies. -/
theorem exists_reads (replies : (call : Call) → call.Reply) (request : Admitted) :
    ∃ reads, Reads request (replies (.readQuota request.account request.phoneHash))
      (replies .readHeight) reads ∧ AnsweredBy replies reads := by
  refine ⟨_, .inl rfl, ?_⟩
  simp

/-- What has passed the gates before its signing goes on to its completion. -/
theorem Passes.transcript {rest : List Exchange} {outcome : Except Refusal Grant}
    (h : Passes replies s request)
    (hs : Admitted.ofRequest limits now s.body.length s.request = .ok request)
    (hc : Completion request (replies (.readQuota request.account request.phoneHash))
      (replies .readHeight) rest outcome)
    (hr : AnsweredBy replies rest) :
    ∃ trace, Transcript limits now s trace outcome ∧ AnsweredBy replies trace := by
  obtain ⟨reads, hreads, hanswered⟩ := exists_reads replies request
  refine ⟨_, .passed hs hreads (any_isExhausted_iff.2 h.unspent) hc, ?_⟩
  rw [answeredBy_cons, answeredBy_append]
  exact ⟨h.authentic.symm, hanswered, hr⟩

/-- What has passed all gates is granted, whether or not its record is found. -/
theorem Passes.exists_granted {share : KeyShare} {signature : PartialSignature}
    (h : Passes replies s request)
    (hs : Admitted.ofRequest limits now s.body.length s.request = .ok request)
    (hk : replies .loadKey = .ok share)
    (he : replies (.sign request.query share) = .ok signature) :
    ∃ trace g, Transcript limits now s trace (.ok g) ∧ AnsweredBy replies trace ∧
      g.signature = signature := by
  -- the grant is made either way; the record decides only whether the request is entered
  by_cases hf : replies (.findRecord request.fingerprint) = .ok true
  · obtain ⟨trace, ht, hr⟩ := h.transcript hs (.duplicate share signature)
      (by simp only [answeredBy_cons, answeredBy_nil, hk, he, hf, and_self])
    exact ⟨trace, _, ht, hr, rfl⟩
  · have hw : Writes request (replies (.addRecord request)) (replies (.addCount request.account))
        [⟨.addRecord request, replies (.addRecord request)⟩,
          ⟨.addCount request.account, replies (.addCount request.account)⟩] := .inl rfl
    obtain ⟨trace, ht, hr⟩ := h.transcript hs (.entered share signature hf hw)
      (by simp only [answeredBy_cons, answeredBy_nil, hk, he, and_self])
    exact ⟨trace, _, ht, hr, rfl⟩

theorem Refuses.transcript {refusal : Refusal} (h : Refuses limits now replies s refusal) :
    ∃ trace, Transcript limits now s trace (.error refusal) ∧ AnsweredBy replies trace := by
  cases h with
  | invalid hs => exact ⟨_, .invalid hs, answeredBy_nil⟩
  | unauthenticated hs ha =>
      refine ⟨_, .unauthenticated hs, ?_⟩
      simp only [answeredBy_cons, answeredBy_nil, ha, and_self]
  | @exhausted request quota hs ha hq hx =>
      obtain ⟨reads, hreads, hanswered⟩ := exists_reads replies request
      rw [hq] at hreads
      refine ⟨_, .exhausted hs hreads (decide_eq_true hx), ?_⟩
      rw [answeredBy_cons]
      exact ⟨ha.symm, hanswered⟩
  | @keyUnavailable request fault hs hp hk =>
      refine hp.transcript hs (.keyUnavailable fault) ?_
      simp only [answeredBy_cons, answeredBy_nil, hk, and_self]
  | @unsigned request share fault hs hp hk he =>
      refine hp.transcript hs (.unsigned share fault) ?_
      simp only [answeredBy_cons, answeredBy_nil, hk, he, and_self]

/-! ## Granted or refused -/

/-- With given replies the outcomes of signing are those of its transcripts. -/
theorem result_eq_iff {outcome : Except Refusal Grant} :
    ((procedure limits now s).course replies).result = outcome ↔
      ∃ trace, Transcript limits now s trace outcome ∧ AnsweredBy replies trace := by
  rw [eq_comm, ← Procedure.yields_iff_course]
  simp only [yields_iff]

/-- **Granted or refused.** With given replies all executions for a submission have one outcome. It
is a grant just if the submission is admitted and authentic, its quota leaves a query or could not
be read, there is a key share and the engine signs; the signature is what the engine made of the
query and the share. Otherwise it is the refusal by the first of these gates that stays shut. An
exhausted quota is reported as it was read, with the height that was read, or -1 without one. -/
theorem outcome_of_replies (limits : Limits) (now : Int64) (s : Submission)
    (replies : (call : Call) → call.Reply) :
    let result := ((procedure limits now s).course replies).result
    (∀ outcome, (∃ trace, (procedure limits now s).Yields trace outcome ∧
      AnsweredBy replies trace) ↔ outcome = result) ∧
    (∀ signature, (∃ g, result = .ok g ∧ g.signature = signature) ↔
      ∃ request, Admitted.ofRequest limits now s.body.length s.request = .ok request ∧
        Passes replies s request ∧ ∃ share, replies .loadKey = .ok share ∧
          replies (.sign request.query share) = .ok signature) ∧
    (∀ refusal, result = .error refusal ↔ Refuses limits now replies s refusal) ∧
    (∀ quota height, result = .error (.exhausted quota height) →
      ∃ request, Admitted.ofRequest limits now s.body.length s.request = .ok request ∧
        replies (.readQuota request.account request.phoneHash) = .ok quota ∧
        (∀ n, replies .readHeight = .ok n → height = n) ∧
        (∀ fault, replies .readHeight = .error fault → height = -1)) := by
  intro result
  -- transcripts are read in both directions: from an outcome to the gates, and back
  have hrefused : ∀ refusal, result = .error refusal ↔ Refuses limits now replies s refusal := by
    intro refusal
    constructor
    · intro h
      obtain ⟨trace, ht, hr⟩ := result_eq_iff.1 h
      exact ht.refuses hr
    · intro h
      exact result_eq_iff.2 h.transcript
  refine ⟨fun outcome => Procedure.yields_iff_course _ outcome, ?_, hrefused, ?_⟩
  · intro signature
    constructor
    · rintro ⟨g, hg, rfl⟩
      obtain ⟨trace, ht, hr⟩ := result_eq_iff.1 hg
      exact ht.passes hr
    · rintro ⟨request, hs, hp, share, hk, he⟩
      obtain ⟨trace, g, ht, hr, hg⟩ := hp.exists_granted hs hk he
      exact ⟨g, result_eq_iff.2 ⟨trace, ht, hr⟩, hg⟩
  · intro quota height h
    cases (hrefused _).1 h with
    | @exhausted request quota hs ha hq hx =>
        refine ⟨request, hs, hq, ?_, ?_⟩
        · intro n hn
          rw [hn]
          rfl
        · intro fault hfault
          rw [hfault]
          rfl

/-! ## What a grant reports -/

/-- The warnings of a grant: that quota or height could not be read, and then either that the
request is a duplicate or what of it could not be written. -/
def warningsOf (isRead isDuplicate isRecorded isCounted : Bool) : List Warning :=
  (if isRead then [] else [.chainUnread]) ++
    if isDuplicate then [.duplicate]
    else (if isRecorded then [] else [.notRecorded]) ++ (if isCounted then [] else [.notCounted])

/-- Warnings come in the order in which they are declared, and a duplicate was not to be written. -/
theorem warningsOf_ordered (isRead isDuplicate isRecorded isCounted : Bool) :
    let warnings := warningsOf isRead isDuplicate isRecorded isCounted
    warnings.Pairwise (fun v w => v.ctorIdx < w.ctorIdx) ∧ warnings.Nodup ∧
      (.duplicate ∈ warnings → .notRecorded ∉ warnings ∧ .notCounted ∉ warnings) := by
  revert isRead isDuplicate isRecorded isCounted
  decide

/-- A quota that leaves a query is reported with the query that was counted, and is still kept. -/
theorem reportedQuota_of_unspent {quota : Quota} (h : quota.performed < quota.total)
    (isCounted : Bool) :
    let reported := reportedQuota (some quota) isCounted
    reported.total = quota.total ∧
      reported.performed.toInt = quota.performed.toInt + (if isCounted then 1 else 0) ∧
      reported.performed.toInt ≤ reported.total.toInt := by
  have hlt : quota.performed.toInt < quota.total.toInt := Int64.lt_iff_toInt_lt.1 h
  cases isCounted with
  | false =>
      refine ⟨rfl, (Int.add_zero _).symm, ?_⟩
      show quota.performed.toInt ≤ quota.total.toInt
      omega
  | true =>
      have hone : (quota.performed + 1).toInt = quota.performed.toInt + 1 := toInt_add_one h
      refine ⟨rfl, hone, ?_⟩
      show (quota.performed + 1).toInt ≤ quota.total.toInt
      omega

/-- A grant in terms of the replies to its calls. -/
theorem Transcript.reports {g : Grant} (h : Transcript limits now s trace (.ok g))
    (hr : AnsweredBy replies trace) :
    ∃ request, Admitted.ofRequest limits now s.body.length s.request = .ok request ∧
      Passes replies s request ∧
      let quota := replies (.readQuota request.account request.phoneHash)
      let found := replies (.findRecord request.fingerprint)
      let counted := replies (.addCount request.account)
      g.warnings = warningsOf (quota.isOk && (replies .readHeight).isOk)
        (found.toOption == some true) (replies (.addRecord request)).isOk counted.isOk ∧
      g.quota = reportedQuota quota.toOption (found.toOption != some true && counted.isOk) := by
  obtain ⟨request', hs', hpasses, _⟩ := h.passes hr
  cases h with
  | @passed request quota height reads rest outcome hs hreads hq hc =>
      obtain rfl : request = request' := Except.ok.inj (hs.symm.trans hs')
      simp only [answeredBy_cons, answeredBy_append, hreads.answeredBy] at hr
      obtain ⟨_, ⟨rfl, rfl⟩, hrest⟩ := hr
      refine ⟨_, hs, hpasses, ?_⟩
      cases hc with
      | duplicate share signature =>
          simp only [answeredBy_cons] at hrest
          obtain ⟨_, _, hfound, _⟩ := hrest
          rw [← hfound]
          exact ⟨rfl, rfl⟩
      | @entered share signature found recorded counted writes hf hw =>
          simp only [answeredBy_cons, hw.answeredBy] at hrest
          obtain ⟨_, _, rfl, rfl, rfl⟩ := hrest
          -- unless a record was found, the lookup counts as one that found none
          have hnew : ((replies (.findRecord request.fingerprint)).toOption == some true) =
              false := by
            cases hfound : replies (.findRecord request.fingerprint) with
            | error fault => rfl
            | ok found =>
                cases found with
                | false => rfl
                | true => exact absurd hfound hf
          refine ⟨?_, ?_⟩
          · rw [hnew]
            rfl
          · rw [bne, hnew]
            rfl

/-- **What a grant reports.** With given replies the warnings of a grant are settled: one for quota
and height if either could not be read, and then that for a duplicate or those for what could not be
written, in this order and each at most once. The total is the one that was read, and the count is
the one that was read, increased if the query was counted; this does not overflow and stays within
the total. A quota that could not be read is reported as -1 of -1, even if the query was counted. -/
theorem grant_of_replies {g : Grant} (hy : (procedure limits now s).Yields trace (.ok g))
    (hr : AnsweredBy replies trace) :
    ∃ request, Admitted.ofRequest limits now s.body.length s.request = .ok request ∧
      let quota := replies (.readQuota request.account request.phoneHash)
      let found := replies (.findRecord request.fingerprint)
      let counted := replies (.addCount request.account)
      g.warnings = warningsOf (quota.isOk && (replies .readHeight).isOk)
        (found.toOption == some true) (replies (.addRecord request)).isOk counted.isOk ∧
      g.warnings.Pairwise (fun v w => v.ctorIdx < w.ctorIdx) ∧ g.warnings.Nodup ∧
      (.duplicate ∈ g.warnings → .notRecorded ∉ g.warnings ∧ .notCounted ∉ g.warnings) ∧
      (∀ q, quota = .ok q → g.quota.total = q.total ∧
        g.quota.performed.toInt = q.performed.toInt +
          (if found.toOption ≠ some true ∧ counted.isOk then 1 else 0) ∧
        g.quota.performed.toInt ≤ g.quota.total.toInt) ∧
      (∀ fault, quota = .error fault → g.quota.performed = -1 ∧ g.quota.total = -1) := by
  obtain ⟨request, hs, hpasses, hwarnings, hquota⟩ := (yields_iff.1 hy).reports hr
  refine ⟨request, hs, ?_⟩
  intro quota found counted
  obtain ⟨hordered, hnodup, hduplicate⟩ := warningsOf_ordered
    (quota.isOk && (replies .readHeight).isOk) (found.toOption == some true)
    (replies (.addRecord request)).isOk counted.isOk
  rw [hwarnings]
  refine ⟨rfl, hordered, hnodup, hduplicate, ?_, ?_⟩
  · intro q hq
    have hread : g.quota = reportedQuota (some q)
        (found.toOption != some true && counted.isOk) := by
      rw [hquota, show replies (.readQuota request.account request.phoneHash) = .ok q from hq]
      rfl
    rw [hread]
    simpa using reportedQuota_of_unspent (hpasses.unspent q hq)
      (found.toOption != some true && counted.isOk)
  · intro fault hfault
    rw [hquota, show replies (.readQuota request.account request.phoneHash) = .error fault
      from hfault]
    exact ⟨rfl, rfl⟩

/-- The replies for a rehearsal in which the request cannot be recorded. -/
def repliesUnrecorded (quota : Quota) (share : KeyShare) : (call : Call) → call.Reply
  | .authenticate _ _ _ => true
  | .readQuota _ _ => .ok quota
  | .readHeight => .ok 100
  | .loadKey => .ok share
  | .sign _ _ => .ok ⟨"signature"⟩
  | .findRecord _ => .ok false
  | .addRecord _ => .error .unreachable
  | .addCount _ => .ok ()

/-- The last query of an account is counted and reported, even if its request is not recorded. -/
theorem grant_of_last_query :
    ∃ trace g, (procedure Config.standard.limits 0 Deployment.rehearsedSubmission).Yields trace
        (.ok g) ∧
      AnsweredBy (repliesUnrecorded ⟨9, 10⟩ ⟨List.replicate 32 1, rfl⟩) trace ∧
      g.warnings = [.notRecorded] ∧ g.quota.performed.toInt = 10 ∧ g.quota.total = 10 := by
  obtain ⟨request, hs⟩ := Deployment.exists_rehearsed_admitted
  have hpasses : Passes (repliesUnrecorded ⟨9, 10⟩ ⟨List.replicate 32 1, rfl⟩)
      Deployment.rehearsedSubmission request := by
    refine ⟨rfl, ?_⟩
    intro quota hq
    -- nine of ten: one query is left
    obtain rfl : (⟨9, 10⟩ : Quota) = quota := Except.ok.inj hq
    decide
  obtain ⟨trace, g, ht, hr, _⟩ := hpasses.exists_granted hs rfl rfl
  obtain ⟨_, _, hwarnings, _, _, _, hquota, _⟩ := grant_of_replies ht.yields hr
  obtain ⟨htotal, hperformed, _⟩ := hquota ⟨9, 10⟩ rfl
  exact ⟨trace, g, ht.yields, hr, hwarnings, hperformed, htotal⟩

end Signing

end BlindSign

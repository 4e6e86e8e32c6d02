import Mathlib.Algebra.BigOperators.Ring.Finset
import BlindSign.Proofs.BodyLimit
import BlindSign.Proofs.Noting
import BlindSign.Proofs.Warnings

set_option autoImplicit false

/-! # Counters tell what was answered

Every submission that is answered notes the same few events beside the timings: that it arrived,
that it names no session, that the chain could not be read for it, that it was a duplicate, and with
which status it was answered (`Handling.counters`). What is noted follows from the request, the
replies and the response alone.

**The counters on the page grow by what was answered** (`Metrics.conserves`), however many
submissions there were and however their events are interleaved: by one for each submission and for
each answer under its status, and by one for each that is told to be a duplicate, for which the chain
could not be read, or that names no session.
-/

namespace BlindSign

/-! ## What the events of a submission follow from -/

/-- A caller was checked and accepted. -/
def Exchange.isAuthentic : Exchange → Bool
  | ⟨.authenticate _ _ _, true⟩ => true
  | _ => false

namespace Signing

variable {limits : Limits} {now : Int64} {s : Submission} {trace : List Exchange}

/-- Quota and height are read only for what was admitted, and for a caller who was accepted. -/
theorem Transcript.of_missesChain {outcome : Except Refusal Grant}
    (h : Transcript limits now s trace outcome) (hm : trace.any Exchange.missesChain = true) :
    (Admitted.ofRequest limits now s.body.length s.request).isOk = true ∧
      trace.any Exchange.isAuthentic = true := by
  cases h with
  | invalid hs => cases hm
  | unauthenticated hs => cases hm
  | exhausted hs hr hq =>
      rw [hs]
      exact ⟨rfl, rfl⟩
  | passed hs hr hq hc =>
      rw [hs]
      exact ⟨rfl, rfl⟩

/-- A grant warns of an unread chain just if quota or height could not be read. -/
theorem Transcript.chainUnread_mem_iff {g : Grant} (h : Transcript limits now s trace (.ok g)) :
    .chainUnread ∈ g.warnings ↔ trace.any Exchange.missesChain = true := by
  cases h with
  | @passed request quota height reads rest outcome hs hr hq hc =>
      have hcomplete := Reads.isComplete_eq hr
      have hreads : .chainUnread ∈ (Standing.ofReplies quota height).warnings ↔
          reads.any Exchange.missesChain = true := by
        unfold Standing.warnings
        rw [hcomplete]
        cases reads.any Exchange.missesChain with
        | false => simp
        | true => simp
      -- after the reading of quota and height nothing is read from the chain
      cases hc with
      | duplicate share signature =>
          simp [hreads, Exchange.missesChain]
      | @entered share signature found recorded counted writes hf hw =>
          have hwrites : writes.any Exchange.missesChain = false := hw.any Exchange.missesChain
          have hentry : .chainUnread ∉ ((if recorded.isOk then [] else [.notRecorded]) ++
              (if counted.isOk then [] else [.notCounted]) : List Warning) := by
            cases recorded.isOk <;> cases counted.isOk <;> decide
          have hrest : (⟨.loadKey, .ok share⟩ :: ⟨.sign request.query share, .ok signature⟩ ::
              ⟨.findRecord request.fingerprint, found⟩ :: writes).any Exchange.missesChain =
                false := hwrites
          rw [List.mem_append, or_iff_left hentry, hreads, List.any_cons, List.any_append, hrest,
            Bool.or_false]
          rfl

end Signing

namespace Service

variable {s : Service} {r : Http.Request} {trace : List Exchange} {events : List Metric}

open Procedure

/-- A submission is noted first, and the status of its answer last. -/
theorem counters_of_logs {response : Http.Response}
    (h : (s.answerSubmission r).Logs trace events response) :
    ∃ outcome within, (s.outcome r).Logs trace within outcome ∧
      response = outcomeResponse outcome ∧
      events.filter Metric.isCounter =
        .submission :: (within.filter Metric.isCounter ++ [.response response.status]) := by
  unfold answerSubmission at h
  obtain ⟨_, _, u, _, _, harrived, hrest, rfl, rfl⟩ := logs_bind.1 h
  obtain ⟨rfl, rfl⟩ := logs_noting.1 harrived
  obtain ⟨es, within, outcome, fs, ns, houtcome, hend, rfl, rfl⟩ := logs_bind.1 hrest
  obtain ⟨_, _, v, _, _, hanswered, hpure, rfl, rfl⟩ := logs_bind.1 hend
  obtain ⟨rfl, rfl⟩ := logs_noting.1 hanswered
  obtain ⟨rfl, rfl, rfl⟩ := logs_pure.1 hpure
  refine ⟨outcome, within, ?_, rfl, ?_⟩
  · simpa using houtcome
  · rw [List.append_nil, List.singleton_append, List.filter_cons_of_pos rfl, List.filter_append]
    rfl

end Service

/-! ## Handling a submission -/

/-- The complete handling of a submission over HTTP. -/
structure Handling where
  service : Service
  request : Http.Request
  /-- The events noted before it arrived. -/
  log : Metrics
  trace : List Exchange
  /-- The events that were noted for it. -/
  events : List Metric
  response : Http.Response
  isSign : service.resource? request = some .sign
  isPost : request.method = "POST"
  logs : (service.answer log request).Logs trace events response

namespace Handling

/-- The body is one that is read, and denotes a request without a session. -/
def lacksSession (h : Handling) : Bool :=
  match h.request.body with
  | .broken => false
  | .complete bytes =>
    Service.admitsLength h.service.bodyLimit bytes.length &&
      (Request.ofBody? bytes).any fun request => request.sessionId.isNone

/-- What was submitted, if it can be read. -/
def submission? (h : Handling) : Option Submission :=
  (Service.readSubmission h.service.bodyLimit h.request).toOption

/-- The request was admitted and its caller accepted, and then quota or height could not be read. -/
def readsInVain (h : Handling) : Bool :=
  (h.submission?.any fun s => (Admitted.ofRequest h.service.config.limits h.service.now
      s.body.length s.request).isOk) &&
    h.trace.any Exchange.isAuthentic && h.trace.any Exchange.missesChain

/-- The answer is a grant that tells of a duplicate. -/
def tellsDuplicate (h : Handling) : Bool :=
  h.response.status == 200 && ((Answer.ofBody? h.response.body).bind Answer.warning).any
    fun text => decide ("duplicate request".toList <:+: text.toList)

theorem lacksSession_eq (h : Handling) :
    h.lacksSession = h.submission?.any fun s => s.request.sessionId.isNone := by
  unfold lacksSession submission? Service.readSubmission Service.readBody
  cases h.request.body with
  | broken => rfl
  | complete bytes =>
      dsimp only
      by_cases hlength : Service.admitsLength h.service.bodyLimit bytes.length = true
      · rw [if_pos hlength, hlength, Bool.true_and]
        cases hbody : Request.ofBody? bytes with
        | none => simp [bind, Except.bind, hbody, Except.toOption]
        | some request => simp [bind, Except.bind, hbody, Except.toOption]
      · rw [if_neg hlength, Bool.eq_false_iff.2 hlength]
        rfl

/-- Nothing is known of a request that cannot be read. -/
theorem lacksSession_of_unread {h : Handling} (hnone : h.submission? = none) :
    h.lacksSession = false := by
  rw [lacksSession_eq, hnone]
  rfl

theorem readsInVain_of_unread {h : Handling} (hnone : h.submission? = none) :
    h.readsInVain = false := by
  unfold readsInVain
  rw [hnone]
  rfl

/-- The answer tells of a duplicate just if the outcome is a grant that warns of one. -/
theorem tellsDuplicate_eq {h : Handling} {outcome : Except Refusal Grant}
    (hresponse : h.response = Service.outcomeResponse outcome) :
    h.tellsDuplicate = Signing.warnsOfDuplicate outcome := by
  unfold tellsDuplicate
  cases outcome with
  | error refusal =>
      have hstatus : (h.response.status == 200) = false := by
        rw [hresponse]
        exact beq_false_of_ne (Deployment.status_refusalResponse refusal)
      rw [hstatus]
      rfl
  | ok g =>
      have hbody : h.response = .json 200 g.answer.body := hresponse
      rw [hbody, Http.Response.json, Answer.ofBody?_body, Option.bind_some, beq_self_eq_true,
        Bool.true_and, Bool.eq_iff_iff, Option.any_eq_true]
      have hdecide : (∃ text, g.answer.warning = some text ∧
          decide ("duplicate request".toList <:+: text.toList) = true) ↔
          ∃ text, Warning.text? g.warnings = some text ∧
            Warning.duplicate.tag.toList <:+: text.toList :=
        exists_congr fun text => and_congr_right fun _ => decide_eq_true_iff
      exact hdecide.trans (Warning.tag_infix_iff.trans decide_eq_true_iff.symm)

/-- The chain was read in vain just if a reading of quota or height failed: none takes place before
the request was admitted and the caller accepted. -/
theorem readsInVain_eq {h : Handling} {s : Submission} {outcome : Except Refusal Grant}
    (hs : Service.readSubmission h.service.bodyLimit h.request = .ok s)
    (ht : Signing.Transcript h.service.config.limits h.service.now s h.trace outcome) :
    h.readsInVain = h.trace.any Exchange.missesChain := by
  unfold readsInVain submission?
  rw [hs]
  cases hm : h.trace.any Exchange.missesChain with
  | false => rw [Bool.and_false]
  | true =>
      obtain ⟨hadmitted, hauthentic⟩ := ht.of_missesChain hm
      rw [hauthentic, Bool.and_true, Bool.and_true]
      exact hadmitted

/-- **The events of a submission** but for the timings. -/
theorem counters (h : Handling) : h.events.filter Metric.isCounter =
    .submission :: ((if h.lacksSession then [.missingSession] else []) ++
      (if h.readsInVain then [.chainError] else []) ++
      (if h.tellsDuplicate then [.duplicate] else []) ++ [.response h.response.status]) := by
  have hlogs := h.logs
  rw [Service.answer_eq h.isSign h.isPost] at hlogs
  obtain ⟨outcome, within, houtcome, hresponse, hevents⟩ := Service.counters_of_logs hlogs
  rw [hevents, List.cons_inj_right, List.append_left_inj]
  unfold Service.outcome at houtcome
  cases hread : Service.readSubmission h.service.bodyLimit h.request with
  | error fault =>
      -- what cannot be read is refused with no event of signing
      rw [hread] at houtcome
      obtain ⟨_, rfl, rfl⟩ := Procedure.logs_pure.1 houtcome
      have hnone : h.submission? = none := by
        rw [submission?, hread]
        rfl
      have hduplicate : h.tellsDuplicate = false := tellsDuplicate_eq hresponse
      rw [hduplicate, lacksSession_of_unread hnone, readsInVain_of_unread hnone]
      rfl
  | ok s =>
      rw [hread] at houtcome
      have htranscript := Signing.yields_iff.1 (Procedure.Logs.yields houtcome)
      rw [Signing.counters_of_logs houtcome, readsInVain_eq hread htranscript,
        tellsDuplicate_eq hresponse, lacksSession_eq, submission?, hread]
      rfl

/-- What was granted tells in its warnings whether the chain was read in vain. -/
theorem readsInVain_of_grant {h : Handling} {g : Grant}
    (hresponse : h.response = .json 200 g.answer.body) :
    h.readsInVain = decide (.chainUnread ∈ g.warnings) := by
  have hlogs := h.logs
  rw [Service.answer_eq h.isSign h.isPost] at hlogs
  obtain ⟨outcome, within, houtcome, hanswer, _⟩ := Service.counters_of_logs hlogs
  cases outcome with
  | error refusal =>
      -- a refusal has another status
      have hstatus := congrArg Http.Response.status (hanswer.symm.trans hresponse)
      exact absurd hstatus (Deployment.status_refusalResponse refusal)
  | ok g' =>
      have hbody : g'.answer.body = g.answer.body :=
        congrArg Http.Response.body (hanswer.symm.trans hresponse)
      unfold Service.outcome at houtcome
      cases hread : Service.readSubmission h.service.bodyLimit h.request with
      | error fault =>
          rw [hread] at houtcome
          obtain ⟨_, _, hgrant⟩ := Procedure.logs_pure.1 houtcome
          cases hgrant
      | ok s =>
          rw [hread] at houtcome
          have htranscript := Signing.yields_iff.1 (Procedure.Logs.yields houtcome)
          rw [readsInVain_eq hread htranscript, Bool.eq_iff_iff, decide_eq_true_iff,
            ← htranscript.chainUnread_mem_iff, Grant.warnings_eq_of_body hbody]

def moves (h : Handling) : Metric → Bool
  | .submission => true
  | .missingSession => h.lacksSession
  | .response status => h.response.status == status
  | .chainError => h.readsInVain
  | .duplicate => h.tellsDuplicate
  | .stage _ => false

/-- A counter that is moved is moved once. -/
theorem count_events (h : Handling) {m : Metric} (hm : m.isCounter) :
    h.events.count m = if h.moves m then 1 else 0 := by
  rw [← List.count_filter hm, h.counters]
  unfold moves
  generalize h.lacksSession = lacks
  generalize h.readsInVain = reads
  generalize h.tellsDuplicate = tells
  cases m with
  | stage s => cases hm
  | response status => cases lacks <;> cases reads <;> cases tells <;> simp [List.count_cons]
  | _ => cases lacks <;> cases reads <;> cases tells <;> simp

theorem count_flatMap (hs : List Handling) {m : Metric} (hm : m.isCounter) :
    (hs.flatMap Handling.events).count m = hs.countP fun h => h.moves m := by
  induction hs with
  | nil => rfl
  | cons h hs ih =>
      rw [List.flatMap_cons, List.count_append, ih, h.count_events hm, List.countP_cons, Nat.add_comm]

end Handling

namespace Metrics

/-- By how much the number that the page shows under a name has grown. -/
def increase (before after : Metrics) (series : String) : Int :=
  (after.shown series : Int) - before.shown series

/-- The counters have grown by what was answered. -/
structure Conserves (before after : Metrics) (hs : List Handling) : Prop where
  requests : increase before after "signer_requests_total" = hs.length
  /-- The answers with a status. -/
  answered : ∀ status, increase before after (responseSeries status) =
    hs.countP fun h => h.response.status == status
  /-- No status has a counter but those on the page. -/
  labels : ∀ status, status ∈ after.statuses ↔
    (valueIn? (responseSeries status) after.lines).isSome
  total : ∑ status ∈ after.statuses.toFinset, increase before after (responseSeries status) =
    hs.length
  duplicates : increase before after "signer_duplicate_requests_total" =
    hs.countP Handling.tellsDuplicate
  chainErrors : increase before after "signer_blockchain_errors_total" =
    hs.countP Handling.readsInVain
  missingSessions : increase before after "signer_missing_session_id_total" =
    hs.countP Handling.lacksSession

variable {before after : Metrics} {hs : List Handling}

/-- Each counter grows by the number of submissions that move it. -/
theorem increase_eq (h : after.Perm (hs.flatMap Handling.events ++ before)) {m : Metric}
    (hm : m.isCounter) : increase before after m.series = hs.countP fun h => h.moves m := by
  have hcount : after.count m = (hs.countP fun h => h.moves m) + before.count m := by
    rw [h.count_eq, List.count_append, Handling.count_flatMap hs hm]
  rw [increase, shown_series hm, shown_series hm, hcount]
  omega

/-- The status of each answer is on the page. -/
theorem status_mem_statuses (h : after.Perm (hs.flatMap Handling.events ++ before)) {g : Handling}
    (hg : g ∈ hs) : g.response.status ∈ after.statuses := by
  have hevent : .response g.response.status ∈ g.events := by
    have hlast : .response g.response.status ∈ g.events.filter Metric.isCounter := by
      rw [g.counters]
      simp
    exact (List.mem_filter.1 hlast).1
  refine mem_statuses.2 (h.mem_iff.2 ?_)
  exact List.mem_append_left _ (List.mem_flatMap.2 ⟨g, hg, hevent⟩)

/-- **The counters grow by what was answered**, in whatever order the events were noted. -/
theorem conserves_of_perm (h : after.Perm (hs.flatMap Handling.events ++ before)) :
    Conserves before after hs where
  requests := by
    have hall : (hs.countP fun _ => true) = hs.length := congrFun List.countP_true hs
    rw [← hall]
    exact increase_eq h (m := .submission) rfl
  answered := fun status => increase_eq h (m := .response status) rfl
  labels := fun status => by
    rw [valueIn?_responseSeries]
    by_cases hstatus : status ∈ after.statuses
    · simp [hstatus]
    · simp [hstatus]
  total := by
    -- every answer has one status, and all statuses are on the page
    have hcard : ∑ status ∈ after.statuses.toFinset,
        (hs.map fun h => h.response.status).count status = hs.length := by
      have hmem : ∀ status ∈ Multiset.ofList (hs.map fun h => h.response.status),
          status ∈ after.statuses.toFinset := by
        simpa using fun g hg => status_mem_statuses h hg
      simpa using Multiset.sum_count_eq_card hmem
    rw [← hcard, Nat.cast_sum]
    refine Finset.sum_congr rfl fun status _ => ?_
    have hcount := increase_eq h (m := .response status) rfl
    rw [List.count, List.countP_map]
    exact hcount
  duplicates := increase_eq h (m := .duplicate) rfl
  chainErrors := increase_eq h (m := .chainError) rfl
  missingSessions := increase_eq h (m := .missingSession) rfl

end Metrics

/-! ## Deployments -/

namespace Deployment

variable {α : Type}

/-- The exchanges that take place when a deployment carries out a procedure. -/
def exchanges : Procedure α → Deployment → List Exchange
  | .finish _, _ => []
  | .note event next, d => exchanges next (record event d).2
  | .ask call next, d => exchange call d :: exchanges (next (answer call d).1) (answer call d).2
  | .askBoth first second next, d =>
    exchange first d :: exchange second (answer first d).2 ::
      exchanges (next (answer first d).1 (answer second (answer first d).2).1)
        (answer second (answer first d).2).2

/-- Answering a call notes nothing. -/
theorem metrics_answer (call : Call) (d : Deployment) : (answer call d).2.metrics = d.metrics := by
  cases hw : call.isWrite with
  | false =>
      obtain ⟨_, _, h⟩ := answer_snd call d hw
      rw [h]
  | true =>
      cases call with
      | addRecord request => rfl
      | addCount account => rfl
      | _ => cases hw

/-- What a deployment performs is an execution of its exchanges, and its events are logged. -/
theorem exists_logs_perform (p : Procedure α) (d : Deployment) :
    ∃ events, p.Logs (exchanges p d) events (perform p d).1 ∧
      (perform p d).2.metrics = events.reverse ++ d.metrics := by
  induction p generalizing d with
  | finish result => exact ⟨[], .finish result, rfl⟩
  | note event next ih =>
      obtain ⟨events, hl, hm⟩ := ih (record event d).2
      refine ⟨event :: events, .note event hl, ?_⟩
      rw [List.reverse_cons, List.append_assoc]
      exact hm
  | ask call next ih =>
      obtain ⟨events, hl, hm⟩ := ih (answer call d).1 (answer call d).2
      rw [metrics_answer] at hm
      exact ⟨events, .ask call _ hl, hm⟩
  | askBoth first second next ih =>
      obtain ⟨events, hl, hm⟩ := ih (answer first d).1 (answer second (answer first d).2).1
        (answer second (answer first d).2).2
      rw [metrics_answer, metrics_answer] at hm
      exact ⟨events, .askBoth (.inl rfl) hl, hm⟩

/-- Answer requests one after another; for each its exchanges and its response are told. -/
def respondAll : List Http.Request → Deployment → List (List Exchange × Http.Response) × Deployment
  | [], d => ([], d)
  | r :: rs, d =>
    let rest := respondAll rs (respond r d).2
    ((exchanges (d.service.answer d.metrics r) d, (respond r d).1) :: rest.1, rest.2)

/-- Submissions that are answered one after another are handled one after another. -/
theorem exists_handlings {rs : List Http.Request} {d : Deployment}
    (h : ∀ r ∈ rs, d.service.resource? r = some .sign ∧ r.method = "POST") :
    ∃ hs : List Handling, hs.map Handling.request = rs ∧
      hs.map (fun h => (h.trace, h.response)) = (respondAll rs d).1 ∧
      (∀ h ∈ hs, h.service = d.service) ∧
      (respondAll rs d).2.metrics.Perm (hs.flatMap Handling.events ++ d.metrics) := by
  induction rs generalizing d with
  | nil => exact ⟨[], rfl, rfl, by simp, .refl _⟩
  | cons r rs ih =>
      obtain ⟨⟨hsign, hpost⟩, hrest⟩ := List.forall_mem_cons.1 h
      have hservice : (respond r d).2.service = d.service := by
        have hsame : SameSetup d (respond r d).2 := perform_sameSetup _ d
        rw [hsame]
        rfl
      rw [← hservice] at hrest
      obtain ⟨hs, hrequests, hanswers, hservices, hperm⟩ := ih hrest
      obtain ⟨events, hlogs, hmetrics⟩ := exists_logs_perform (d.service.answer d.metrics r) d
      refine ⟨⟨d.service, r, d.metrics, _, events, _, hsign, hpost, hlogs⟩ :: hs, ?_, ?_, ?_, ?_⟩
      · rw [List.map_cons, hrequests]
      · rw [List.map_cons, hanswers]
        rfl
      · rw [hservice] at hservices
        exact List.forall_mem_cons.2 ⟨rfl, hservices⟩
      · have hfirst : (respond r d).2.metrics = events.reverse ++ d.metrics := hmetrics
        rw [hfirst] at hperm
        -- the log holds the last event first
        have hswap : List.Perm (hs.flatMap Handling.events ++ (events.reverse ++ d.metrics))
            (events ++ (hs.flatMap Handling.events ++ d.metrics)) :=
          (List.perm_append_comm_assoc _ _ _).trans ((List.reverse_perm events).append_right _)
        rw [List.flatMap_cons, List.append_assoc]
        exact hperm.trans hswap

end Deployment

namespace Metrics

open Deployment

/-- **Counters are conserved.** Let submissions be handled to their end, any number of them, with
any replies to their calls and their events noted in any order. Then the counter of submissions has
grown by their number, and so have the counters of answers by status together; that of each status
by the number of answers with it, that of duplicates by the number of grants that tell of one, that
of faults of the chain by the number of calls that passed validation and authentication and failed
to read quota or height, and that of missing sessions by the number of requests that were read and
name none. So it is for the submissions that a deployment answers one after another. -/
theorem conserved :
    (∀ (hs : List Handling) (before after : Metrics),
      after.Perm (hs.flatMap Handling.events ++ before) → Conserves before after hs) ∧
    ∀ (d : Deployment) (rs : List Http.Request),
      (∀ r ∈ rs, d.service.resource? r = some .sign ∧ r.method = "POST") →
      ∃ hs : List Handling, hs.map Handling.request = rs ∧
        hs.map (fun h => (h.trace, h.response)) = (respondAll rs d).1 ∧
        (∀ h ∈ hs, h.service = d.service) ∧
        Conserves d.metrics (respondAll rs d).2.metrics hs := by
  refine ⟨fun _ _ _ h => conserves_of_perm h, fun d rs h => ?_⟩
  obtain ⟨hs, hrequests, hanswers, hservices, hperm⟩ := exists_handlings h
  exact ⟨hs, hrequests, hanswers, hservices, conserves_of_perm hperm⟩

def sessionlessPost : Http.Request :=
  { rehearsedPost with body := .complete { rehearsed with sessionId := none }.body }

section

variable {request : Admitted}
  (hs : Admitted.ofRequest Config.standard.limits 0 { rehearsed with sessionId := none }.body.length
    { rehearsed with sessionId := none } = .ok request)

include hs

/-- It is granted although the quota cannot be read. -/
theorem respond_sessionlessPost {d : Deployment} (hd : Rehearses d) (hc : d.callers = .acceptAll)
    {n : Option Int64} (hchain : d.chain = .given none n)
    (hworks : ∀ s, d.database.faultOf? s = none) :
    ∃ g : Grant, (respond sessionlessPost d).1 = .json 200 g.answer.body ∧
      g.warnings = .chainUnread :: (d.entered request).1.warnings ∧
      (respond sessionlessPost d).2.database = (d.entered request).2 := by
  have hq : d.quotaOf request.account = .error (.chain chainDown) :=
    (quotaOf_of_given hchain (hworks _)).trans rfl
  obtain ⟨g, _, hg, hresponse, hleft⟩ := hd.exists_granted_post (r := sessionlessPost) rfl hs
    (accepts_of_acceptAll hc _ _ _) (by rw [hq]; rfl) rfl rfl
  refine ⟨g, hresponse, ?_, hleft⟩
  rw [hg.granted]
  exact warnings_grantOf_of_unread hq _

/-- Every handling of it finds a request without a session. -/
theorem lacksSession_sessionlessPost {h : Handling} (hrequest : h.request = sessionlessPost)
    (hlimit : h.service.bodyLimit = some Config.standard.bodyLimit) : h.lacksSession = true := by
  have hread := @Service.readSubmission_of_admitted Config.standard sessionlessPost
    { rehearsed with sessionId := none } 0 request rfl hs
  rw [h.lacksSession_eq]
  unfold Handling.submission?
  rw [hrequest, hlimit, hread]
  rfl

/-- Which counters grow by one that is granted can be told from the warnings. -/
theorem counts_of_sessionlessPost {h : Handling} (hrequest : h.request = sessionlessPost)
    (hlimit : h.service.bodyLimit = some Config.standard.bodyLimit) {g : Grant}
    (hresponse : h.response = .json 200 g.answer.body) :
    h.lacksSession = true ∧ h.readsInVain = decide (.chainUnread ∈ g.warnings) ∧
      h.tellsDuplicate = decide (.duplicate ∈ g.warnings) :=
  ⟨lacksSession_sessionlessPost hs hrequest hlimit, Handling.readsInVain_of_grant hresponse,
    @Handling.tellsDuplicate_eq h (.ok g) hresponse⟩

/-- What is answered to it twice, and then to one that cannot be read. -/
theorem exists_responses_rehearsal :
    ∃ g g' : Grant, g.warnings = [.chainUnread] ∧ g'.warnings = [.chainUnread, .duplicate] ∧
      (respondAll [sessionlessPost, sessionlessPost, blankPost 4096]
        (rehearsal .empty none)).1.map Prod.snd =
          [.json 200 g.answer.body, .json 200 g'.answer.body, Service.invalidInput] := by
  have hall : ∀ r rs (d : Deployment), (respondAll (r :: rs) d).1.map Prod.snd =
      (respond r d).1 :: (respondAll rs (respond r d).2).1.map Prod.snd := fun _ _ _ => rfl
  have hd := rehearses_rehearsal .empty none
  obtain ⟨g, hresponse, hwarnings, hleft⟩ :=
    respond_sessionlessPost hs hd rfl rfl fun _ => rfl
  obtain ⟨l, hentered, _, hrecord, _⟩ := @exists_entered_of_new request (rehearsal .empty none)
    (fun _ _ => rfl) rfl (show (0 : Int64) < _ by decide)
  have hsame := respond_sameSetup sessionlessPost (rehearsal .empty none)
  rw [hentered] at hwarnings hleft
  rw [hall, hresponse]
  -- of each deployment on the way it matters only how it is set up and what is on record
  generalize (respond sessionlessPost (rehearsal .empty none)).2 = d at hleft hsame ⊢
  have hworks : ∀ s, d.database.faultOf? s = none := fun s => hsame.faultOf?_eq s
  obtain ⟨g', hresponse', hwarnings', _⟩ := respond_sessionlessPost hs (hsame.rehearses hd)
    (congrArg Deployment.callers hsame) (congrArg Deployment.chain hsame) hworks
  rw [entered_of_hasRecord (hworks _) (by rw [hleft]; exact hrecord)] at hwarnings'
  have hsame' := hsame.trans (respond_sameSetup sessionlessPost d)
  rw [hall, hresponse', hall]
  generalize (respond sessionlessPost d).2 = d' at hsame'
  have hd' := hsame'.rehearses hd
  have hlarge : d'.config.maxRequestBytes.toNat ≤ (List.replicate 4096 (0x20 : UInt8)).length := by
    rw [hd'.config, List.length_replicate]
    decide
  obtain ⟨metrics, hrefused⟩ := @respond_of_large d' (blankPost 4096) _ (hd'.resource rfl) rfl rfl
    hlarge
  exact ⟨g, g', hwarnings, hwarnings', by rw [response_eq hrefused]; rfl⟩

end

set_option maxRecDepth 100000 in
theorem exists_sessionless_admitted : ∃ request, Admitted.ofRequest Config.standard.limits 0
    { rehearsed with sessionId := none }.body.length { rehearsed with sessionId := none } =
      .ok request :=
  exists_of_isOk (by decide +kernel)

set_option maxRecDepth 100000 in
/-- No submission is read from white space. -/
theorem submission?_blankPost {h : Handling} (hrequest : h.request = blankPost 4096)
    (hlimit : h.service.bodyLimit = some Config.standard.bodyLimit) : h.submission? = none := by
  have hblank : Request.ofBody? (List.replicate 4096 0x20) = none := by decide +kernel
  have hlength : Service.admitsLength (some Config.standard.bodyLimit)
      (List.replicate 4096 (0x20 : UInt8)).length = true := by
    rw [List.length_replicate]
    decide
  unfold Handling.submission?
  rw [hrequest, hlimit, Request.readSubmission_eq rfl hlength, hblank]
  rfl

/-- So no counter grows by it but those of submissions and of answers. -/
theorem counts_of_blankPost {h : Handling} (hrequest : h.request = blankPost 4096)
    (hlimit : h.service.bodyLimit = some Config.standard.bodyLimit)
    (hresponse : h.response = Service.invalidInput) :
    h.lacksSession = false ∧ h.readsInVain = false ∧ h.tellsDuplicate = false := by
  have hnone := submission?_blankPost hrequest hlimit
  exact ⟨Handling.lacksSession_of_unread hnone, Handling.readsInVain_of_unread hnone,
    @Handling.tellsDuplicate_eq h (.error (.invalid .malformedBody)) hresponse⟩

/-- A deployment that cannot read the chain grants a request without a session, grants it again as a
duplicate, and refuses one that it cannot read. -/
theorem conserved_of_rehearsal :
    let d := rehearsal .empty none
    let rs := [sessionlessPost, sessionlessPost, blankPost 4096]
    ∃ hs : List Handling, hs.map Handling.request = rs ∧
      Conserves d.metrics (respondAll rs d).2.metrics hs ∧
      Conserves [] (hs.flatMap Handling.events) hs ∧
      hs.countP (fun h => h.response.status == 200) = 2 ∧
      hs.countP (fun h => h.response.status == 400) = 1 ∧
      hs.countP Handling.tellsDuplicate = 1 ∧ hs.countP Handling.readsInVain = 2 ∧
      hs.countP Handling.lacksSession = 2 := by
  intro d rs
  obtain ⟨request, hs⟩ := exists_sessionless_admitted
  have hd : Rehearses d := rehearses_rehearsal .empty none
  have hsubmissions : ∀ r ∈ rs, d.service.resource? r = some .sign ∧ r.method = "POST" :=
    List.forall_mem_cons.2 ⟨⟨hd.resource rfl, rfl⟩, List.forall_mem_cons.2 ⟨⟨hd.resource rfl, rfl⟩,
      List.forall_mem_cons.2 ⟨⟨hd.resource rfl, rfl⟩, List.forall_mem_nil _⟩⟩⟩
  obtain ⟨hs', hrequests, hanswers, hservices, hconserves⟩ := conserved.2 d rs hsubmissions
  refine ⟨hs', hrequests, hconserves, conserved.1 hs' [] _ (by rw [List.append_nil]), ?_⟩
  obtain ⟨g, g', hwarnings, hwarnings', hresponses⟩ := exists_responses_rehearsal hs
  replace hanswers : hs'.map Handling.response =
      [.json 200 g.answer.body, .json 200 g'.answer.body, Service.invalidInput] := by
    rw [← hresponses, ← hanswers, List.map_map]
    rfl
  -- there are three handlings, each with its request and its response
  obtain ⟨h₁, hs', rfl, hrequest₁, hrequests⟩ := List.map_eq_cons_iff.1 hrequests
  obtain ⟨h₂, hs', rfl, hrequest₂, hrequests⟩ := List.map_eq_cons_iff.1 hrequests
  obtain ⟨h₃, hs', rfl, hrequest₃, hrequests⟩ := List.map_eq_cons_iff.1 hrequests
  obtain rfl := List.map_eq_nil_iff.1 hrequests
  simp only [List.map_cons, List.map_nil, List.cons.injEq, and_true] at hanswers
  obtain ⟨hresponse₁, hresponse₂, hresponse₃⟩ := hanswers
  have hlimit : ∀ h ∈ [h₁, h₂, h₃], h.service.bodyLimit = some Config.standard.bodyLimit :=
    fun h hmem => congrArg Service.bodyLimit (hservices h hmem)
  obtain ⟨hlacks₁, hvain₁, htells₁⟩ :=
    counts_of_sessionlessPost hs hrequest₁ (hlimit h₁ (by simp)) hresponse₁
  obtain ⟨hlacks₂, hvain₂, htells₂⟩ :=
    counts_of_sessionlessPost hs hrequest₂ (hlimit h₂ (by simp)) hresponse₂
  obtain ⟨hlacks₃, hvain₃, htells₃⟩ :=
    counts_of_blankPost hrequest₃ (hlimit h₃ (by simp)) hresponse₃
  rw [hwarnings] at htells₁ hvain₁
  rw [hwarnings'] at htells₂ hvain₂
  simp [hresponse₁, hresponse₂, hresponse₃, htells₁, htells₂, htells₃, hvain₁, hvain₂, hvain₃,
    hlacks₁, hlacks₂, hlacks₃, Http.Response.json, Service.invalidInput]

end Metrics

end BlindSign

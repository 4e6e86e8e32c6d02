import BlindSign.Proofs.Rehearsals

set_option autoImplicit false

/-! # The limit on bodies does not show

A body that is too long is refused in three places: where bodies are read, where requests are read
from them, and where requests are admitted. Each has a fault of its own, but all of them are
answered alike, and before anybody is asked. The limit on bodies leaves room for every request that
might be admitted (`Config.maxRequestBytes_le_bodyLimit`), so what it cuts off would be refused all
the same.

**A service answers as it would without a limit on bodies** (`Deployment.answers_as_unlimited`).
-/

namespace BlindSign

/-! ## The limit -/

namespace Service

def unlimited (s : Service) : Service := { s with bodyLimit := none }

/-- The answer to what is not admitted, whatever the fault. -/
def invalidInput : Http.Response :=
  .json 400 ((Failure.plain .badRequest "invalid input").attach "version" (.text version)).body

theorem refusalResponse_invalid (fault : RequestFault) :
    refusalResponse (.invalid fault) = invalidInput := rfl

example : invalidInput.body = Text.Utf8.encode
    "\x7b\"error\":\"invalid input\",\"success\":false,\"version\":\"0.1.0\"\x7d" := by
  decide +kernel

variable {s : Service} {r : Http.Request} {bytes : List UInt8}

/-- A body that is not read, or in which no request is found, is refused at once. -/
theorem endsAtOnce_outcome_of_error {fault : RequestFault}
    (h : readSubmission s.bodyLimit r = .error fault) :
    (s.outcome r).EndsAtOnce (.error (.invalid fault)) := by
  unfold outcome
  rw [h]
  exact .finish _

/-- What is read from a body is submitted with all of it. -/
theorem body_of_readSubmission {limit : Option UInt64} {submission : Submission}
    (hb : r.body = .complete bytes) (h : readSubmission limit r = .ok submission) :
    submission.body = bytes := by
  obtain ⟨body, hbody, h⟩ := bind_eq_ok.1 h
  have hread : body = bytes := by
    unfold readBody at hbody
    rw [hb] at hbody
    dsimp only at hbody
    split at hbody
    · exact (Except.ok.inj hbody).symm
    · cases hbody
  split at h
  · cases h
    exact hread
  · cases h

/-- A body that is too large is refused at once, whatever the limit and wherever it is noticed. -/
theorem endsAtOnce_outcome_of_large (hb : r.body = .complete bytes)
    (hlarge : s.config.maxRequestBytes.toNat ≤ bytes.length) :
    ∃ fault, (s.outcome r).EndsAtOnce (.error (.invalid fault)) := by
  cases h : readSubmission s.bodyLimit r with
  | error fault => exact ⟨fault, endsAtOnce_outcome_of_error h⟩
  | ok submission =>
      have hsize : s.config.limits.maxBytes.toNat ≤
          Admitted.size submission.request submission.body.length := by
        rw [body_of_readSubmission hb h]
        exact Nat.le_trans hlarge (Nat.le_max_left _ _)
      have hrefused : Admitted.ofRequest s.config.limits s.now submission.body.length
          submission.request = .error _ := if_pos hsize
      unfold outcome
      rw [h]
      exact ⟨_, Signing.endsAtOnce_procedure hrefused⟩

/-- What is refused at once as invalid is answered at once, whatever the fault. -/
theorem endsAtOnce_answer (hr : s.resource? r = some .sign) (hm : r.method = "POST")
    (log : Metrics) {fault : RequestFault}
    (h : (s.outcome r).EndsAtOnce (.error (.invalid fault))) :
    (s.answer log r).EndsAtOnce invalidInput := by
  have hresponse : outcomeResponse (.error (.invalid fault)) = invalidInput :=
    refusalResponse_invalid fault
  rw [answer_eq hr hm, ← hresponse]
  exact .note .submission (h.bind (.note _ (.finish _)))

/-- Below the size that a request must stay below, every body is read. -/
theorem readBody_of_small {c : Config} (hb : r.body = .complete bytes)
    (hsmall : bytes.length < c.maxRequestBytes.toNat) :
    readBody (some c.bodyLimit) r = .ok bytes := by
  unfold readBody
  rw [hb]
  exact if_pos (admitsLength_of_lt hsmall)

/-- The limit makes no difference to what is done, or all that is done is to refuse. -/
theorem answer_cases {c : Config} {site : Site} {now : Int64}
    (hs : s = ⟨c, site, some c.bodyLimit, now⟩) (hr : s.resource? r = some .sign)
    (hm : r.method = "POST") (log : Metrics) :
    s.answer log r = s.unlimited.answer log r ∨
      (s.answer log r).EndsAtOnce invalidInput ∧
        (s.unlimited.answer log r).EndsAtOnce invalidInput := by
  have hr' : s.unlimited.resource? r = some .sign := hr
  cases hb : r.body with
  | broken =>
      have hbroken : ∀ limit, readSubmission limit r = .error .malformedBody := by
        intro limit
        unfold readSubmission readBody
        rw [hb]
        rfl
      exact .inr ⟨endsAtOnce_answer hr hm log (endsAtOnce_outcome_of_error (hbroken _)),
        endsAtOnce_answer hr' hm log (endsAtOnce_outcome_of_error (hbroken _))⟩
  | complete bytes =>
      by_cases hsmall : bytes.length < c.maxRequestBytes.toNat
      · -- below the greatest size both read the same bytes, and go on with them
        have hread : readSubmission s.bodyLimit r = readSubmission none r := by
          have hnone : readBody none r = .ok bytes := by
            unfold readBody
            rw [hb]
            rfl
          unfold readSubmission
          rw [hs, readBody_of_small hb hsmall, hnone]
        refine .inl ?_
        have houtcome : s.outcome r = s.unlimited.outcome r := by
          unfold outcome
          rw [hread]
          rfl
        rw [answer_eq hr hm, answer_eq hr' hm]
        unfold answerSubmission
        rw [houtcome]
      · -- a larger one is refused by the transport or by the check of its size, with one answer
        have hlarge : s.config.maxRequestBytes.toNat ≤ bytes.length := by
          rw [hs]
          exact Nat.le_of_not_lt hsmall
        obtain ⟨fault, h⟩ := endsAtOnce_outcome_of_large hb hlarge
        obtain ⟨fault', h'⟩ := endsAtOnce_outcome_of_large (s := s.unlimited) hb hlarge
        exact .inr ⟨endsAtOnce_answer hr hm log h, endsAtOnce_answer hr' hm log h'⟩

end Service

/-! ## Deployments -/

namespace Deployment

open Service

variable {d : Deployment} {r : Http.Request}

/-- A body that is too large is refused, and no more is done. -/
theorem respond_of_large {bytes : List UInt8} (hr : d.service.resource? r = some .sign)
    (hm : r.method = "POST") (hb : r.body = .complete bytes)
    (hlarge : d.config.maxRequestBytes.toNat ≤ bytes.length) :
    ∃ metrics, respond r d = (invalidInput, { d with metrics }) := by
  obtain ⟨fault, houtcome⟩ := endsAtOnce_outcome_of_large (s := d.service) hb hlarge
  exact perform_of_endsAtOnce (endsAtOnce_answer hr hm d.metrics houtcome) d

/-- **A service answers as it would without a limit on bodies.** Whatever the configuration and
whatever its collaborators reply and in which order, a submission leads to the same calls and is
given the same response; on a deployment, all that may differ are the events that are noted. A body
that is not below the greatest size is refused as invalid, with nobody asked and nothing changed. A
body that is below it is read. -/
theorem answers_as_unlimited (hr : d.service.resource? r = some .sign) (hm : r.method = "POST") :
    (∀ log trace response, (d.service.answer log r).Yields trace response ↔
      (d.service.unlimited.answer log r).Yields trace response) ∧
    (∃ metrics, perform (d.service.unlimited.answer d.metrics r) d =
      ((respond r d).1, { (respond r d).2 with metrics })) ∧
    (∀ bytes, r.body = .complete bytes → d.config.maxRequestBytes.toNat ≤ bytes.length →
      (∀ log trace response, (d.service.answer log r).Yields trace response →
        trace = [] ∧ response = invalidInput) ∧
      ∃ metrics, respond r d = (invalidInput, { d with metrics })) ∧
    ∀ bytes, r.body = .complete bytes → bytes.length < d.config.maxRequestBytes.toNat →
      readBody d.service.bodyLimit r = .ok bytes := by
  have hcases := answer_cases (s := d.service) rfl hr hm
  have hrespond : respond r d = perform (d.service.answer d.metrics r) d := rfl
  refine ⟨?_, ?_, ?_, ?_⟩
  · intro log trace response
    rcases hcases log with heq | ⟨h, h'⟩
    · rw [heq]
    · rw [h.yields_iff, h'.yields_iff]
  · rw [hrespond]
    rcases hcases d.metrics with heq | ⟨h, h'⟩
    · rw [heq]
      exact ⟨_, rfl⟩
    · obtain ⟨metrics, hd⟩ := perform_of_endsAtOnce h d
      obtain ⟨metrics', hd'⟩ := perform_of_endsAtOnce h' d
      rw [hd, hd']
      exact ⟨_, rfl⟩
  · intro bytes hb hlarge
    obtain ⟨fault, houtcome⟩ := endsAtOnce_outcome_of_large (s := d.service) hb hlarge
    exact ⟨fun log trace response hy => (endsAtOnce_answer hr hm log houtcome).yields_iff.1 hy,
      respond_of_large hr hm hb hlarge⟩
  · intro bytes hb hsmall
    exact readBody_of_small hb hsmall

/-- A response by itself. Stated for any pair, so that no response has to be evaluated. -/
theorem response_eq {result : Http.Response × Deployment} {response : Http.Response}
    {left : Deployment} (h : result = (response, left)) : result.1 = response := by
  rw [h]

/-- The request for a rehearsal, with nothing but white space as its body. -/
def blankPost (length : Nat) : Http.Request :=
  { rehearsedPost with body := .complete (List.replicate length 0x20) }

/-- With the standard configuration the request for a rehearsal is granted, and 4096 bytes are
refused, with or without a limit. -/
theorem answers_as_unlimited_of_rehearsal :
    let d := rehearsal .empty (some 5)
    d.service.resource? rehearsedPost = some .sign ∧ (respond rehearsedPost d).1.status = 200 ∧
      (perform (d.service.unlimited.answer d.metrics rehearsedPost) d).1 =
        (respond rehearsedPost d).1 ∧
      (∃ metrics, respond (blankPost 4096) d = (invalidInput, { d with metrics })) ∧
      (perform (d.service.unlimited.answer d.metrics (blankPost 4096)) d).1 = invalidInput := by
  intro d
  obtain ⟨request, hs⟩ := exists_rehearsed_admitted
  have hd : Rehearses d := rehearses_rehearsal .empty (some 5)
  have hquota : d.quotaOf request.account = .ok ⟨0, 5⟩ := quotaOf_rehearsal .empty 5 _
  have hstatus : (respond rehearsedPost d).1.status = 200 :=
    hd.status_respond rfl hs (accepts_of_acceptAll rfl _ _ _) (by rw [hquota]; rfl) rfl rfl
  have hr : d.service.resource? rehearsedPost = some .sign := hd.resource rfl
  have hblank : d.service.resource? (blankPost 4096) = some .sign := hd.resource rfl
  obtain ⟨_, ⟨metrics, h⟩, _⟩ := answers_as_unlimited hr rfl
  obtain ⟨_, ⟨metrics', h'⟩, hlarge, _⟩ := answers_as_unlimited hblank rfl
  obtain ⟨_, metrics'', hrefused⟩ := hlarge _ rfl (by rw [List.length_replicate]; decide)
  exact ⟨hr, hstatus, response_eq h, ⟨metrics'', hrefused⟩,
    (response_eq h').trans (response_eq hrefused)⟩

end Deployment

end BlindSign

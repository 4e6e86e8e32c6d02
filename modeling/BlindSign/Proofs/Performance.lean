import BlindSign.Proofs.Deployment
import BlindSign.Proofs.Ledger
import BlindSign.Proofs.Transcript

set_option autoImplicit false

/-! # What a deployment performs

The outcome of each part of signing on a deployment, from the replies that the deployment gives, and
what is left of the deployment after it. Parts that do not write change only the client of the chain
and the logs (`Quiet`).
-/

namespace BlindSign

/-- The limit on bodies is not below the size that a request must stay below. -/
theorem Config.maxRequestBytes_le_bodyLimit (c : Config) :
    c.maxRequestBytes.toNat ≤ c.bodyLimit.toNat := by
  have hsize := c.maxRequestBytes.toNat_lt_size
  unfold Config.bodyLimit
  split
  · next h =>
      have hfour : (4 * c.maxRequestBytes).toNat = 4 * c.maxRequestBytes.toNat := by
        rw [UInt64.toNat_mul]
        exact Nat.mod_eq_of_lt h
      omega
  · show c.maxRequestBytes.toNat ≤ 0xFFFFFFFFFFFFFFFF
    exact Nat.le_of_lt_succ hsize

theorem Service.admitsLength_of_lt {c : Config} {n : Nat} (h : n < c.maxRequestBytes.toNat) :
    admitsLength (some c.bodyLimit) n = true :=
  decide_eq_true (Nat.le_trans (Nat.le_of_lt h) c.maxRequestBytes_le_bodyLimit)

/-- A request to the resource of signing is a submission. -/
theorem Service.answer_eq {s : Service} {r : Http.Request} (hr : s.resource? r = some .sign)
    (hm : r.method = "POST") (log : Metrics) : s.answer log r = s.answerSubmission r := by
  have ha : Resource.admits .sign r.method = true := by
    rw [hm]
    decide
  unfold Service.answer
  rw [hr]
  exact if_pos ha

namespace Deployment

variable {α β : Type}

/-! ## Single steps -/

theorem perform_pure (a : α) (d : Deployment) : perform (pure a) d = (a, d) := rfl

theorem perform_noting (event : Metric) (d : Deployment) :
    perform (Procedure.noting event) d = ((), { d with metrics := event :: d.metrics }) := rfl

theorem perform_asking (call : Call) (d : Deployment) :
    perform (Procedure.asking call) d = answer call d := rfl

theorem perform_askingBoth (first second : Call) (d : Deployment) :
    perform (Procedure.askingBoth first second) d =
      (((answer first d).1, (answer second (answer first d).2).1),
        (answer second (answer first d).2).2) := rfl

theorem perform_timed (stage : Stage) (p : Procedure α) (d : Deployment) :
    perform (Procedure.timed stage p) d =
      ((perform p d).1,
        { (perform p d).2 with metrics := .stage stage :: (perform p d).2.metrics }) := by
  unfold Procedure.timed
  rw [perform_bind]
  rfl

/-- A procedure without calls changes nothing but the metrics. -/
theorem perform_of_endsAtOnce {p : Procedure α} {a : α} (h : p.EndsAtOnce a) (d : Deployment) :
    ∃ metrics, perform p d = (a, { d with metrics }) := by
  induction h generalizing d with
  | finish a => exact ⟨d.metrics, rfl⟩
  | note event _ ih => exact ih { d with metrics := event :: d.metrics }

/-! ## Parts that do not write -/

/-- Two deployments differ at most in the client of the chain and in the logs. -/
def Quiet (d d' : Deployment) : Prop :=
  ∃ client calls metrics, d' = { d with client, calls, metrics }

theorem Quiet.trans {d d₁ d₂ : Deployment} (h : Quiet d d₁) (h' : Quiet d₁ d₂) : Quiet d d₂ := by
  obtain ⟨_, _, _, rfl⟩ := h
  obtain ⟨client, calls, metrics, rfl⟩ := h'
  exact ⟨client, calls, metrics, rfl⟩

theorem Quiet.database {d d' : Deployment} (h : Quiet d d') : d'.database = d.database := by
  obtain ⟨_, _, _, rfl⟩ := h
  rfl

theorem quiet_answer (call : Call) (hw : call.isWrite = false) (d : Deployment) :
    Quiet d (answer call d).2 := by
  obtain ⟨client, calls, h⟩ := answer_snd call d hw
  exact ⟨client, calls, d.metrics, h⟩

/-- The height is read as if the calls in between were not logged. -/
theorem answer_readHeight (request : Admitted) (d : Deployment) :
    (answer .readHeight (answer (.readQuota request.account request.phoneHash) d).2).1 =
      d.heightOf request.account := by
  rw [answer_readQuota]
  have hlogged := @height_congr (allowance request.account ((d.logging .quota).logging .count)).2
    ((allowance request.account ((d.logging .quota).logging .count)).2.logging .height) rfl rfl
  exact hlogged.trans (@heightOf_congr d ((d.logging .quota).logging .count) _ rfl rfl)

/-- What is given is read, as long as the count is. -/
theorem quotaOf_of_given {d : Deployment} {account : Account} {total n : Option Int64}
    (hchain : d.chain = .given total n) (hread : d.database.faultOf? (.readCount account) = none) :
    d.quotaOf account =
      Quota.combine (.ok (d.database.ledger.count account)) (givenOr total) := by
  unfold quotaOf
  rw [Database.execute_of_works hread, allowance_eq, hchain]
  rfl

theorem heightOf_of_given {d : Deployment} {account : Account} {total n : Option Int64}
    (hchain : d.chain = .given total n) : d.heightOf account = givenOr n := by
  unfold heightOf
  rw [allowance_eq, hchain, height_eq, hchain]

theorem perform_readStanding (request : Admitted) (d : Deployment) :
    (perform (Signing.readStanding request) d).1 =
        .ofReplies (d.quotaOf request.account) (d.heightOf request.account) ∧
      Quiet d (perform (Signing.readStanding request) d).2 := by
  have hq : Quiet d (answer (.readQuota request.account request.phoneHash) d).2 :=
    quiet_answer _ rfl d
  have hh := quiet_answer .readHeight rfl
    (answer (.readQuota request.account request.phoneHash) d).2
  have hquota : (answer (.readQuota request.account request.phoneHash) d).1 =
      d.quotaOf request.account := by
    rw [answer_readQuota]
  rw [← answer_readHeight, ← hquota]
  unfold Signing.readStanding
  rw [perform_bind, perform_timed, perform_bind, perform_askingBoth, perform_pure]
  dsimp only
  split
  · rw [perform_bind, perform_noting]
    exact ⟨rfl, (hq.trans hh).trans ⟨_, _, _, rfl⟩⟩
  · exact ⟨rfl, (hq.trans hh).trans ⟨_, _, _, rfl⟩⟩

def signed (d : Deployment) (query : BlindedQuery) : Except Refusal PartialSignature :=
  match d.shareOf with
  | .error fault => .error (.keyUnavailable fault)
  | .ok share => (d.engine query share).mapError .unsigned

theorem perform_produceSignature (query : BlindedQuery) (d : Deployment) :
    (perform (Signing.produceSignature query) d).1 = d.signed query ∧
      Quiet d (perform (Signing.produceSignature query) d).2 := by
  unfold Signing.produceSignature signed
  rw [perform_timed, perform_bind, perform_asking, answer_loadKey]
  cases d.shareOf with
  | error fault => exact ⟨rfl, _, _, _, rfl⟩
  | ok share =>
      dsimp only
      rw [perform_bind, perform_asking, answer_sign]
      dsimp only [logging]
      cases d.engine query share with
      | error fault => exact ⟨rfl, _, _, _, rfl⟩
      | ok signature => exact ⟨rfl, _, _, _, rfl⟩

/-! ## Entering -/

/-- What is replied to the recording of a request, and the database after it. -/
def recorded (d : Deployment) (request : Admitted) : Except StoreFault Unit × Database :=
  d.database.execute (.addRecord request.fingerprint (recordOf request d.clock))

/-- What is replied to the counting of a query after the recording of its request, and the database
after it. -/
def counted (d : Deployment) (request : Admitted) : Except StoreFault Unit × Database :=
  (d.recorded request).2.execute (.addCount request.account)

theorem perform_enter (request : Admitted) (d : Deployment) :
    (perform (Signing.enter request) d).1 =
        ⟨(if (d.recorded request).1.isOk then [] else [.notRecorded]) ++
          (if (d.counted request).1.isOk then [] else [.notCounted]),
          (d.counted request).1.isOk⟩ ∧
      (perform (Signing.enter request) d).2.database = (d.counted request).2 := by
  unfold Signing.enter
  rw [perform_bind, perform_timed, perform_askingBoth]
  exact ⟨rfl, rfl⟩

/-- What becomes of the record and the count of a request, and the database after it. -/
def entered (d : Deployment) (request : Admitted) : Signing.Entry × Database :=
  match (d.database.execute (.findRecord request.fingerprint)).1 with
  | .ok true => (⟨[.duplicate], false⟩, d.database)
  | _ =>
    (⟨(if (d.recorded request).1.isOk then [] else [.notRecorded]) ++
      (if (d.counted request).1.isOk then [] else [.notCounted]),
      (d.counted request).1.isOk⟩, (d.counted request).2)

theorem perform_enterOnce (request : Admitted) (d : Deployment) :
    (perform (Signing.enterOnce request) d).1 = (d.entered request).1 ∧
      (perform (Signing.enterOnce request) d).2.database = (d.entered request).2 := by
  unfold Signing.enterOnce entered
  rw [perform_bind, perform_asking, answer_findRecord]
  cases (d.database.execute (.findRecord request.fingerprint)).1 with
  | error fault => exact perform_enter request (d.logging .findRecord)
  | ok found =>
      cases found with
      | false => exact perform_enter request (d.logging .findRecord)
      | true => exact ⟨rfl, rfl⟩

section

variable {request : Admitted} {d : Deployment}

/-- What is on record is a duplicate. -/
theorem entered_of_hasRecord (hfind : d.database.faultOf? (.findRecord request.fingerprint) = none)
    (h : d.database.ledger.hasRecord request.fingerprint = true) :
    d.entered request = (⟨[.duplicate], false⟩, d.database) := by
  have hfound : (d.database.execute (.findRecord request.fingerprint)).1 = .ok true := by
    rw [Database.execute_of_works hfind]
    exact congrArg Except.ok h
  unfold entered
  rw [hfound]

/-- What is not on record is recorded and counted. -/
theorem entered_of_new {l : Ledger}
    (hworks : ∀ s, s.kind ≠ .readCount → d.database.faultOf? s = none)
    (h : d.database.ledger.hasRecord request.fingerprint = false)
    (hl : (d.database.ledger.addRecord request.fingerprint
      (recordOf request d.clock)).increment? request.account = some l) :
    d.entered request = (⟨[], true⟩, { d.database with ledger := l }) := by
  have hfound : (d.database.execute (.findRecord request.fingerprint)).1 = .ok false := by
    rw [Database.execute_of_works (hworks _ (by simp [Statement.kind]))]
    exact congrArg Except.ok h
  have hrecorded : d.recorded request = (.ok (), { d.database with
      ledger := d.database.ledger.addRecord request.fingerprint (recordOf request d.clock) }) :=
    Database.execute_of_works (hworks _ (by simp [Statement.kind]))
  -- the faults do not depend on the ledger
  have hworks' : (d.recorded request).2.faultOf? (.addCount request.account) = none := by
    rw [hrecorded]
    exact hworks (.addCount request.account) (by simp [Statement.kind])
  have hcounted : d.counted request = (.ok (), { d.database with ledger := l }) := by
    unfold counted
    rw [Database.execute_of_works hworks', hrecorded]
    simp only [Ledger.execute, hl]
  unfold entered
  rw [hfound, hrecorded, hcounted]
  rfl

/-- As long as the count of the account is not at its limit, that succeeds. -/
theorem exists_entered_of_new (hworks : ∀ s, s.kind ≠ .readCount → d.database.faultOf? s = none)
    (h : d.database.ledger.hasRecord request.fingerprint = false)
    (hcount : d.database.ledger.count request.account < Int64.maxValue) :
    ∃ l, d.entered request = (⟨[], true⟩, { d.database with ledger := l }) ∧
      l.records = (d.database.ledger.addRecord request.fingerprint
        (recordOf request d.clock)).records ∧
      l.hasRecord request.fingerprint = true ∧
      l.count request.account = d.database.ledger.count request.account + 1 := by
  obtain ⟨l, hl⟩ := Ledger.exists_increment? (l := d.database.ledger.addRecord request.fingerprint
    (recordOf request d.clock)) (a := request.account) hcount
  refine ⟨l, entered_of_new hworks h hl, ?_, ?_, ?_⟩
  · rw [(Ledger.increment?_eq_some hl).2]
  · simp [Ledger.hasRecord_increment? hl, Ledger.hasRecord_addRecord]
  · rw [Ledger.count_increment? hl, if_pos rfl, Ledger.count_addRecord]

end

/-! ## Granting -/

section

variable {request : Admitted} {d : Deployment}

theorem perform_grant_of_exhausted {quota : Quota} (hq : d.quotaOf request.account = .ok quota)
    (hx : quota.isExhausted = true) :
    ∃ height, (perform (Signing.grant request) d).1 = .error (.exhausted quota height) ∧
      (perform (Signing.grant request) d).2.database = d.database := by
  obtain ⟨hs, hquiet⟩ := perform_readStanding request d
  unfold Signing.grant
  rw [perform_bind, hs, hq, Signing.Standing.exhausted?_of_isExhausted _ hx]
  exact ⟨_, rfl, hquiet.database⟩

/-- The grant of a request: what was read of the quota and the height, and how the request was
entered. -/
def grantOf (d : Deployment) (request : Admitted) (signature : PartialSignature) : Grant where
  signature
  quota := Signing.reportedQuota (d.quotaOf request.account).toOption
    (d.entered request).1.isCounted
  height := (d.heightOf request.account).toOption.getD unknown
  warnings :=
    (Signing.Standing.ofReplies (d.quotaOf request.account)
      (d.heightOf request.account)).warnings ++ (d.entered request).1.warnings

/-- Where quota and height are read, the warnings are those of the entry. -/
theorem warnings_grantOf {quota : Quota} {n : Int64} (hq : d.quotaOf request.account = .ok quota)
    (hn : d.heightOf request.account = .ok n) (signature : PartialSignature) :
    (d.grantOf request signature).warnings = (d.entered request).1.warnings := by
  unfold grantOf
  rw [hq, hn]
  rfl

/-- Where the quota cannot be read, the first warning is of that. -/
theorem warnings_grantOf_of_unread {fault : QuotaFault}
    (hq : d.quotaOf request.account = .error fault) (signature : PartialSignature) :
    (d.grantOf request signature).warnings = .chainUnread :: (d.entered request).1.warnings := by
  unfold grantOf
  rw [hq]
  rfl

/-- The logs matter neither to the quota that is read nor to the grant. -/
theorem quotaOf_logs (d : Deployment) (account : Account) (calls : List Collaborator)
    (metrics : Metrics) : quotaOf { d with calls, metrics } account = d.quotaOf account :=
  congrArg (Quota.combine _) (allowance_congr account rfl rfl)

theorem grantOf_logs (d : Deployment) (request : Admitted) (signature : PartialSignature)
    (calls : List Collaborator) (metrics : Metrics) :
    grantOf { d with calls, metrics } request signature = d.grantOf request signature := by
  unfold grantOf
  rw [quotaOf_logs, @heightOf_congr d { d with calls, metrics } _ rfl rfl]
  rfl

/-- On a quota that is not exhausted the query is signed, and then the request is entered. -/
theorem perform_grant (hq : (d.quotaOf request.account).toOption.any Quota.isExhausted = false) :
    match d.signed request.query with
    | .error refusal => (perform (Signing.grant request) d).1 = .error refusal
    | .ok signature =>
        (perform (Signing.grant request) d).1 = .ok (d.grantOf request signature) ∧
          (perform (Signing.grant request) d).2.database = (d.entered request).2 := by
  obtain ⟨hs, hquiet⟩ := perform_readStanding request d
  obtain ⟨hsigned, hquiet'⟩ := perform_produceSignature request.query
    (perform (Signing.readStanding request) d).2
  -- reading the quota changes nothing that signing depends on
  have hsame : (perform (Signing.readStanding request) d).2.signed request.query =
      d.signed request.query := by
    obtain ⟨_, _, _, h⟩ := hquiet
    rw [h]
    rfl
  rw [hsame] at hsigned
  unfold Signing.grant
  rw [perform_bind, hs, Signing.Standing.exhausted?_eq_none _ hq, perform_bind, hsigned]
  cases d.signed request.query with
  | error refusal => rfl
  | ok signature =>
      obtain ⟨client, calls, metrics, hd⟩ := hquiet.trans hquiet'
      obtain ⟨hentry, hdatabase⟩ := perform_enterOnce request
        { d with client := client, calls := calls, metrics := metrics }
      dsimp only
      rw [perform_bind, perform_pure, hd, hentry]
      exact ⟨rfl, hdatabase⟩

/-- What is admitted is authenticated, and then granted or refused. -/
theorem perform_procedure {limits : Limits} {now : Int64} {s : Submission}
    (hs : Admitted.ofRequest limits now s.body.length s.request = .ok request) :
    ∃ calls metrics, ChecksOnly d.calls calls ∧ perform (Signing.procedure limits now s) d =
      perform (if d.accepts request.account s.body s.authorization then Signing.grant request
        else return .error .unauthenticated) { d with calls, metrics } := by
  have hgates : ∀ d : Deployment, ∃ calls metrics, ChecksOnly d.calls calls ∧
      perform (Signing.gates limits now s) d =
        perform (if d.accepts request.account s.body s.authorization then Signing.grant request
          else return .error .unauthenticated) { d with calls, metrics } := by
    intro d
    obtain ⟨calls, hchecks, ha⟩ := answer_authenticate request s.body s.authorization d
    refine ⟨calls, .stage .authentication :: d.metrics, hchecks, ?_⟩
    unfold Signing.gates
    rw [hs]
    dsimp only
    rw [perform_bind, perform_timed, perform_asking, ha]
  rw [Signing.procedure_eq]
  split
  · exact hgates { d with metrics := .missingSession :: d.metrics }
  · exact hgates d

section

variable {limits : Limits} {now : Int64} {s : Submission}
  (hs : Admitted.ofRequest limits now s.body.length s.request = .ok request)
  (ha : d.accepts request.account s.body s.authorization = true)

include hs ha

theorem perform_procedure_of_exhausted {quota : Quota}
    (hq : d.quotaOf request.account = .ok quota) (hx : quota.isExhausted = true) :
    ∃ height,
      (perform (Signing.procedure limits now s) d).1 = .error (.exhausted quota height) ∧
        (perform (Signing.procedure limits now s) d).2.database = d.database := by
  obtain ⟨calls, metrics, _, h⟩ := perform_procedure (d := d) hs
  rw [h, if_pos ha]
  exact perform_grant_of_exhausted ((quotaOf_logs d request.account calls metrics).trans hq) hx

/-- What is admitted and authenticated is granted on a quota that is not exhausted, unless signing
fails. -/
theorem perform_procedure_of_not_exhausted
    (hq : (d.quotaOf request.account).toOption.any Quota.isExhausted = false) :
    match d.signed request.query with
    | .error refusal => (perform (Signing.procedure limits now s) d).1 = .error refusal
    | .ok signature =>
        (perform (Signing.procedure limits now s) d).1 = .ok (d.grantOf request signature) ∧
          (perform (Signing.procedure limits now s) d).2.database = (d.entered request).2 := by
  obtain ⟨calls, metrics, _, h⟩ := perform_procedure (d := d) hs
  have hgrant := @perform_grant request { d with calls := calls, metrics := metrics }
    (by rw [quotaOf_logs]; exact hq)
  simp only [grantOf_logs] at hgrant
  rw [h, if_pos ha]
  exact hgrant

end

end

/-! ## Submissions over HTTP -/

/-- The outcome of the submission that a request holds, and the deployment after it. -/
def outcome (r : Http.Request) (d : Deployment) : Except Refusal Grant × Deployment :=
  perform (d.service.outcome r) { d with metrics := .submission :: d.metrics }

/-- What is sent to the resource of signing is answered by its outcome, and only noted after it. -/
theorem exists_respond_eq {r : Http.Request} {d : Deployment}
    (hr : d.service.resource? r = some .sign) (hm : r.method = "POST") :
    ∃ metrics, respond r d =
      (Service.outcomeResponse (outcome r d).1, { (outcome r d).2 with metrics }) := by
  have h : respond r d = perform (d.service.answer d.metrics r) d := rfl
  rw [h, Service.answer_eq hr hm]
  unfold Service.answerSubmission
  rw [perform_bind, perform_noting, perform_bind]
  exact ⟨_, rfl⟩

theorem respond_eq {r : Http.Request} {d : Deployment}
    (hr : d.service.resource? r = some .sign) (hm : r.method = "POST") :
    (respond r d).1 = Service.outcomeResponse (outcome r d).1 ∧
      (respond r d).2.database = (outcome r d).2.database := by
  obtain ⟨metrics, h⟩ := exists_respond_eq hr hm
  rw [h]
  exact ⟨rfl, rfl⟩

theorem respond_of_grant {r : Http.Request} {d : Deployment} {g : Grant}
    (hr : d.service.resource? r = some .sign) (hm : r.method = "POST")
    (ho : (outcome r d).1 = .ok g) : (respond r d).1 = .json 200 g.answer.body := by
  rw [(respond_eq hr hm).1, ho]
  rfl

/-- No refusal is answered with the status 200. -/
theorem status_refusalResponse (refusal : Refusal) :
    (Service.refusalResponse refusal).status ≠ 200 := by
  intro h
  cases refusal with
  | _ => cases h

/-- Only a grant is answered with the status 200. -/
theorem exists_grant_of_status {r : Http.Request} {d : Deployment}
    (hr : d.service.resource? r = some .sign) (hm : r.method = "POST")
    (h : (respond r d).1.status = 200) :
    ∃ g, (outcome r d).1 = .ok g ∧ (respond r d).1 = .json 200 g.answer.body := by
  have hresponse := (respond_eq hr hm).1
  rw [hresponse] at h ⊢
  cases ho : (outcome r d).1 with
  | error refusal =>
      rw [ho] at h
      exact absurd h (status_refusalResponse refusal)
  | ok g => exact ⟨g, rfl, rfl⟩

section

variable {r : Http.Request} {d : Deployment} {s : Submission} {request : Admitted}

theorem service_bodyLimit (d : Deployment) : d.service.bodyLimit = some d.config.bodyLimit := rfl

theorem service_outcome_eq (hr : Service.readSubmission (some d.config.bodyLimit) r = .ok s) :
    d.service.outcome r = Signing.procedure d.config.limits d.clock.millis s := by
  unfold Service.outcome
  rw [service_bodyLimit, hr]
  rfl

theorem outcome_eq (hr : Service.readSubmission (some d.config.bodyLimit) r = .ok s)
    (hs : Admitted.ofRequest d.config.limits d.clock.millis s.body.length s.request =
      .ok request) :
    ∃ calls metrics, ChecksOnly d.calls calls ∧ outcome r d =
      perform (if d.accepts request.account s.body s.authorization then Signing.grant request
        else return .error .unauthenticated) { d with calls, metrics } := by
  unfold outcome
  rw [service_outcome_eq hr]
  exact perform_procedure (d := { d with metrics := .submission :: d.metrics }) hs

/-- A submission is read, admitted and authenticated, or it is refused as invalid or unauthenticated
with nothing done but to ask about the caller. -/
theorem outcome_cases_early (r : Http.Request) (d : Deployment) :
    (∃ s request, Service.readSubmission (some d.config.bodyLimit) r = .ok s ∧
      Admitted.ofRequest d.config.limits d.clock.millis s.body.length s.request = .ok request ∧
      d.accepts request.account s.body s.authorization = true) ∨
    ∃ refusal calls metrics, (refusal = .unauthenticated ∨ ∃ fault, refusal = .invalid fault) ∧
      ChecksOnly d.calls calls ∧ outcome r d = (.error refusal, { d with calls, metrics }) := by
  -- the three gates before the quota, in their order
  cases hr : Service.readSubmission (some d.config.bodyLimit) r with
  | error fault =>
      have h : d.service.outcome r = return .error (.invalid fault) := by
        unfold Service.outcome
        rw [service_bodyLimit, hr]
      refine .inr ⟨.invalid fault, d.calls, .submission :: d.metrics, .inr ⟨_, rfl⟩, .refl _, ?_⟩
      unfold outcome
      rw [h]
      rfl
  | ok s =>
      cases hs : Admitted.ofRequest d.config.limits d.clock.millis s.body.length s.request with
      | error fault =>
          obtain ⟨metrics, h⟩ := perform_of_endsAtOnce (Signing.endsAtOnce_procedure hs)
            { d with metrics := .submission :: d.metrics }
          refine .inr ⟨.invalid fault, d.calls, metrics, .inr ⟨_, rfl⟩, .refl _, ?_⟩
          unfold outcome
          rw [service_outcome_eq hr]
          exact h
      | ok request =>
          cases ha : d.accepts request.account s.body s.authorization with
          | true => exact .inl ⟨s, request, rfl, hs, ha⟩
          | false =>
              obtain ⟨calls, metrics, hchecks, h⟩ := outcome_eq hr hs
              refine .inr ⟨.unauthenticated, calls, metrics, .inl rfl, hchecks, ?_⟩
              rw [h, ha]
              rfl

/-- A submission is read, admitted and authenticated, or it is refused with nothing done but to ask
about the caller. -/
theorem outcome_cases (r : Http.Request) (d : Deployment) :
    (∃ s request, Service.readSubmission (some d.config.bodyLimit) r = .ok s ∧
      Admitted.ofRequest d.config.limits d.clock.millis s.body.length s.request = .ok request ∧
      d.accepts request.account s.body s.authorization = true) ∨
    ∃ refusal calls metrics, ChecksOnly d.calls calls ∧
      outcome r d = (.error refusal, { d with calls, metrics }) :=
  (outcome_cases_early r d).imp_right fun ⟨refusal, calls, metrics, _, h⟩ =>
    ⟨refusal, calls, metrics, h⟩

/-- A submission that is granted was read, admitted and authenticated. -/
theorem exists_of_outcome_ok {g : Grant} (hg : (outcome r d).1 = .ok g) :
    ∃ s request, Service.readSubmission (some d.config.bodyLimit) r = .ok s ∧
      Admitted.ofRequest d.config.limits d.clock.millis s.body.length s.request = .ok request ∧
      d.accepts request.account s.body s.authorization = true := by
  rcases outcome_cases r d with h | ⟨refusal, calls, metrics, _, h⟩
  · exact h
  · rw [h] at hg
    cases hg

variable (hr : Service.readSubmission (some d.config.bodyLimit) r = .ok s)
  (hs : Admitted.ofRequest d.config.limits d.clock.millis s.body.length s.request = .ok request)
  (ha : d.accepts request.account s.body s.authorization = true)

include hr hs ha

theorem outcome_of_exhausted {quota : Quota} (hq : d.quotaOf request.account = .ok quota)
    (hx : quota.isExhausted = true) :
    ∃ height, (outcome r d).1 = .error (.exhausted quota height) ∧
      (outcome r d).2.database = d.database := by
  unfold outcome
  rw [service_outcome_eq hr]
  exact @perform_procedure_of_exhausted request { d with metrics := .submission :: d.metrics }
    _ _ _ hs ha _ ((quotaOf_logs d request.account d.calls _).trans hq) hx

/-- The outcome on a quota that is not exhausted. -/
theorem outcome_of_not_exhausted
    (hq : (d.quotaOf request.account).toOption.any Quota.isExhausted = false) :
    match d.signed request.query with
    | .error refusal => (outcome r d).1 = .error refusal
    | .ok signature =>
        (outcome r d).1 = .ok (d.grantOf request signature) ∧
          (outcome r d).2.database = (d.entered request).2 := by
  have hgrant := @perform_procedure_of_not_exhausted request
    { d with metrics := .submission :: d.metrics } _ _ _ hs ha
    (by rw [quotaOf_logs]; exact hq)
  unfold outcome
  rw [service_outcome_eq hr]
  simp only [grantOf_logs] at hgrant
  exact hgrant

end

/-- What it means that a request was granted: the gates that it has passed, and how it was
entered. -/
structure Granted (r : Http.Request) (d : Deployment) (s : Submission) (request : Admitted)
    (g : Grant) : Prop where
  read : Service.readSubmission (some d.config.bodyLimit) r = .ok s
  admitted : Admitted.ofRequest d.config.limits d.clock.millis s.body.length s.request =
    .ok request
  accepted : d.accepts request.account s.body s.authorization = true
  opened : (d.quotaOf request.account).toOption.any Quota.isExhausted = false
  signed : d.signed request.query = .ok g.signature
  granted : g = d.grantOf request g.signature
  left : (outcome r d).2.database = (d.entered request).2

namespace Granted

variable {r : Http.Request} {d : Deployment} {s : Submission} {request : Admitted} {g : Grant}

theorem reported (h : Granted r d s request g) :
    g.quota = Signing.reportedQuota (d.quotaOf request.account).toOption
      (d.entered request).1.isCounted :=
  congrArg Grant.quota h.granted

theorem warned (h : Granted r d s request g) :
    ∀ w ∈ (d.entered request).1.warnings, w ∈ g.warnings := by
  intro w hw
  rw [h.granted]
  exact List.mem_append_right _ hw

end Granted

theorem exists_granted {r : Http.Request} {d : Deployment} {g : Grant}
    (hg : (outcome r d).1 = .ok g) : ∃ s request, Granted r d s request g := by
  obtain ⟨s, request, hr, hs, ha⟩ := exists_of_outcome_ok hg
  -- on an exhausted quota it would have been refused
  have hopen : (d.quotaOf request.account).toOption.any Quota.isExhausted = false := by
    cases hq : d.quotaOf request.account with
    | error fault => rfl
    | ok quota =>
        cases hx : quota.isExhausted with
        | false => exact hx
        | true =>
            obtain ⟨height, ho, _⟩ := outcome_of_exhausted hr hs ha hq hx
            rw [ho] at hg
            cases hg
  have ho := outcome_of_not_exhausted hr hs ha hopen
  cases hsigned : d.signed request.query with
  | error refusal =>
      rw [hsigned] at ho
      rw [show (outcome r d).1 = .error refusal from ho] at hg
      cases hg
  | ok signature =>
      rw [hsigned] at ho
      obtain ⟨ho, hdatabase⟩ := ho
      rw [ho] at hg
      obtain rfl := Except.ok.inj hg
      exact ⟨s, request, hr, hs, ha, hopen, hsigned, rfl, hdatabase⟩

end Deployment

end BlindSign

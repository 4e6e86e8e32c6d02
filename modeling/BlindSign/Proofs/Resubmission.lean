import BlindSign.Proofs.Rehearsals
import BlindSign.Proofs.Warnings

set_option autoImplicit false

/-! # Submitting a request again

A request that was granted and recorded is granted again with the same signature, and neither
recorded nor counted again. But the quota is looked at before the record: a request that took the
last query of its account is refused when it is submitted again. And the quota is read anew, so the
two answers report one quota only if the first one could be read.
-/

namespace BlindSign

namespace Deployment

/-! ## What the first submission leaves -/

section

variable {d : Deployment} {request : Admitted}

theorem recorded_of_isOk (hok : (d.recorded request).1.isOk = true) :
    (d.recorded request).2 = { d.database with
      ledger := d.database.ledger.addRecord request.fingerprint (recordOf request d.clock) } := by
  unfold recorded at hok ⊢
  rcases Database.execute_addRecord request.fingerprint
    (recordOf request d.clock) d.database with ⟨fault, h⟩ | h
  · rw [h] at hok
    cases hok
  · rw [h]

/-- A request that was recorded is on record, whether or not its query was counted. -/
theorem counted_ledger (hok : (d.recorded request).1.isOk = true) :
    (d.counted request).2.ledger.hasRecord request.fingerprint = true ∧
      (d.counted request).2.ledger.keys = d.database.ledger.keys ∧
      (d.counted request).2.ledger.count request.account =
        if (d.counted request).1.isOk then d.database.ledger.count request.account + 1
        else d.database.ledger.count request.account := by
  unfold counted
  rw [recorded_of_isOk hok]
  obtain ⟨fault, h⟩ | ⟨l, hl, h⟩ := Database.execute_addCount request.account { d.database with
    ledger := d.database.ledger.addRecord request.fingerprint (recordOf request d.clock) }
  · rw [h]
    refine ⟨?_, rfl, rfl⟩
    simp [Ledger.hasRecord_addRecord]
  · rw [h]
    refine ⟨?_, ?_, ?_⟩
    · show l.hasRecord request.fingerprint = true
      simp [Ledger.hasRecord_increment? hl, Ledger.hasRecord_addRecord]
    · show l.keys = d.database.ledger.keys
      rw [(Ledger.increment?_eq_some hl).2]
      rfl
    · show l.count request.account = _
      rw [Ledger.count_increment? hl, if_pos rfl, Ledger.count_addRecord]
      rfl

/-- A request without the warning that it was not recorded is on record, and it was counted as its
entry says. -/
theorem entered_ledger (hw : .notRecorded ∉ (d.entered request).1.warnings) :
    (d.entered request).2.ledger.hasRecord request.fingerprint = true ∧
      (d.entered request).2.ledger.keys = d.database.ledger.keys ∧
      (d.entered request).2.ledger.count request.account =
        if (d.entered request).1.isCounted then d.database.ledger.count request.account + 1
        else d.database.ledger.count request.account := by
  -- without the warning the request was recorded now, unless it had been before
  have hnew : .notRecorded ∉
      ((if (d.recorded request).1.isOk then [] else [.notRecorded]) ++
        (if (d.counted request).1.isOk then [] else [.notCounted]) : List Warning) →
      (d.recorded request).1.isOk = true := by
    intro hw
    cases hok : (d.recorded request).1.isOk with
    | true => rfl
    | false => simp [hok] at hw
  revert hw
  unfold entered
  cases hf : (d.database.execute (.findRecord request.fingerprint)).1 with
  | error fault => exact fun hw => counted_ledger (hnew hw)
  | ok found =>
      cases found with
      | false => exact fun hw => counted_ledger (hnew hw)
      | true =>
          intro _
          rcases d.database.execute_cases (.findRecord request.fingerprint) with ⟨fault, h⟩ | h
          · rw [h] at hf
            cases hf
          · rw [h] at hf
            exact ⟨Except.ok.inj hf, rfl, rfl⟩

end

/-! ## The second submission -/

/-- A deployment to which a request is submitted again after another one has answered it: it is set
up alike, has the ledger that the other one left, works without faults, and reads the same
allowances from the chain; the timestamp of the request is still recent. -/
structure Again (r : Http.Request) (d d' : Deployment) : Prop where
  config : d'.config = d.config
  site : d'.site = d.site
  callers : d'.callers = d.callers
  engine : d'.engine = d.engine
  share : d'.share = d.share
  ledger : d'.database.ledger = (respond r d).2.database.ledger
  works : ∀ s, d'.database.faultOf? s = none
  allowance : ∀ account, (allowance account d').1 = (allowance account d).1
  recent : ∀ s, Service.readSubmission (some d.config.bodyLimit) r = .ok s →
    s.request.timestamp.all (Admitted.isRecent d.config.limits.window d'.clock.millis) = true

section

variable {r : Http.Request} {d d' : Deployment} {request : Admitted}

/-- Who was accepted is accepted again, as long as the keys are the same. -/
theorem accepts_of_works {account : Account} {body : List UInt8} {authorization : Option String}
    (hcallers : d'.callers = d.callers) (hkeys : d'.database.ledger.keys = d.database.ledger.keys)
    (hworks : ∀ s, d'.database.faultOf? s = none)
    (ha : d.accepts account body authorization = true) :
    d'.accepts account body authorization = true := by
  unfold accepts at ha ⊢
  rw [hcallers]
  cases hc : d.callers with
  | acceptAll => rfl
  | refuseAll =>
      rw [hc] at ha
      cases ha
  | signedBody =>
      rw [hc] at ha
      dsimp only at ha ⊢
      cases hsignature : authorization.bind Authorization.signature? with
      | none =>
          rw [hsignature] at ha
          cases ha
      | some signature =>
          rw [hsignature] at ha
          dsimp only at ha ⊢
          -- acceptance shows that the key was read, and now nothing can fail
          rcases d.database.execute_cases (.readKey account) with ⟨fault, h⟩ | h
          · rw [h] at ha
            cases ha
          · have hread : (d'.database.execute (.readKey account)).1 =
                (d.database.execute (.readKey account)).1 := by
              rw [Database.execute_of_works (hworks _), h]
              show Except.ok (d'.database.ledger.registeredKey? account) =
                .ok (d.database.ledger.registeredKey? account)
              unfold Ledger.registeredKey?
              rw [hkeys]
            rw [hread]
            exact ha

theorem Again.quotaOf (h : Again r d d') (account : Account) :
    d'.quotaOf account =
      Quota.combine (.ok (d'.database.ledger.count account))
        (Deployment.allowance account d).1 := by
  unfold Deployment.quotaOf
  rw [h.allowance, Database.execute_of_works (h.works _)]
  rfl

theorem Again.signed (h : Again r d d') (query : BlindedQuery) :
    d'.signed query = d.signed query := by
  unfold Deployment.signed shareOf
  rw [h.share, h.engine]

/-- The first answer reports the quota that is read afterwards, if it could be read. -/
theorem Again.reported (h : Again r d d') {account : Account} {isCounted : Bool}
    (hcount : d'.database.ledger.count account =
      if isCounted then d.database.ledger.count account + 1 else d.database.ledger.count account)
    (hq : (d.quotaOf account).isOk = true ∨ (d'.quotaOf account).isOk = false) :
    Signing.reportedQuota (d.quotaOf account).toOption isCounted =
      Signing.reportedQuota (d'.quotaOf account).toOption false := by
  rw [h.quotaOf, hcount] at *
  unfold Deployment.quotaOf at hq ⊢
  cases ha : (Deployment.allowance account d).1 with
  | error fault =>
      cases (d.database.execute (.readCount account)).1 with
      | error fault => rfl
      | ok count => rfl
  | ok total =>
      rw [ha] at hq
      rcases d.database.execute_cases (.readCount account) with ⟨fault, hr⟩ | hr
      · rw [hr] at hq
        -- hq | the count was not read the first time, and it is read now: neither side holds
        rcases hq with hq | hq
        · cases hq
        · cases hq
      · rw [hr]
        cases isCounted with
        | false => rfl
        | true => rfl

/-- What the first submission establishes for the second one. -/
structure Settled (r : Http.Request) (s : Submission) (request : Admitted) (g : Grant)
    (d d' : Deployment) : Prop where
  read : Service.readSubmission (some d'.config.bodyLimit) r = .ok s
  admitted : Admitted.ofRequest d'.config.limits d'.clock.millis s.body.length s.request =
    .ok request
  accepted : d'.accepts request.account s.body s.authorization = true
  signed : d'.signed request.query = .ok g.signature
  recorded : d'.database.ledger.hasRecord request.fingerprint = true
  /-- The first answer reports the quota as it is afterwards, if it could be read. -/
  reported : (d.quotaOf request.account).isOk = true ∨
      (d'.quotaOf request.account).isOk = false →
    g.quota = Signing.reportedQuota (d'.quotaOf request.account).toOption false

theorem Again.resource (h : Again r d d') (hres : d.service.resource? r = some .sign) :
    d'.service.resource? r = some .sign := by
  have hsame : d'.service.resource? r = d.service.resource? r := by
    show r.path?.bind (fun path => d'.site.lookup path) = _
    rw [h.site]
    rfl
  exact hsame.trans hres

/-- What was granted and recorded settles its second submission. -/
theorem Again.settled {s : Submission} {g : Grant} (h : Again r d d')
    (hres : d.service.resource? r = some .sign) (hm : r.method = "POST")
    (hg : Granted r d s request g) (hrec : .notRecorded ∉ g.warnings) :
    Settled r s request g d d' := by
  have hledger : d'.database.ledger = (d.entered request).2.ledger := by
    rw [h.ledger, (respond_eq hres hm).2, hg.left]
  obtain ⟨hrecord, hkeys, hcount⟩ := entered_ledger fun hw => hrec (hg.warned _ hw)
  rw [← hledger] at hrecord hkeys hcount
  exact {
    read := by
      rw [h.config]
      exact hg.read
    admitted := by
      rw [h.config]
      exact Admitted.ofRequest_of_isRecent hg.admitted (h.recent s hg.read)
    accepted := accepts_of_works h.callers hkeys h.works hg.accepted
    signed := (h.signed request.query).trans hg.signed
    recorded := hrecord
    reported := fun hq => hg.reported.trans (h.reported hcount hq) }

/-- On an exhausted quota the second submission is refused. -/
theorem Settled.respond_of_exhausted {s : Submission} {g : Grant} {quota : Quota}
    (hs : Settled r s request g d d') (hres : d'.service.resource? r = some .sign)
    (hm : r.method = "POST") (hq : d'.quotaOf request.account = .ok quota)
    (hx : quota.isExhausted = true) :
    ∃ height, (respond r d').1 = Service.refusalResponse (.exhausted quota height) ∧
      (respond r d').2.database.ledger = d'.database.ledger := by
  obtain ⟨height, ho, hdatabase⟩ := outcome_of_exhausted hs.read hs.admitted hs.accepted hq hx
  obtain ⟨hresponse, hleft⟩ := respond_eq hres hm
  exact ⟨height, by rw [hresponse, ho]; rfl, by rw [hleft, hdatabase]⟩

/-- Otherwise it is granted as a duplicate. -/
theorem Again.respond_of_not_exhausted {s : Submission} {g : Grant} (h : Again r d d')
    (hres : d'.service.resource? r = some .sign) (hm : r.method = "POST")
    (hs : Settled r s request g d d')
    (hq : (d'.quotaOf request.account).toOption.any Quota.isExhausted = false) :
    (∃ g' : Grant, (respond r d').1 = .json 200 g'.answer.body ∧ g'.signature = g.signature ∧
        g'.quota = Signing.reportedQuota (d'.quotaOf request.account).toOption false ∧
        .duplicate ∈ g'.warnings) ∧
      (respond r d').2.database.ledger = d'.database.ledger := by
  have ho := outcome_of_not_exhausted hs.read hs.admitted hs.accepted hq
  -- the signature is computed again, and the record that the first submission left is found
  rw [hs.signed] at ho
  obtain ⟨ho, hdatabase⟩ := ho
  have hentered := entered_of_hasRecord (h.works _) hs.recorded
  obtain ⟨hresponse, hleft⟩ := respond_eq hres hm
  refine ⟨⟨_, hresponse.trans (congrArg Service.outcomeResponse ho), rfl, ?_, ?_⟩, ?_⟩
  · unfold grantOf
    rw [hentered]
  · unfold grantOf
    rw [hentered]
    exact List.mem_append_right _ List.mem_cons_self
  · rw [hleft, hdatabase, hentered]

end

/-! ## A rehearsal -/

/-- A rehearsal whose database is mended after the first submission. -/
theorem Rehearses.again {d : Deployment} (hd : Rehearses d) {total height : Option Int64}
    (hchain : d.chain = .given total height) (hconnected : d.database.connected = true)
    {request : Admitted} (hs : Admitted.ofRequest Config.standard.limits 0
      rehearsedSubmission.body.length rehearsed = .ok request) :
    Again rehearsedPost d (broken [] (respond rehearsedPost d).2) := by
  have hsame := respond_sameSetup rehearsedPost d
  have hclock := (hsame.rehearses hd).clock
  have hchain' : (respond rehearsedPost d).2.chain = .given total height :=
    (congrArg Deployment.chain hsame).trans hchain
  exact {
    config := (congrArg Deployment.config hsame : (respond rehearsedPost d).2.config = _)
    site := (congrArg Deployment.site hsame : (respond rehearsedPost d).2.site = _)
    callers := (congrArg Deployment.callers hsame : (respond rehearsedPost d).2.callers = _)
    engine := (congrArg Deployment.engine hsame : (respond rehearsedPost d).2.engine = _)
    share := (congrArg Deployment.share hsame : (respond rehearsedPost d).2.share = _)
    ledger := rfl
    works := by
      intro s
      have hmended : (respond rehearsedPost d).2.database.connected = true :=
        (congrArg (fun d : Deployment => d.database.connected) hsame).trans hconnected
      simp [broken, Database.faultOf?, hmended]
    allowance := by
      intro account
      rw [allowance_eq, allowance_eq, hchain, show (broken [] (respond rehearsedPost d).2).chain =
        .given total height from hchain']
    recent := by
      intro s hread
      have hadmitted : Admitted.ofRequest d.config.limits d.clock.millis rehearsed.body.length
          rehearsed = .ok request := by
        rw [hd.config, hd.clock]
        exact hs
      obtain rfl := Except.ok.inj
        ((Service.readSubmission_of_admitted rfl hadmitted).symm.trans hread)
      show rehearsed.timestamp.all (Admitted.isRecent d.config.limits.window
        (respond rehearsedPost d).2.clock.millis) = true
      rw [hclock, hd.config]
      exact (Admitted.ofRequest_eq_ok.1 hs).2.2.2.2.1 }

/-- The first submission is granted without a warning of its entry, recorded and counted. -/
theorem Rehearses.respond_new {d : Deployment} (hd : Rehearses d) {request : Admitted}
    (hs : Admitted.ofRequest Config.standard.limits 0 rehearsedSubmission.body.length rehearsed =
      .ok request)
    (hc : d.callers = .acceptAll)
    (hworks : ∀ s, s.kind ≠ .readCount → d.database.faultOf? s = none)
    (hnew : d.database.ledger.hasRecord request.fingerprint = false)
    (hcount : d.database.ledger.count request.account < Int64.maxValue)
    (hq : (d.quotaOf request.account).toOption.any Quota.isExhausted = false) :
    ∃ g, (outcome rehearsedPost d).1 = .ok g ∧
      Granted rehearsedPost d ⟨rehearsed, rehearsed.body, none⟩ request g ∧
      (respond rehearsedPost d).1 = .json 200 g.answer.body ∧ .notRecorded ∉ g.warnings ∧
      (respond rehearsedPost d).2.database.ledger.count request.account =
        d.database.ledger.count request.account + 1 := by
  obtain ⟨g, ho, hg, hresponse, hleft⟩ := hd.exists_granted_post (r := rehearsedPost) rfl hs
    (accepts_of_acceptAll hc _ _ _) hq rfl rfl
  obtain ⟨l, hentered, _, _, hcounted⟩ := exists_entered_of_new hworks hnew hcount
  refine ⟨g, ho, hg, hresponse, ?_, ?_⟩
  · rw [hg.granted]
    unfold grantOf Signing.Standing.warnings
    rw [hentered]
    split
    · simp
    · simp
  · rw [hleft, hentered]
    exact hcounted

/-! ## Granted again -/

/-- **Submitting again.** A request that was granted and recorded is granted again, with the same
signature and as a duplicate, if the quota leaves a query now, and refused otherwise; the ledger
stays as it is either way. The quota is the count in the ledger and the allowance on the chain, and
the first answer has reported it already, if the quota could be read then or cannot be read now. -/
theorem respond_again {r : Http.Request} {d d' : Deployment}
    (hres : d.service.resource? r = some .sign) (hm : r.method = "POST")
    (hok : (respond r d).1.status = 200) (h : Again r d d') :
    ∃ s request g, Service.readSubmission (some d.config.bodyLimit) r = .ok s ∧
      Admitted.ofRequest d.config.limits d.clock.millis s.body.length s.request = .ok request ∧
      (outcome r d).1 = .ok g ∧ (respond r d).1 = .json 200 g.answer.body ∧
      (.notRecorded ∉ g.warnings →
        let quota := Quota.combine (.ok (d'.database.ledger.count request.account))
          (allowance request.account d).1
        (respond r d').2.database.ledger = d'.database.ledger ∧
        ((d.quotaOf request.account).isOk = true ∨ quota.isOk = false →
          g.quota = Signing.reportedQuota quota.toOption false) ∧
        (∀ q, quota = .ok q → q.isExhausted = true →
          ∃ height, (respond r d').1 = Service.refusalResponse (.exhausted q height)) ∧
        (quota.toOption.any Quota.isExhausted = false →
          ∃ g' : Grant, (respond r d').1 = .json 200 g'.answer.body ∧ g'.signature = g.signature ∧
            g'.quota = Signing.reportedQuota quota.toOption false ∧
            ∃ text, g'.answer.warning = some text ∧
              Warning.duplicate.tag.toList <:+: text.toList)) := by
  obtain ⟨g, hg, hresponse⟩ := exists_grant_of_status hres hm hok
  obtain ⟨s, request, hgranted⟩ := exists_granted hg
  refine ⟨s, request, g, hgranted.read, hgranted.admitted, hg, hresponse, fun hrec => ?_⟩
  -- what is known of the first submission; the quota of the second decides the rest
  have hset : Settled r s request g d d' := h.settled hres hm hgranted hrec
  have hres' := h.resource hres
  rw [← h.quotaOf request.account]
  refine ⟨?_, hset.reported, ?_, ?_⟩
  · cases hquota : d'.quotaOf request.account with
    | error fault =>
        refine (h.respond_of_not_exhausted hres' hm hset ?_).2
        rw [hquota]
        rfl
    | ok quota =>
        cases hx : quota.isExhausted with
        | true =>
            obtain ⟨_, _, hleft⟩ := hset.respond_of_exhausted hres' hm hquota hx
            exact hleft
        | false =>
            refine (h.respond_of_not_exhausted hres' hm hset ?_).2
            rw [hquota]
            exact hx
  · intro quota hquota hx
    obtain ⟨height, hresponse, _⟩ := hset.respond_of_exhausted hres' hm hquota hx
    exact ⟨height, hresponse⟩
  · intro hq
    obtain ⟨⟨g', hresponse, hsignature, hreported, hduplicate⟩, _⟩ :=
      h.respond_of_not_exhausted hres' hm hset hq
    exact ⟨g', hresponse, hsignature, hreported, Warning.tag_infix_iff.2 hduplicate⟩

/-- On an empty ledger a rehearsal is granted twice. -/
theorem respond_again_of_rehearsal :
    let d := broken [] (rehearsal .empty (some 10))
    let d' := broken [] (respond rehearsedPost d).2
    Again rehearsedPost d d' ∧ ∃ g g' : Grant,
      (respond rehearsedPost d).1 = .json 200 g.answer.body ∧
      (respond rehearsedPost d').1 = .json 200 g'.answer.body ∧
      g'.signature = g.signature ∧ g'.quota = g.quota ∧
      (∃ text, g'.answer.warning = some text ∧
        Warning.duplicate.tag.toList <:+: text.toList) ∧
      (respond rehearsedPost d').2.database.ledger = d'.database.ledger := by
  intro d d'
  obtain ⟨request, hs⟩ := exists_rehearsed_admitted
  have hd : Rehearses d := rehearses_broken (rehearses_rehearsal .empty (some 10)) []
  have hagain : Again rehearsedPost d d' := hd.again rfl rfl hs
  have hmade : d.database.ledger.count request.account = 0 := rfl
  have hquota : d.quotaOf request.account = .ok ⟨0, 10⟩ := quotaOf_rehearsal .empty 10 _
  obtain ⟨g, ho, hg, hresponse, hnone, hcount⟩ := hd.respond_new hs rfl (fun _ _ => rfl) rfl
    (by rw [hmade]; decide) (by rw [hquota]; rfl)
  have hok : (respond rehearsedPost d).1.status = 200 := by rw [hresponse]; rfl
  obtain ⟨s, request', g', hread, hadmitted, hg', _, h⟩ :=
    respond_again (hd.resource rfl) rfl hok hagain
  obtain rfl := Except.ok.inj (hg.read.symm.trans hread)
  obtain rfl := Except.ok.inj (hg.admitted.symm.trans hadmitted)
  obtain rfl := Except.ok.inj (ho.symm.trans hg')
  -- one query was counted, and the chain allows ten
  have hafter : Quota.combine (.ok (d'.database.ledger.count request.account))
      (allowance request.account d).1 = .ok ⟨1, 10⟩ := by
    rw [hagain.ledger, hcount, hmade]
    rfl
  rw [hafter] at h
  obtain ⟨hledger, hreported, _, hgranted⟩ := h hnone
  obtain ⟨g', hresponse', hsignature, hreported', hwarning⟩ := hgranted rfl
  have hsame := hreported (.inl (by rw [hquota]; rfl))
  exact ⟨hagain, g, g', hresponse, hresponse', hsignature, hreported'.trans hsame.symm, hwarning,
    hledger⟩

/-- Not every request that was granted and recorded is granted again: one that took the last query
is refused. And not every quota is reported again: one that could not be read is read later. -/
theorem refused_again_of_rehearsal :
    (let d := broken [] (rehearsal (ledgerWith 9) (some 10))
      let d' := broken [] (respond rehearsedPost d).2
      Again rehearsedPost d d' ∧
        (∃ g : Grant, (respond rehearsedPost d).1 = .json 200 g.answer.body ∧
          .notRecorded ∉ g.warnings) ∧
        (respond rehearsedPost d').1.status = 403) ∧
    (let d := broken [.readCount] (rehearsal (ledgerWith 3) (some 10))
      let d' := broken [] (respond rehearsedPost d).2
      Again rehearsedPost d d' ∧ ∃ g g' : Grant,
        (respond rehearsedPost d).1 = .json 200 g.answer.body ∧ .notRecorded ∉ g.warnings ∧
        (respond rehearsedPost d').1 = .json 200 g'.answer.body ∧
        g.quota = .unread ∧ g'.quota = ⟨4, 10⟩) := by
  obtain ⟨request, hs⟩ := exists_rehearsed_admitted
  refine ⟨?_, ?_⟩
  · intro d d'
    have hd : Rehearses d := rehearses_broken (rehearses_rehearsal (ledgerWith 9) (some 10)) []
    have hagain : Again rehearsedPost d d' := hd.again rfl rfl hs
    have hmade : d.database.ledger.count request.account = 9 := count_ledgerWith hs 9
    have hquota : d.quotaOf request.account = .ok ⟨9, 10⟩ := by
      rw [← hmade]
      exact quotaOf_rehearsal (ledgerWith 9) 10 _
    obtain ⟨g, _, hg, hresponse, hnone, hcount⟩ := hd.respond_new hs rfl (fun _ _ => rfl) rfl
      (by rw [hmade]; decide) (by rw [hquota]; rfl)
    have hset := hagain.settled (hd.resource rfl) rfl hg hnone
    -- the tenth query was the last one
    have hafter : d'.quotaOf request.account = .ok ⟨10, 10⟩ := by
      rw [hagain.quotaOf, hagain.ledger, hcount, hmade]
      rfl
    obtain ⟨height, hrefused, _⟩ := hset.respond_of_exhausted
      (hagain.resource (hd.resource rfl)) rfl hafter rfl
    exact ⟨hagain, ⟨g, hresponse, hnone⟩, by rw [hrefused]; rfl⟩
  · intro d d'
    have hd : Rehearses d :=
      rehearses_broken (rehearses_rehearsal (ledgerWith 3) (some 10)) [.readCount]
    have hagain : Again rehearsedPost d d' := hd.again rfl rfl hs
    have hmade : d.database.ledger.count request.account = 3 := count_ledgerWith hs 3
    have hquota : d.quotaOf request.account = .error (.ledger .unreachable) := rfl
    have hworks : ∀ s, s.kind ≠ .readCount → d.database.faultOf? s = none := by
      intro s hkind
      simp [d, broken, rehearsal, Database.faultOf?, hkind]
    obtain ⟨g, _, hg, hresponse, hnone, hcount⟩ := hd.respond_new hs rfl hworks rfl
      (by rw [hmade]; decide) (by rw [hquota]; rfl)
    have hset := hagain.settled (hd.resource rfl) rfl hg hnone
    have hafter : d'.quotaOf request.account = .ok ⟨4, 10⟩ := by
      rw [hagain.quotaOf, hagain.ledger, hcount, hmade]
      rfl
    obtain ⟨⟨g', hresponse', _, hreported', _⟩, _⟩ := hagain.respond_of_not_exhausted
      (hagain.resource (hd.resource rfl)) rfl hset (by rw [hafter]; rfl)
    refine ⟨hagain, g, g', hresponse, hnone, hresponse', ?_, ?_⟩
    · rw [hg.reported, hquota]
      rfl
    · rw [hreported', hafter]
      rfl

end Deployment

end BlindSign

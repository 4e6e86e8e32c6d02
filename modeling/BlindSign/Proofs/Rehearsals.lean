import BlindSign.Proofs.Admission
import BlindSign.Proofs.Performance
import BlindSign.Proofs.Unambiguity

set_option autoImplicit false

/-! # Rehearsals

A deployment is set up for a rehearsal if it has the standard configuration, a key share and the
engine that hashes (`Rehearses`). Whatever its ledger holds, however it checks its callers and
wherever its allowances come from, it grants what it admits and authenticates, unless the quota is
exhausted (`Rehearses.grants`). So a run of a rehearsal is told from the ledger alone, and nothing of
it has to be evaluated but the admission of its request.
-/

namespace BlindSign

/-- A request that is admitted with the body that it is submitted in is read from that body. -/
theorem Service.readSubmission_of_admitted {c : Config} {r : Http.Request} {request : Request}
    {now : Int64} {admitted : Admitted} (hb : r.body = .complete request.body)
    (hs : Admitted.ofRequest c.limits now request.body.length request = .ok admitted) :
    readSubmission (some c.bodyLimit) r =
      .ok ⟨request, request.body, Client.authorizationOf r.headers⟩ := by
  have hsmall : request.body.length < c.maxRequestBytes.toNat :=
    (Nat.le_max_left _ _).trans_lt (Admitted.ofRequest_eq_ok.1 hs).1
  rw [Request.readSubmission_eq hb (admitsLength_of_lt hsmall),
    request.isPresentedBy_body.ofBody?_eq]
  rfl

namespace Deployment

def rehearsedPost : Http.Request where
  method := "POST"
  target := "/sign"
  headers := []
  body := .complete rehearsed.body

/-- A ledger in which the account of the rehearsal has made some queries. -/
def ledgerWith (count : Int64) : Ledger :=
  { Ledger.empty with counts := Table.empty.insert rehearsed.account count }

/-- A deployment whose database fails at some kinds of statement. -/
def broken (kinds : List StatementKind) (d : Deployment) : Deployment :=
  { d with database := { d.database with broken := kinds } }

/-- A deployment is set up for a rehearsal. -/
structure Rehearses (d : Deployment) : Prop where
  config : d.config = .standard
  site : d.site = .standalone
  engine : d.engine = .digest
  share : d.share.isSome = true
  clock : d.clock = ⟨0⟩

/-! ## The request -/

section

variable {request : Admitted}
  (hs : Admitted.ofRequest Config.standard.limits 0 rehearsedSubmission.body.length rehearsed =
    .ok request)

include hs

theorem fingerprint_of_rehearsed : request.fingerprint = rehearsed.fingerprint :=
  (Admitted.ofRequest_eq_ok.1 hs).2.2.2.2.2.1

theorem text_of_rehearsed : request.account.text = rehearsed.account := by
  -- the account of the rehearsal is written as it is normalized
  have hparse : (Account.parse? rehearsed.account).map Account.text = some rehearsed.account := by
    decide +kernel
  rw [(Admitted.ofRequest_eq_ok.1 hs).2.1] at hparse
  exact Option.some.inj hparse

theorem count_ledgerWith (count : Int64) : (ledgerWith count).count request.account = count := by
  have hcounts : (ledgerWith count).counts = Table.empty.insert rehearsed.account count := rfl
  unfold Ledger.count
  rw [text_of_rehearsed hs, hcounts, Table.get?_insert, if_pos rfl]
  rfl

end

/-! ## The deployment -/

section

variable {d d' : Deployment} {request : Admitted}

theorem rehearses_rehearsal (l : Ledger) (total : Option Int64) : Rehearses (rehearsal l total) :=
  ⟨rfl, rfl, rfl, rfl, rfl⟩

theorem quotaOf_rehearsal (l : Ledger) (total : Int64) (account : Account) :
    (rehearsal l (some total)).quotaOf account = .ok ⟨l.count account, total⟩ :=
  @quotaOf_of_given (rehearsal l (some total)) account (some total) (some 100) rfl rfl

theorem rehearses_broken (h : Rehearses d) (kinds : List StatementKind) :
    Rehearses (broken kinds d) :=
  ⟨h.config, h.site, h.engine, h.share, h.clock⟩

theorem SameSetup.rehearses (h : SameSetup d d') (hd : Rehearses d) : Rehearses d' := by
  rw [h]
  exact ⟨hd.config, hd.site, hd.engine, hd.share, hd.clock⟩

theorem accepts_of_acceptAll (h : d.callers = .acceptAll) (account : Account) (body : List UInt8)
    (authorization : Option String) : d.accepts account body authorization = true := by
  unfold accepts
  rw [h]

namespace Rehearses

variable (h : Rehearses d)

include h

theorem resource {r : Http.Request} (ht : r.target = "/sign") :
    d.service.resource? r = some .sign := by
  have hpath : (Http.targetPath? "/sign".toList).map String.ofList = some "/sign" := by decide
  have hr : d.service.resource? r =
      ((Http.targetPath? r.target.toList).map String.ofList).bind fun path => d.site.lookup path :=
    rfl
  rw [hr, h.site, ht, hpath]
  decide

/-- A rehearsal signs every query. -/
theorem exists_signed (query : BlindedQuery) : ∃ signature, d.signed query = .ok signature := by
  obtain ⟨share, hshare⟩ := Option.isSome_iff_exists.1 h.share
  unfold signed shareOf
  rw [hshare, h.engine]
  exact ⟨_, rfl⟩

/-- **A rehearsal grants what it admits** and authenticates on a quota that is not exhausted. -/
theorem grants {limits : Limits} {now : Int64} {s : Submission}
    (hs : Admitted.ofRequest limits now s.body.length s.request = .ok request)
    (ha : d.accepts request.account s.body s.authorization = true)
    (hq : (d.quotaOf request.account).toOption.any Quota.isExhausted = false) :
    ∃ signature,
      (perform (Signing.procedure limits now s) d).1 = .ok (d.grantOf request signature) ∧
      (perform (Signing.procedure limits now s) d).2.database = (d.entered request).2 := by
  obtain ⟨signature, hsigned⟩ := h.exists_signed request.query
  have hgrant := perform_procedure_of_not_exhausted hs ha hq
  rw [hsigned] at hgrant
  exact ⟨signature, hgrant⟩

section

variable (hs : Admitted.ofRequest Config.standard.limits 0 rehearsedSubmission.body.length
  rehearsed = .ok request)

include hs

theorem submits (ha : d.accepts request.account rehearsed.body none = true)
    (hq : (d.quotaOf request.account).toOption.any Quota.isExhausted = false) :
    ∃ signature, (submit rehearsedSubmission d).1 = .ok (d.grantOf request signature) ∧
      (submit rehearsedSubmission d).2.database = (d.entered request).2 := by
  have hsubmit : submit rehearsedSubmission d =
      perform (Signing.procedure d.config.limits d.clock.millis rehearsedSubmission) d := rfl
  rw [hsubmit, h.config, h.clock]
  exact h.grants hs ha hq

/-- A request that is not on record is granted without warnings, and as a duplicate when it is
submitted again, as long as two queries are left. -/
theorem submits_twice {total n : Int64} (hchain : d.chain = .given (some total) (some n))
    (hc : d.callers = .acceptAll) (hworks : ∀ s, d.database.faultOf? s = none)
    (hnew : d.database.ledger.hasRecord request.fingerprint = false)
    (hopen : d.database.ledger.count request.account < total)
    (hopen' : d.database.ledger.count request.account + 1 < total) :
    (∃ g, (submit rehearsedSubmission d).1 = .ok g ∧ g.warnings = []) ∧
      ∃ g, (submit rehearsedSubmission (submit rehearsedSubmission d).2).1 = .ok g ∧
        g.warnings = [.duplicate] := by
  have hquota : d.quotaOf request.account =
      .ok ⟨d.database.ledger.count request.account, total⟩ := quotaOf_of_given hchain (hworks _)
  obtain ⟨signature, hgrant, hleft⟩ := h.submits hs (accepts_of_acceptAll hc _ _ _) (by
    rw [hquota]
    exact decide_eq_false (Int64.not_le.2 hopen))
  obtain ⟨l, hentered, _, hrecord, hcounted⟩ :=
    exists_entered_of_new (fun s _ => hworks s) hnew
      (Int64.lt_of_lt_of_le hopen (Int64.le_maxValue total))
  refine ⟨⟨_, hgrant, ?_⟩, ?_⟩
  · rw [warnings_grantOf hquota (heightOf_of_given hchain), hentered]
  · have hsame : SameSetup d (submit rehearsedSubmission d).2 := perform_sameSetup _ _
    -- of what the first submission left only its setup and its database matter
    generalize (submit rehearsedSubmission d).2 = d' at hleft hsame
    have hchain' : d'.chain = .given (some total) (some n) :=
      (congrArg Deployment.chain hsame).trans hchain
    have hworks' : ∀ s, d'.database.faultOf? s = none :=
      fun s => (hsame.faultOf?_eq s).trans (hworks s)
    have hledger : d'.database.ledger = l := by rw [hleft, hentered]
    have hquota' : d'.quotaOf request.account =
        .ok ⟨d.database.ledger.count request.account + 1, total⟩ := by
      rw [quotaOf_of_given hchain' (hworks' _), hledger, hcounted]
      rfl
    obtain ⟨signature', hgrant', _⟩ := (hsame.rehearses h).submits hs
      (accepts_of_acceptAll ((congrArg Deployment.callers hsame).trans hc) _ _ _) (by
        rw [hquota']
        exact decide_eq_false (Int64.not_le.2 hopen'))
    refine ⟨_, hgrant', ?_⟩
    rw [warnings_grantOf hquota' (heightOf_of_given hchain'),
      entered_of_hasRecord (hworks' _) (by rw [hledger]; exact hrecord)]

end

section

variable {r : Http.Request} {q : Request} (hb : r.body = .complete q.body)
  (hs : Admitted.ofRequest Config.standard.limits 0 q.body.length q = .ok request)
  (ha : d.accepts request.account q.body (Client.authorizationOf r.headers) = true)
  (hq : (d.quotaOf request.account).toOption.any Quota.isExhausted = false)
  (ht : r.target = "/sign") (hm : r.method = "POST")

include hb hs ha hq ht hm

/-- So it is over HTTP. -/
theorem exists_granted_post : ∃ g, (outcome r d).1 = .ok g ∧
    Granted r d ⟨q, q.body, Client.authorizationOf r.headers⟩ request g ∧
    (respond r d).1 = .json 200 g.answer.body ∧
    (respond r d).2.database = (d.entered request).2 := by
  have hadmitted : Admitted.ofRequest d.config.limits d.clock.millis q.body.length q =
      .ok request := by
    rw [h.config, h.clock]
    exact hs
  have hread := Service.readSubmission_of_admitted hb hadmitted
  obtain ⟨signature, hsigned⟩ := h.exists_signed request.query
  -- the gates are open, so the outcome is that of signing
  have hgrant := outcome_of_not_exhausted hread hadmitted ha hq
  rw [hsigned] at hgrant
  obtain ⟨ho, hdatabase⟩ := hgrant
  have hr := h.resource ht
  exact ⟨d.grantOf request signature, ho, ⟨hread, hadmitted, ha, hq, hsigned, rfl, hdatabase⟩,
    respond_of_grant hr hm ho, (respond_eq hr hm).2.trans hdatabase⟩

theorem status_respond : (respond r d).1.status = 200 := by
  obtain ⟨g, _, _, hresponse, _⟩ := h.exists_granted_post hb hs ha hq ht hm
  rw [hresponse]
  rfl

end

end Rehearses

end

end Deployment

end BlindSign

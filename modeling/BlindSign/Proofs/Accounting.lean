import BlindSign.Proofs.DoubleCounting
import BlindSign.Proofs.Outcome
import BlindSign.Proofs.QuotaOvershoot
import BlindSign.Proofs.Rehearsals

set_option autoImplicit false

/-! # Accounts over a sequence of calls

Calls of the service over one ledger, one after the other, with any submissions and any failures. A
call tells its caller in its grant whether it was counted and recorded; here the ledger is shown to
agree. Over the whole sequence the count of an account grows by the number of calls that were
granted to it and say that they were counted, and the records made are those of the calls that say
that they were recorded. The count that a call reports is the one that it leaves.

What a trace does to the ledger is read off its exchanges first (`Ledger.Serves.count_add`,
`Ledger.Serves.hasRecord_or`); then the exchanges of a call are compared with its grant.
-/

namespace BlindSign

/-! ## What a trace does to the ledger -/

namespace Exchange

/-- A query of an account was counted. -/
def countsFor (account : Account) : Exchange → Bool
  | ⟨.addCount a, .ok ()⟩ => decide (a = account)
  | _ => false

/-- A request with a fingerprint was recorded. -/
def records (fingerprint : Fingerprint) : Exchange → Bool
  | ⟨.addRecord request, .ok ()⟩ => decide (request.fingerprint = fingerprint)
  | _ => false

section

variable {e : Exchange} {l l' : Ledger}

theorem Moves.count_add (h : e.Moves l l') (account : Account) :
    (l'.count account).toInt = (l.count account).toInt + (e.countsFor account).toNat := by
  by_cases hc : e.counts = true
  · obtain ⟨call, reply⟩ := e
    cases call with
    | addCount a =>
        cases reply with
        | error fault =>
            obtain rfl : l' = l := h
            exact (Int.add_zero _).symm
        | ok u =>
            have hi : l.increment? a = some l' := h
            by_cases ha : a = account
            · subst ha
              have hone : (l'.count a).toInt = (l.count a).toInt + 1 :=
                Ledger.toInt_count_increment? hi
              simp [countsFor, hone]
            · have hne : ¬ account = a := fun h => ha h.symm
              simp [countsFor, Ledger.count_increment? hi, ha, hne]
    | _ => cases hc
  · -- nothing but counting changes a count
    have hno : e.counts = false := Bool.eq_false_iff.2 hc
    have hnot : e.countsFor account = false := by
      obtain ⟨call, reply⟩ := e
      cases call with
      | addCount a => cases hno
      | _ => rfl
    rw [h.count_eq hno, hnot]
    exact (Int.add_zero _).symm

theorem Moves.hasRecord_or (h : e.Moves l l') (fingerprint : Fingerprint) :
    l'.hasRecord fingerprint = (l.hasRecord fingerprint || e.records fingerprint) := by
  by_cases he : e.entersOf fingerprint = true
  · obtain ⟨request, recorded, rfl, rfl⟩ := entersOf_iff.1 he
    cases recorded with
    | error fault =>
        obtain rfl : l' = l := h
        exact (Bool.or_false _).symm
    | ok u =>
        have hrecord : l'.hasRecord request.fingerprint = true := h.hasRecord_of_ok
        simp [records, hrecord]
  · have hno : e.entersOf fingerprint = false := Bool.eq_false_iff.2 he
    have hnot : e.records fingerprint = false := by
      obtain ⟨call, reply⟩ := e
      cases call with
      | addRecord request =>
          cases reply with
          | error fault => rfl
          | ok u => exact hno
      | _ => rfl
    rw [h.hasRecord_eq hno, hnot]
    exact (Bool.or_false _).symm

end

end Exchange

namespace Ledger

variable {l l' : Ledger} {trace : List Exchange}

/-- A count grows by the number of queries that were counted. -/
theorem Serves.count_add (h : l.Serves trace l') (account : Account) :
    (l'.count account).toInt =
      (l.count account).toInt + trace.countP (Exchange.countsFor account) := by
  induction trace generalizing l with
  | nil =>
      obtain rfl : l' = l := h
      simp
  | cons e trace ih =>
      obtain ⟨_, l₁, hm, hs⟩ := h
      have hfirst := hm.count_add account
      have hrest := ih hs
      rw [countP_cons_toNat]
      omega

/-- The records made are those of the requests that were recorded. -/
theorem Serves.hasRecord_or (h : l.Serves trace l') (fingerprint : Fingerprint) :
    l'.hasRecord fingerprint =
      (l.hasRecord fingerprint || trace.any (Exchange.records fingerprint)) := by
  induction trace generalizing l with
  | nil =>
      obtain rfl : l' = l := h
      exact (Bool.or_false _).symm
  | cons e trace ih =>
      obtain ⟨_, l₁, hm, hs⟩ := h
      rw [ih hs, hm.hasRecord_or, List.any_cons, Bool.or_assoc]

end Ledger

/-! ## What a call does -/

namespace Signing

theorem BothWays.countP {a b : Exchange} {es : List Exchange} (h : BothWays a b es)
    (test : Exchange → Bool) : es.countP test = (test a).toNat + (test b).toNat := by
  have hpair : ∀ c d : Exchange, [c, d].countP test = (test c).toNat + (test d).toNat := by
    intro c d
    rw [countP_cons_toNat, countP_cons_toNat, List.countP_nil, Nat.add_zero]
  rcases h with rfl | rfl
  · exact hpair a b
  · rw [hpair b a, Nat.add_comm]

theorem Standing.eq_of_mem_warnings {standing : Standing} {w : Warning}
    (h : w ∈ standing.warnings) : w = .chainUnread := by
  unfold Standing.warnings at h
  split at h
  · cases h
  · exact List.mem_singleton.1 h

/-- Where the warnings of a grant that was entered come from. -/
theorem mem_warnings_of_entered {standing : Standing} {recorded counted : Except StoreFault Unit} :
    let warnings := standing.warnings ++
      ((if recorded.isOk then [] else [Warning.notRecorded]) ++
        (if counted.isOk then [] else [Warning.notCounted]))
    .duplicate ∉ warnings ∧ (.notRecorded ∈ warnings ↔ recorded.isOk = false) ∧
      (.notCounted ∈ warnings ↔ counted.isOk = false) := by
  have hother : ∀ w ≠ Warning.chainUnread, w ∉ standing.warnings :=
    fun w hw h => hw (Standing.eq_of_mem_warnings h)
  have hduplicate := hother .duplicate (by decide)
  have hrecorded := hother .notRecorded (by decide)
  have hcounted := hother .notCounted (by decide)
  cases recorded.isOk <;> cases counted.isOk <;> simp [hduplicate, hrecorded, hcounted]

section

variable {limits : Limits} {now : Int64} {s : Submission} {trace : List Exchange}

/-- A refused call writes nothing. -/
theorem Transcript.writes_of_refused {refusal : Refusal}
    (h : Transcript limits now s trace (.error refusal)) :
    (∀ account, trace.countP (Exchange.countsFor account) = 0) ∧
      ∀ fingerprint, trace.any (Exchange.records fingerprint) = false := by
  cases h with
  | invalid hs => simp
  | unauthenticated hs => simp [Exchange.countsFor, Exchange.records]
  | exhausted hs hr hq =>
      simp [Exchange.countsFor, Exchange.records, BothWays.countP hr, BothWays.any hr]
  | passed hs hr hq hc =>
      cases hc with
      | keyUnavailable fault =>
          simp [Exchange.countsFor, Exchange.records, BothWays.countP hr, BothWays.any hr]
      | unsigned share fault =>
          simp [Exchange.countsFor, Exchange.records, BothWays.countP hr, BothWays.any hr]

/-- A granted call counts and records just what its grant does not warn of. -/
theorem Transcript.writes_of_granted {g : Grant} (h : Transcript limits now s trace (.ok g)) :
    ∃ request, Admitted.ofRequest limits now s.body.length s.request = .ok request ∧
      (∀ account, trace.countP (Exchange.countsFor account) =
        if request.account = account ∧ .duplicate ∉ g.warnings ∧ .notCounted ∉ g.warnings then 1
        else 0) ∧
      ∀ fingerprint, trace.any (Exchange.records fingerprint) =
        decide (request.fingerprint = fingerprint ∧ .duplicate ∉ g.warnings ∧
          .notRecorded ∉ g.warnings) := by
  cases h with
  | @passed request quota height reads rest outcome hs hr hq hc =>
      refine ⟨request, hs, ?_⟩
      cases hc with
      | duplicate share signature =>
          simp [Exchange.countsFor, Exchange.records, BothWays.countP hr, BothWays.any hr]
      | @entered share signature found recorded counted writes hf hw =>
          -- the grant warns of each write that failed, and of nothing else that matters here
          obtain ⟨hduplicate, hrecorded, hcounted⟩ :=
            @mem_warnings_of_entered (Standing.ofReplies quota height) recorded counted
          refine ⟨?_, ?_⟩
          · intro account
            simp only [List.countP_cons, List.countP_append, hr.countP, hw.countP, hduplicate,
              hcounted]
            cases counted with
            | error fault => simp [Exchange.countsFor, Except.isOk, Except.toBool]
            | ok u =>
                by_cases ha : request.account = account
                · simp [Exchange.countsFor, Except.isOk, Except.toBool, ha]
                · simp [Exchange.countsFor, ha]
          · intro fingerprint
            simp only [List.any_cons, List.any_append, hr.any, hw.any, hduplicate, hrecorded]
            cases recorded with
            | error fault => simp [Exchange.records, Except.isOk, Except.toBool]
            | ok u => simp [Exchange.records, Except.isOk, Except.toBool]

/-! ## What a call reports -/

variable {request : Admitted} {quota : Except QuotaFault Quota} {height : Except ChainFault Int64}

/-- Once the quota was read it is not asked for again. -/
theorem Completion.asksQuota_eq_false {rest : List Exchange} {outcome : Except Refusal Grant}
    (h : Completion request quota height rest outcome) :
    rest.any Exchange.asksQuota = false := by
  cases h with
  | keyUnavailable fault => rfl
  | unsigned share fault => rfl
  | duplicate share signature => rfl
  | entered share signature hf hw => simp [hw.any, Exchange.asksQuota]

/-- The quota that a call was told is the one that it goes by. -/
theorem quota_of_mem {reads rest : List Exchange} {outcome : Except Refusal Grant}
    {account : Account} {phoneHash : Option PhoneHash} {told : Except QuotaFault Quota}
    (hr : Reads request quota height reads) (hc : Completion request quota height rest outcome)
    (he : ⟨.readQuota account phoneHash, told⟩ ∈
      (⟨.authenticate request s.body s.authorization, true⟩ :: (reads ++ rest) : List Exchange)) :
    quota = told := by
  have hreads : ⟨.readQuota account phoneHash, told⟩ ∈ reads := by
    rcases List.mem_cons.1 he with he | he
    · cases he
    · rcases List.mem_append.1 he with he | he
      · exact he
      · have hno := List.any_eq_false.1 hc.asksQuota_eq_false _ he
        exact absurd rfl hno
  -- rfl | the two reads come in either order, and only one of them is about the quota
  rcases hr with rfl | rfl
  · rcases List.mem_cons.1 hreads with he | he
    · cases he
      rfl
    · cases List.mem_singleton.1 he
  · rcases List.mem_cons.1 hreads with he | he
    · cases he
    · cases List.mem_singleton.1 he
      rfl

/-- A quota that was read tells the count at the time, and reading it changes nothing. -/
theorem Reads.performed_eq {l l' : Ledger} {q : Quota} {reads : List Exchange}
    (hr : Reads request (.ok q) height reads) (hl : l.Serves reads l') :
    q.performed = l.count request.account := by
  rcases hr with rfl | rfl
  · exact hl.1
  · obtain ⟨_, l₁, hm, htrue, _⟩ := hl
    obtain rfl : l₁ = l := hm
    exact htrue

/-- A grant reports the count that was read, and with it what the call itself counted. -/
theorem Completion.performed_eq {q : Quota} {rest : List Exchange} {g : Grant}
    (hc : Completion request (.ok q) height rest (.ok g)) (hq : q.performed < q.total) :
    g.quota.performed.toInt =
      q.performed.toInt + rest.countP (Exchange.countsFor request.account) := by
  cases hc with
  | duplicate share signature =>
      have hnone : List.countP (Exchange.countsFor request.account)
          [⟨.loadKey, .ok share⟩, ⟨.sign request.query share, .ok signature⟩,
            ⟨.findRecord request.fingerprint, .ok true⟩] = 0 := rfl
      rw [hnone]
      exact (Int.add_zero _).symm
  | @entered share signature found recorded counted writes hf hw =>
      have hone : List.countP (Exchange.countsFor request.account)
          (⟨.loadKey, .ok share⟩ :: ⟨.sign request.query share, .ok signature⟩ ::
            ⟨.findRecord request.fingerprint, found⟩ :: writes) = counted.isOk.toNat := by
        simp only [List.countP_cons, hw.countP]
        cases counted with
        | error fault => rfl
        | ok u => simp [Exchange.countsFor, Except.isOk, Except.toBool]
      rw [hone]
      cases counted with
      | error fault => exact (Int.add_zero _).symm
      | ok u => exact toInt_add_one hq

/-- The count that a call reports is the one that it leaves, if it was told its quota. -/
theorem Transcript.performed_eq {g : Grant} {l l' : Ledger} {q : Quota}
    {phoneHash : Option PhoneHash} (h : Transcript limits now s trace (.ok g))
    (hs : Admitted.ofRequest limits now s.body.length s.request = .ok request)
    (hl : l.Serves trace l') (he : ⟨.readQuota request.account phoneHash, .ok q⟩ ∈ trace) :
    g.quota.performed = l'.count request.account := by
  have hadd := hl.count_add request.account
  cases h with
  | @passed request' quota height reads rest outcome hs' hr hopen hc =>
      obtain rfl : request = request' := Except.ok.inj (hs.symm.trans hs')
      -- the quota that the trace tells of is the one that the gates were asked about
      obtain rfl := quota_of_mem hr hc he
      obtain ⟨_, l₁, hm, hrest⟩ := hl
      obtain rfl : l₁ = l := hm
      obtain ⟨l₂, hreads, _⟩ := Ledger.serves_append.1 hrest
      have hread : q.performed = l₁.count request.account := hr.performed_eq hreads
      have hreported := hc.performed_eq (any_isExhausted_iff.1 hopen q rfl)
      -- neither the check of the caller nor the reading of the quota counts anything
      have hnone : reads.countP (Exchange.countsFor request.account) = 0 := hr.countP _
      have hfirst : Exchange.countsFor request.account
          ⟨.authenticate request s.body s.authorization, true⟩ = false := rfl
      rw [countP_cons_toNat, List.countP_append, hnone, hfirst, Bool.toNat_false,
        ← hread] at hadd
      refine Int64.toInt_inj.1 ?_
      omega

end

end Signing

/-! ## A sequence of calls -/

/-- A call of the service that has returned, with the ledgers that it found and left. What it was
told of the ledger was true, and the ledger moved as its exchanges say. -/
structure Visit where
  limits : Limits
  now : Int64
  submission : Submission
  /-- The ledger that the call found. -/
  opening : Ledger
  trace : List Exchange
  outcome : Except Refusal Grant
  /-- The ledger that the call left. -/
  closing : Ledger
  yields : (Signing.procedure limits now submission).Yields trace outcome
  serves : opening.Serves trace closing

namespace Visit

def request? (v : Visit) : Option Admitted :=
  (Admitted.ofRequest v.limits v.now v.submission.body.length v.submission.request).toOption

/-- Whether a call was granted to an account and tells that its query was counted. -/
def tellsCounted (account : Account) (v : Visit) : Bool :=
  match v.request?, v.outcome with
  | some request, .ok g =>
    decide (request.account = account ∧ .duplicate ∉ g.warnings ∧ .notCounted ∉ g.warnings)
  | _, _ => false

/-- Whether a call was granted for a fingerprint and tells that its request was recorded. -/
def tellsRecorded (fingerprint : Fingerprint) (v : Visit) : Bool :=
  match v.request?, v.outcome with
  | some request, .ok g =>
    decide (request.fingerprint = fingerprint ∧ .duplicate ∉ g.warnings ∧
      .notRecorded ∉ g.warnings)
  | _, _ => false

theorem transcript (v : Visit) : Signing.Transcript v.limits v.now v.submission v.trace v.outcome :=
  Signing.yields_iff.1 v.yields

theorem request?_eq_some {v : Visit} {request : Admitted} : v.request? = some request ↔
    Admitted.ofRequest v.limits v.now v.submission.body.length v.submission.request =
      .ok request := by
  unfold request?
  cases Admitted.ofRequest v.limits v.now v.submission.body.length v.submission.request with
  | error fault => simp [Except.toOption]
  | ok request' => simp [Except.toOption]

/-- A call counts and records what it tells. -/
theorem writes_eq (v : Visit) :
    (∀ account, v.trace.countP (Exchange.countsFor account) = (v.tellsCounted account).toNat) ∧
      ∀ fingerprint, v.trace.any (Exchange.records fingerprint) =
        v.tellsRecorded fingerprint := by
  have ht := v.transcript
  unfold tellsCounted tellsRecorded
  -- a refusal tells of nothing, and nothing was written
  cases ho : v.outcome with
  | error refusal =>
      rw [ho] at ht
      obtain ⟨hcounts, hrecords⟩ := ht.writes_of_refused
      refine ⟨?_, ?_⟩
      · intro account
        rw [hcounts account]
        split
        · next h => cases h
        · rfl
      · intro fingerprint
        rw [hrecords fingerprint]
        split
        · next h => cases h
        · rfl
  | ok g =>
      rw [ho] at ht
      obtain ⟨request, hs, hcounts, hrecords⟩ := ht.writes_of_granted
      have hrequest : v.request? = some request := request?_eq_some.2 hs
      rw [hrequest]
      refine ⟨?_, hrecords⟩
      intro account
      rw [hcounts account]
      dsimp only
      split
      · next hwarned => rw [decide_eq_true hwarned, Bool.toNat_true]
      · next hwarned => rw [decide_eq_false hwarned, Bool.toNat_false]

/-- A call moves a count by what it tells. -/
theorem count_eq (v : Visit) (account : Account) :
    (v.closing.count account).toInt =
      (v.opening.count account).toInt + (v.tellsCounted account).toNat := by
  rw [v.serves.count_add account, v.writes_eq.1 account]

theorem hasRecord_eq (v : Visit) (fingerprint : Fingerprint) :
    v.closing.hasRecord fingerprint =
      (v.opening.hasRecord fingerprint || v.tellsRecorded fingerprint) := by
  rw [v.serves.hasRecord_or fingerprint, v.writes_eq.2 fingerprint]

end Visit

/-- A ledger receives calls one after the other; each finds the ledger that the one before it has
left. -/
def Ledger.Receives : Ledger → List Visit → Ledger → Prop
  | l, [], l' => l' = l
  | l, v :: visits, l' => v.opening = l ∧ v.closing.Receives visits l'

namespace Ledger

variable {l l' : Ledger} {visits : List Visit}

theorem Receives.count_eq (h : l.Receives visits l') (account : Account) :
    (l'.count account).toInt =
      (l.count account).toInt + visits.countP (Visit.tellsCounted account) := by
  induction visits generalizing l with
  | nil =>
      obtain rfl : l' = l := h
      simp
  | cons v visits ih =>
      obtain ⟨rfl, hrest⟩ := h
      have hfirst := v.count_eq account
      have hlater := ih hrest
      rw [countP_cons_toNat]
      omega

theorem Receives.hasRecord_eq (h : l.Receives visits l') (fingerprint : Fingerprint) :
    l'.hasRecord fingerprint =
      (l.hasRecord fingerprint || visits.any (Visit.tellsRecorded fingerprint)) := by
  induction visits generalizing l with
  | nil =>
      obtain rfl : l' = l := h
      exact (Bool.or_false _).symm
  | cons v visits ih =>
      obtain ⟨rfl, hrest⟩ := h
      rw [ih hrest, v.hasRecord_eq, List.any_cons, Bool.or_assoc]

/-- **Grants tell what the ledger keeps.** Over a sequence of calls the count of an account grows by
the number of calls that were granted to it and warn neither of a duplicate nor of a query that was
not counted; no step of any call makes a count smaller; a call that was told its quota reports the
count that it leaves; and the records afterwards are those before and those of the calls that warn
neither of a duplicate nor of a request that was not recorded. -/
theorem accounts_of_receives (h : l.Receives visits l') :
    (∀ account, (l'.count account).toInt - (l.count account).toInt =
      visits.countP (Visit.tellsCounted account)) ∧
    (∀ v ∈ visits, ∀ es fs gs l₁ l₂, v.trace = es ++ fs ++ gs → v.opening.Serves es l₁ →
      l₁.Serves fs l₂ → l₂.Serves gs v.closing →
        ∀ account, (l₁.count account).toInt ≤ (l₂.count account).toInt) ∧
    (∀ v ∈ visits, ∀ g request q, v.outcome = .ok g → v.request? = some request →
      ⟨.readQuota request.account request.phoneHash, .ok q⟩ ∈ v.trace →
        g.quota.performed = v.closing.count request.account) ∧
    (∀ fingerprint, l'.hasRecord fingerprint = true ↔
      l.hasRecord fingerprint = true ∨ ∃ v ∈ visits, v.tellsRecorded fingerprint = true) := by
  refine ⟨?_, ?_, ?_, ?_⟩
  · intro account
    have hcount := h.count_eq account
    omega
  · intro v _ es fs gs l₁ l₂ _ _ hfs _ account
    -- any part of a trace is served, so no part lowers a count
    exact hfs.le_count account
  · intro v _ g request q ho hs he
    have ht : Signing.Transcript v.limits v.now v.submission v.trace (.ok g) := ho ▸ v.transcript
    exact ht.performed_eq (Visit.request?_eq_some.1 hs) v.serves he
  · intro fingerprint
    rw [h.hasRecord_eq fingerprint, Bool.or_eq_true, List.any_eq_true]

end Ledger

/-! ## Submissions to deployments -/

/-- What is submitted to a deployment is a call of the service over its ledger. -/
theorem Deployment.exists_visit (s : Submission) (d : Deployment) :
    ∃ v : Visit, v.request? =
        (Admitted.ofRequest d.config.limits d.clock.millis s.body.length s.request).toOption ∧
      v.outcome = (submit s d).1 ∧ v.opening = d.database.ledger ∧
      v.closing = (submit s d).2.database.ledger := by
  obtain ⟨trace, hy, hl⟩ :=
    exists_yields_perform (Signing.procedure d.config.limits d.clock.millis s) d
  exact ⟨⟨d.config.limits, d.clock.millis, s, d.database.ledger, trace, _, _, hy, hl⟩, rfl, rfl,
    rfl, rfl⟩

/-- A request that is submitted twice in a row is counted once and is on record. -/
theorem Ledger.accounts_of_rehearsal :
    ∃ (request : Admitted) (visits : List Visit) (l' : Ledger),
      Ledger.empty.Receives visits l' ∧ visits.length = 2 ∧
        (l'.count request.account).toInt = 1 ∧ l'.hasRecord request.fingerprint = true := by
  obtain ⟨request, hs⟩ := Deployment.exists_rehearsed_admitted
  obtain ⟨⟨g, hg, hnone⟩, g', hg', hduplicate⟩ :=
    (Deployment.rehearses_rehearsal .empty (some 10)).submits_twice hs rfl rfl (fun _ => rfl) rfl
      (show (0 : Int64) < _ by decide) (show (0 : Int64) + 1 < _ by decide)
  obtain ⟨v, hv, ho, hopening, hclosing⟩ := Deployment.exists_visit
    Deployment.rehearsedSubmission (Deployment.rehearsal .empty (some 10))
  obtain ⟨v', hv', ho', hopening', _⟩ := Deployment.exists_visit
    Deployment.rehearsedSubmission (Deployment.submit Deployment.rehearsedSubmission
      (Deployment.rehearsal .empty (some 10))).2
  rw [← ho] at hg
  rw [← ho'] at hg'
  -- neither the limits nor the clock change between the calls
  have hsame : Deployment.SameSetup (Deployment.rehearsal .empty (some 10))
      (Deployment.submit Deployment.rehearsedSubmission
        (Deployment.rehearsal .empty (some 10))).2 := Deployment.perform_sameSetup _ _
  have hrequest : v.request? = some request := hv.trans (congrArg Except.toOption hs)
  have hrequest' : v'.request? = some request := by
    rw [hv', hsame]
    exact congrArg Except.toOption hs
  have hreceives : Ledger.empty.Receives [v, v'] v'.closing :=
    ⟨hopening, hopening'.trans hclosing.symm, rfl⟩
  obtain ⟨hcount, _, _, hrecord⟩ := accounts_of_receives hreceives
  refine ⟨request, [v, v'], v'.closing, hreceives, rfl, ?_, ?_⟩
  · have hone : [v, v'].countP (Visit.tellsCounted request.account) = 1 := by
      simp [Visit.tellsCounted, hrequest, hrequest', hg, hg', hnone, hduplicate]
    have hinitial : (Ledger.empty.count request.account).toInt = 0 := rfl
    have hfinal := hcount request.account
    omega
  · refine (hrecord request.fingerprint).2 (.inr ⟨v, List.mem_cons_self, ?_⟩)
    simp [Visit.tellsRecorded, hrequest, hg, hnone]

end BlindSign

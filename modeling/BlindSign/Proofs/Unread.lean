import BlindSign.Proofs.Outcome
import BlindSign.Proofs.Interleaving
import BlindSign.Proofs.Resubmission

set_option autoImplicit false

/-! # Numbers that could not be read

An answer reports -1 for a count, a total or a height that could not be read. None of them is -1
otherwise: counts are not negative and stay so, a height fits into 64 bits with its sign, and a
total that is negative, as some policies give it, lets no query pass.

**So an answer tells by its numbers, and by its warnings, just what could not be read**
(`Deployment.tells_of_status`).
-/

namespace BlindSign

/-! ## Counts -/

namespace Ledger

def IsCounting (l : Ledger) : Prop := ∀ name n, l.counts.get? name = some n → 0 ≤ n

variable {l l' : Ledger}

theorem IsCounting.count (h : l.IsCounting) (account : Account) : 0 ≤ l.count account := by
  unfold Ledger.count
  cases hn : l.counts.get? account.text with
  | none => exact Int64.le_refl 0
  | some n => exact h _ n hn

theorem IsCounting.increment? {account : Account} (h : l.IsCounting)
    (hl : l.increment? account = some l') : l'.IsCounting := by
  obtain ⟨hlt, rfl⟩ := increment?_eq_some hl
  intro name n hn
  rw [show Table.get? _ name = _ from Table.get?_insert l.counts account.text _ name] at hn
  split at hn
  · obtain rfl := Option.some.inj hn
    have hcount := Int64.le_iff_toInt_le.1 (h.count account)
    have hone := toInt_add_one hlt
    have hzero : (0 : Int64).toInt = 0 := by decide
    refine Int64.le_iff_toInt_le.2 ?_
    omega
  · exact h name n hn

/-- No statement makes a count negative. -/
theorem IsCounting.execute (h : l.IsCounting) (s : Statement) : (l.execute s).2.IsCounting := by
  cases s with
  | addCount account =>
      unfold Ledger.execute
      dsimp only
      cases hl : l.increment? account with
      | none => exact h
      | some l' => exact h.increment? hl
  | _ => exact h

def executeAll (l : Ledger) (statements : List Statement) : Ledger :=
  statements.foldl (fun l s => (l.execute s).2) l

theorem IsCounting.executeAll (h : l.IsCounting) (statements : List Statement) :
    (l.executeAll statements).IsCounting := by
  induction statements generalizing l with
  | nil => exact h
  | cons s rest ih => exact ih (h.execute s)

/-- No exchange makes a count negative. -/
theorem IsCounting.moves {e : Exchange} (h : l.IsCounting) (hm : e.Moves l l') :
    l'.IsCounting := by
  obtain ⟨call, reply⟩ := e
  cases call with
  | addRecord request =>
      cases reply with
      | error fault =>
          obtain rfl : l' = l := hm
          exact h
      | ok u =>
          obtain ⟨now, rfl⟩ := hm
          exact h
  | addCount account =>
      cases reply with
      | error fault =>
          obtain rfl : l' = l := hm
          exact h
      | ok u => exact h.increment? hm
  | _ =>
      obtain rfl : l' = l := hm
      exact h

theorem IsCounting.follows {trace : List Exchange} (h : l.IsCounting) (hl : l.Follows trace l') :
    l'.IsCounting := by
  induction trace generalizing l with
  | nil =>
      obtain rfl : l' = l := hl
      exact h
  | cons e trace ih =>
      obtain ⟨l₁, hm, hrest⟩ := hl
      exact ih (h.moves hm) hrest

/-- No count becomes negative, however calls are interleaved. -/
theorem IsCounting.run {σ : System} {earlier : List System} (h : l.IsCounting)
    (hrun : System.Run l σ earlier) : σ.ledger.IsCounting := by
  induction hrun with
  | start => exact h
  | step _ hs ih =>
      cases hs with
      | arrive l calls limits now s => exact ih
      | advance before after hs hl => exact ih.follows hl.follows

end Ledger

/-! ## Heights -/

namespace Chain

theorem heightOf_nonneg {n : Nat} {height : Int64} (h : heightOf n = .ok height) : 0 ≤ height := by
  unfold heightOf at h
  split at h
  · next hle =>
      obtain rfl := Except.ok.inj h
      have hmax : Int64.maxValue.toInt = 9223372036854775807 := by decide
      have hn : (Int64.ofNat n).toInt = n := Int64.toInt_ofNat_of_lt (by omega)
      refine Int64.le_iff_toInt_le.2 ?_
      rw [hn]
      exact Int.natCast_nonneg n
  · cases h

/-- A height that was read is not negative, whatever the node replies. -/
theorem height_nonneg {node : Rpc.Node} {client : Rpc.Client} {n : Int64}
    (h : (height node client).1 = .ok n) : 0 ≤ n := by
  have hread :
      (height node client).1 = (quantity node "eth_blockNumber" [] client).1.bind heightOf := rfl
  rw [hread] at h
  cases hq : (quantity node "eth_blockNumber" [] client).1 with
  | error fault =>
      rw [hq] at h
      cases h
  | ok q =>
      rw [hq] at h
      exact heightOf_nonneg h

end Chain

/-! ## Warnings -/

namespace Signing

/-- The warnings of a grant have the tag of an unread chain in their text just if they are about
it. -/
theorem text_warningsOf (isRead isDuplicate isRecorded isCounted : Bool) :
    (∃ text, Warning.text? (warningsOf isRead isDuplicate isRecorded isCounted) = some text ∧
      "contract read failure".toList <:+: text.toList) ↔ isRead = false := by
  have hmem : .chainUnread ∈ warningsOf isRead isDuplicate isRecorded isCounted ↔
      isRead = false := by
    revert isRead isDuplicate isRecorded isCounted
    decide
  exact (Warning.tag_infix_iff (w := .chainUnread)).trans hmem

end Signing

/-! ## What is read for an answer -/

namespace Deployment

variable {request : Admitted} {d : Deployment}

/-- The warnings of a grant tell whether the chain was read, and whether the request was a duplicate
or which write failed. -/
theorem exists_warnings_grantOf (d : Deployment) (request : Admitted)
    (signature : PartialSignature) :
    ∃ isDuplicate isRecorded isCounted, (d.grantOf request signature).warnings =
      Signing.warningsOf ((d.quotaOf request.account).isOk && (d.heightOf request.account).isOk)
        isDuplicate isRecorded isCounted := by
  unfold grantOf entered
  split
  · exact ⟨true, true, true, rfl⟩
  · exact ⟨false, (d.recorded request).1.isOk, (d.counted request).1.isOk, rfl⟩

end Deployment

/-! ## What an answer tells -/

/-- An answer tells by its numbers and by its warnings what was read of a quota and of a height. -/
structure Answer.Tells (quota : Except QuotaFault Quota) (height : Except ChainFault Int64)
    (a : Answer) : Prop where
  performed : a.performed = -1 ↔ quota.isOk = false
  total : a.total = -1 ↔ quota.isOk = false
  height : a.height = -1 ↔ height.isOk = false
  warning : (∃ text, a.warning = some text ∧ "contract read failure".toList <:+: text.toList) ↔
    a.performed = -1 ∨ a.total = -1 ∨ a.height = -1
  /-- A quota that was read is not exceeded. -/
  performed_le : a.performed ≠ -1 → 0 ≤ a.performed ∧ a.performed ≤ a.total
  height_nonneg : a.height ≠ -1 → 0 ≤ a.height

/-- A number that is not negative does not stand for an unknown one. -/
theorem ne_unknown_of_nonneg {n : Int64} (h : 0 ≤ n) : n ≠ -1 := by
  rintro rfl
  revert h
  decide

section

variable {quota : Except QuotaFault Quota} {height : Except ChainFault Int64} {g : Grant}

/-- The quota that is reported is -1 of -1 just if none was read. -/
theorem Signing.reportedQuota_cases (hopen : quota.toOption.any Quota.isExhausted = false)
    (hperformed : ∀ q, quota = .ok q → 0 ≤ q.performed) (isCounted : Bool) :
    let reported := reportedQuota quota.toOption isCounted
    (quota.isOk = false ∧ reported = .unread) ∨
      (quota.isOk = true ∧ 0 ≤ reported.performed ∧ reported.performed ≤ reported.total ∧
        0 ≤ reported.total) := by
  intro reported
  cases hq : quota with
  | error fault =>
      refine .inl ⟨rfl, ?_⟩
      show reportedQuota quota.toOption isCounted = _
      rw [hq]
      rfl
  | ok q =>
      have hreported : reported = reportedQuota (some q) isCounted := by
        show reportedQuota quota.toOption isCounted = _
        rw [hq]
        rfl
      obtain ⟨_, hadd, hle⟩ := reportedQuota_of_unspent (any_isExhausted_iff.1 hopen q hq) isCounted
      have hzero : (0 : Int64).toInt = 0 := by decide
      have hread := Int64.le_iff_toInt_le.1 (hperformed q hq)
      have hcounted : (0 : Int) ≤ if isCounted then 1 else 0 := by
        split
        · decide
        · decide
      rw [hreported]
      refine .inr ⟨rfl, Int64.le_iff_toInt_le.2 ?_, Int64.le_iff_toInt_le.2 hle,
        Int64.le_iff_toInt_le.2 ?_⟩
      · omega
      · omega

theorem Grant.tells (hopen : quota.toOption.any Quota.isExhausted = false)
    (hperformed : ∀ q, quota = .ok q → 0 ≤ q.performed) (hheight : ∀ n, height = .ok n → 0 ≤ n)
    {isCounted : Bool} (hq : g.quota = Signing.reportedQuota quota.toOption isCounted)
    (hh : g.height = height.toOption.getD unknown) {isDuplicate isRecorded isCounted' : Bool}
    (hw : g.warnings =
      Signing.warningsOf (quota.isOk && height.isOk) isDuplicate isRecorded isCounted') :
    g.answer.Tells quota height := by
  -- the two numbers of a quota are both unread or both non-negative
  have hquota : (quota.isOk = false ∧ g.quota = .unread) ∨
      (quota.isOk = true ∧ 0 ≤ g.quota.performed ∧ g.quota.performed ≤ g.quota.total ∧
        0 ≤ g.quota.total) := by
    rw [hq]
    exact Signing.reportedQuota_cases hopen hperformed isCounted
  have hperformed' : g.quota.performed = -1 ↔ quota.isOk = false := by
    rcases hquota with ⟨hfailed, hunread⟩ | ⟨hread, hnonneg, _⟩
    · simp [hfailed, hunread, Quota.unread, unknown]
    · simp [hread, ne_unknown_of_nonneg hnonneg]
  have htotal : g.quota.total = -1 ↔ quota.isOk = false := by
    rcases hquota with ⟨hfailed, hunread⟩ | ⟨hread, _, _, hnonneg⟩
    · simp [hfailed, hunread, Quota.unread, unknown]
    · simp [hread, ne_unknown_of_nonneg hnonneg]
  have hheight' : g.height = -1 ↔ height.isOk = false := by
    rw [hh]
    cases hn : height with
    | error fault => exact ⟨fun _ => rfl, fun _ => rfl⟩
    | ok n =>
        have hne : n ≠ -1 := ne_unknown_of_nonneg (hheight n hn)
        simpa [Except.toOption, Except.isOk, Except.toBool] using hne
  refine ⟨hperformed', htotal, hheight', ?_, ?_, ?_⟩
  · -- `performed` and `total` are -1 together, so the warning is for three numbers
    show (∃ text, Warning.text? g.warnings = some text ∧ _) ↔ g.quota.performed = -1 ∨
      g.quota.total = -1 ∨ g.height = -1
    rw [hw, Signing.text_warningsOf, hperformed', htotal, hheight', Bool.and_eq_false_iff,
      ← or_assoc, or_self]
  · intro hne
    rcases hquota with ⟨hfailed, _⟩ | ⟨_, hnonneg, hle, _⟩
    · exact absurd (hperformed'.2 hfailed) hne
    · exact ⟨hnonneg, hle⟩
  · intro hne
    cases hn : height with
    | error fault => exact absurd (hheight'.2 (by rw [hn]; rfl)) hne
    | ok n =>
        have hread : g.height = n := by
          rw [hh, hn]
          rfl
        show 0 ≤ g.height
        rw [hread]
        exact hheight n hn

end

namespace Deployment

variable {d : Deployment} {node : Rpc.Node} {policy : AllowancePolicy}

/-- A count that was read is not negative. -/
theorem performed_nonneg (h : d.database.ledger.IsCounting) {account : Account} {q : Quota}
    (hq : d.quotaOf account = .ok q) : 0 ≤ q.performed := by
  unfold quotaOf at hq
  rcases d.database.execute_cases (.readCount account) with ⟨fault, he⟩ | he
  · rw [he] at hq
    cases hq
  · rw [he] at hq
    cases ht : (d.allowance account).1 with
    | error fault =>
        rw [ht] at hq
        cases hq
    | ok total =>
        rw [ht] at hq
        obtain rfl := Except.ok.inj hq
        exact h.count account

/-- A height that was read from a node is not negative. -/
theorem heightOf_nonneg (hchain : d.chain = .node node policy) {account : Account} {n : Int64}
    (hn : d.heightOf account = .ok n) : 0 ≤ n := by
  unfold heightOf at hn
  rw [allowance_eq, hchain] at hn
  rw [height_eq, show (readChain _ d).2.chain = .node node policy from hchain] at hn
  exact Chain.height_nonneg hn

/-- **An answer tells what could not be read.** On a deployment that reads allowances and heights
from a node, whatever the policy and the replies of the node, an answer with the status 200 has a
count of -1 just if it has a total of -1, and just if the quota could not be read; a height of -1
just if the height could not be read; and the warning of an unread chain just if one of them is -1.
Otherwise the count lies between zero and the total, and the height is not negative. This holds as
long as no count is negative, and no run makes one negative. -/
theorem tells_of_status (hcounts : d.database.ledger.IsCounting) :
    (∀ node policy r, d.chain = .node node policy → d.service.resource? r = some .sign →
      r.method = "POST" → (respond r d).1.status = 200 →
      ∃ s request, ∃ answer : Answer, Service.readSubmission (some d.config.bodyLimit) r = .ok s ∧
        Admitted.ofRequest d.config.limits d.clock.millis s.body.length s.request = .ok request ∧
        (respond r d).1 = .json 200 answer.body ∧
        answer.Tells (d.quotaOf request.account) (d.heightOf request.account)) ∧
    (∀ r, (respond r d).2.database.ledger.IsCounting) ∧
    (∀ σ earlier, System.Run d.database.ledger σ earlier → σ.ledger.IsCounting) ∧
    ∀ statements, (d.database.ledger.executeAll statements).IsCounting := by
  refine ⟨?_, ?_, fun σ earlier => hcounts.run, hcounts.executeAll⟩
  · intro node policy r hchain hr hm hstatus
    obtain ⟨g, hg, hresponse⟩ := exists_grant_of_status hr hm hstatus
    obtain ⟨s, request, hgranted⟩ := exists_granted hg
    refine ⟨s, request, g.answer, hgranted.read, hgranted.admitted, hresponse, ?_⟩
    -- the grant is the one that a deployment makes of its quota and its height
    obtain ⟨_, _, _, hwarnings⟩ := d.exists_warnings_grantOf request g.signature
    rw [hgranted.granted]
    exact Grant.tells hgranted.opened (fun q => performed_nonneg hcounts)
      (fun n => heightOf_nonneg hchain) rfl rfl hwarnings
  · intro r
    obtain ⟨trace, _, hs⟩ := exists_yields_perform (d.service.answer d.metrics r) d
    exact hcounts.follows hs.follows

/-- A node that is asked for its height only: other calls do not reach it. -/
def heightOnly : Rpc.Node := fun c =>
  if c.method = "eth_blockNumber" then
    .answered 200 (Text.Utf8.encode "\x7b\"result\":\"0x64\"\x7d")
  else .unreachable

/-- A rehearsal with a policy that allows a negative number of queries. -/
def negativeRehearsal (node : Rpc.Node) : Deployment :=
  { rehearsal .empty none with chain := .node node ⟨-1, 0, 0⟩ }

/-- Without a quota a query passes, even where the policy would allow none. -/
theorem tells_of_rehearsal :
    let d := negativeRehearsal heightOnly
    d.database.ledger.IsCounting ∧ (respond rehearsedPost d).1.status = 200 ∧
      ∃ account, ∃ answer : Answer, (respond rehearsedPost d).1 = .json 200 answer.body ∧
        answer.Tells (d.quotaOf account) (d.heightOf account) := by
  intro d
  have hcounts : d.database.ledger.IsCounting := by
    intro name n hn
    cases hn
  obtain ⟨request, hs⟩ := exists_rehearsed_admitted
  have hd : Rehearses d := ⟨rfl, rfl, rfl, rfl, rfl⟩
  have hr : d.service.resource? rehearsedPost = some .sign := hd.resource rfl
  -- the node does not answer to a call for an allowance
  have hopen : (d.quotaOf request.account).toOption.any Quota.isExhausted = false := rfl
  have hstatus : (respond rehearsedPost d).1.status = 200 :=
    hd.status_respond rfl hs (accepts_of_acceptAll rfl _ _ _) hopen rfl rfl
  obtain ⟨s, request, answer, _, _, hresponse, htells⟩ :=
    (tells_of_status hcounts).1 heightOnly ⟨-1, 0, 0⟩ rehearsedPost rfl hr rfl hstatus
  exact ⟨hcounts, hstatus, request.account, answer, hresponse, htells⟩

end Deployment

end BlindSign

import BlindSign.Proofs.Quantities
import BlindSign.Proofs.Unread

set_option autoImplicit false

/-! # Which answers of a node are looked at

Whether the body of an answer is looked at is a matter of its status alone. It is not if the status
tells of an error of the caller or of the node, or belongs to answers without a body
(`Rpc.IsPassedOver`); with any other status the body is read as with the status 200.

**Of the answers that tell of no success, those are passed over that are informational, tell of no
change, or report an error** (`Chain.disregards_iff`). With such an answer every read of the chain
fails in transport, and a service that gets no others reports no number from the chain. A
redirection that leads nowhere and a status from 600 on tell of no success either, and yet their
bodies are read (`Chain.reads_redirection`).
-/

namespace BlindSign

namespace Http

/-- Statuses are numbers of three digits. -/
def IsStatus (status : Nat) : Prop := 100 ≤ status ∧ status ≤ 999

def IsSuccess (status : Nat) : Prop := 200 ≤ status ∧ status ≤ 299

end Http

namespace Rpc

/-! ## Replies -/

/-- An answer with a status is passed over, whatever its body. -/
def IsPassedOver (status : Nat) : Prop :=
  status < 200 ∨ status = 204 ∨ status = 304 ∨ 400 ≤ status ∧ status < 600

variable {status : Nat} {node : Node} {client : Client} {method : String} {params : Json.Value}

/-- The guard in front of a body. -/
theorem isPassedOver_iff :
    (reportsError status || !carriesBody status) = true ↔ IsPassedOver status := by
  simp only [reportsError, carriesBody, IsPassedOver, Bool.or_eq_true, Bool.and_eq_true,
    Bool.not_eq_true', Bool.and_eq_false_iff, decide_eq_true_eq, decide_eq_false_iff_not]
  omega

theorem result_of_isPassedOver (h : IsPassedOver status) (method : String) (body : List UInt8) :
    (Reply.answered status body).result method = .error .transport := by
  have hresponse : (Reply.answered status body).response? = none :=
    if_pos (isPassedOver_iff.2 h)
  rw [Reply.result, hresponse]

/-- An answer that is not passed over is read as one with the status 200. -/
theorem result_of_not_isPassedOver (h : ¬ IsPassedOver status) (method : String)
    (body : List UInt8) :
    (Reply.answered status body).result method = (Reply.answered 200 body).result method := by
  have hresponse : (Reply.answered status body).response? = Response.ofBody? body :=
    if_neg (fun hguard => h (isPassedOver_iff.1 hguard))
  have hsuccess : (Reply.answered 200 body).response? = Response.ofBody? body := rfl
  rw [Reply.result, Reply.result, hresponse, hsuccess]

/-- A response with the quantity sixteen. -/
def sixteenBody : List UInt8 :=
  Text.Utf8.encode "\x7b\"jsonrpc\":\"2.0\",\"id\":1,\"result\":\"0x10\"\x7d"

/-- A node that answers every call with one status, and sixteen as its result. -/
def Node.sixteen (status : Nat) : Node := fun _ => .answered status sixteenBody

/-- A node answers a call with a status. -/
def Node.AnswersWith (node : Node) (call : Call) (status : Nat) : Prop :=
  ∃ body, node call = .answered status body

end Rpc

namespace Chain

variable {status : Nat} {node : Rpc.Node} {client : Rpc.Client} {method : String}
  {params : List Json.Value} {a : Account} {policy : AllowancePolicy}

/-! ## Reads -/

/-- A read gives a number, or fails in transport. -/
def FailsInTransportOnly {α : Type} (read : Except ChainFault α) : Prop :=
  ∀ fault, read = .error fault → fault = .rpc .transport

/-- No read of the chain makes anything of an answer with a status: whatever the body, it fails in
transport. An allowance takes two answers. One with the status is enough for it to fail, and it
fails in transport unless the other read fails for another reason. -/
structure Disregards (status : Nat) : Prop where
  height : ∀ (node : Rpc.Node) (client : Rpc.Client),
    node.AnswersWith ⟨client.nextId, "eth_blockNumber", .array []⟩ status →
    (height node client).1 = .error (.rpc .transport)
  transactions : ∀ (node : Rpc.Node) (client : Rpc.Client) (a : Account),
    node.AnswersWith ⟨client.nextId, "eth_getTransactionCount", .array (latest a)⟩ status →
    (transactions node a client).1 = .error (.rpc .transport)
  balance : ∀ (node : Rpc.Node) (client : Rpc.Client) (a : Account),
    node.AnswersWith ⟨client.nextId, "eth_getBalance", .array (latest a)⟩ status →
    (balance node a client).1 = .error (.rpc .transport)
  allowance : ∀ (node : Rpc.Node) (client : Rpc.Client) (a : Account) (policy : AllowancePolicy),
    node.AnswersWith ⟨client.nextId, "eth_getTransactionCount", .array (latest a)⟩ status ∨
      node.AnswersWith ⟨client.nextId + 1, "eth_getBalance", .array (latest a)⟩ status →
    (∀ total, (allowance node policy a client).1 ≠ .ok total) ∧
      (FailsInTransportOnly (Chain.transactions node a client).1 →
        FailsInTransportOnly (Chain.balance node a (Chain.transactions node a client).2).1 →
        (allowance node policy a client).1 = .error (.rpc .transport))

theorem quantity_of_isPassedOver (h : Rpc.IsPassedOver status)
    (hanswer : node.AnswersWith ⟨client.nextId, method, .array params⟩ status) :
    (quantity node method params client).1 = .error (.rpc .transport) := by
  obtain ⟨body, hbody⟩ := hanswer
  have hquantity : (quantity node method params client).1 =
      ((((node ⟨client.nextId, method, .array params⟩).result method).bind
        (Rpc.expectText method)).bind Rpc.parseQuantity).mapError .rpc := rfl
  rw [hquantity, hbody, Rpc.result_of_isPassedOver h]
  rfl

theorem height_of_isPassedOver (h : Rpc.IsPassedOver status)
    (hanswer : node.AnswersWith ⟨client.nextId, "eth_blockNumber", .array []⟩ status) :
    (height node client).1 = .error (.rpc .transport) := by
  have hheight : (height node client).1 =
      (quantity node "eth_blockNumber" [] client).1.bind heightOf := rfl
  rw [hheight, quantity_of_isPassedOver h hanswer]
  rfl

theorem transactions_of_isPassedOver (h : Rpc.IsPassedOver status)
    (hanswer : node.AnswersWith
      ⟨client.nextId, "eth_getTransactionCount", .array (latest a)⟩ status) :
    (transactions node a client).1 = .error (.rpc .transport) := by
  have htransactions : (transactions node a client).1 =
      (quantity node "eth_getTransactionCount" (latest a) client).1.bind transactionsOf := rfl
  rw [htransactions, quantity_of_isPassedOver h hanswer]
  rfl

/-- An allowance for which one read fails in transport, and the other one for no other reason. -/
theorem allowance_of_failsInTransportOnly
    (hsent : FailsInTransportOnly (transactions node a client).1)
    (hheld : FailsInTransportOnly (balance node a (transactions node a client).2).1)
    (hnone : ∀ total, (allowance node policy a client).1 ≠ .ok total) :
    (allowance node policy a client).1 = .error (.rpc .transport) := by
  have hallowance : (allowance node policy a client).1 =
      (transactions node a client).1.bind fun sent =>
        (balance node a (transactions node a client).2).1.map fun held => policy.total sent held :=
    rfl
  rw [hallowance] at hnone ⊢
  cases hs : (transactions node a client).1 with
  -- the fault of the first read wins
  | error fault =>
      obtain rfl := hsent fault hs
      rfl
  | ok sent =>
      cases hb : (balance node a (transactions node a client).2).1 with
      | error fault =>
          obtain rfl := hheld fault hb
          rfl
      | ok held =>
          rw [hs, hb] at hnone
          exact absurd rfl (hnone (policy.total sent held))

/-- **An answer that is passed over is worth nothing to any read.** -/
theorem disregards_of_isPassedOver (h : Rpc.IsPassedOver status) : Disregards status where
  height _ _ := height_of_isPassedOver h
  transactions _ _ _ := transactions_of_isPassedOver h
  balance _ _ _ := quantity_of_isPassedOver h
  allowance node client a policy hanswer := by
    have hnone : ∀ total, (allowance node policy a client).1 ≠ .ok total := by
      intro total htotal
      obtain ⟨sent, held, hsent, hheld, -⟩ := (allowance_eq_ok_iff ..).1 htotal
      rcases hanswer with hfirst | hsecond
      · rw [transactions_of_isPassedOver h hfirst] at hsent
        cases hsent
      · -- the call for the balance has the next number
        have hfailed : (balance node a (transactions node a client).2).1 = .error (.rpc .transport) :=
          quantity_of_isPassedOver h hsecond
        rw [hfailed] at hheld
        cases hheld
    exact ⟨hnone, fun hsent hheld => allowance_of_failsInTransportOnly hsent hheld hnone⟩

/-- A status that is not passed over lets a height through. -/
theorem height_sixteen (h : ¬ Rpc.IsPassedOver status) :
    (height (.sixteen status) .fresh).1 = .ok 16 := by
  have hheight : ∀ status, (height (.sixteen status) .fresh).1 =
      (((((Rpc.Reply.answered status Rpc.sixteenBody).result "eth_blockNumber").bind
        (Rpc.expectText "eth_blockNumber")).bind Rpc.parseQuantity).mapError
          ChainFault.rpc).bind heightOf :=
    fun _ => rfl
  rw [hheight, Rpc.result_of_not_isPassedOver h, ← hheight]
  decide +kernel

/-- **The statuses that are disregarded are those that are passed over.** -/
theorem disregards_iff_isPassedOver : Disregards status ↔ Rpc.IsPassedOver status := by
  refine ⟨fun hdisregards => ?_, disregards_of_isPassedOver⟩
  by_contra h
  have hfails := hdisregards.height (.sixteen status) .fresh ⟨Rpc.sixteenBody, rfl⟩
  rw [height_sixteen h] at hfails
  cases hfails

end Chain

namespace Deployment

/-! ## Answers of the service -/

variable {d : Deployment} {node : Rpc.Node} {policy : AllowancePolicy} {r : Http.Request}

/-- Every answer that a deployment gets from its node has a status that is disregarded. -/
def IsUnanswered (d : Deployment) : Prop :=
  ∃ node policy, d.chain = .node node policy ∧
    ∀ call, ∃ status, Chain.Disregards status ∧ node.AnswersWith call status

theorem IsUnanswered.quotaOf (h : d.IsUnanswered) (account : Account) :
    (d.quotaOf account).isOk = false := by
  obtain ⟨node, policy, hchain, hanswers⟩ := h
  obtain ⟨status, hdisregards, hanswer⟩ :=
    hanswers ⟨d.client.nextId, "eth_getTransactionCount", .array (Chain.latest account)⟩
  have hallowance : (d.allowance account).1 = (Chain.allowance node policy account d.client).1 := by
    rw [allowance_eq, hchain]
    rfl
  have hnone := (hdisregards.allowance node d.client account policy (.inl hanswer)).1
  unfold Deployment.quotaOf
  rw [hallowance]
  cases (d.database.execute (.readCount account)).1 with
  | error fault => rfl
  | ok count =>
      cases ht : (Chain.allowance node policy account d.client).1 with
      | error fault => rfl
      | ok total => exact absurd ht (hnone total)

theorem IsUnanswered.heightOf (h : d.IsUnanswered) (account : Account) :
    d.heightOf account = .error (.rpc .transport) := by
  obtain ⟨node, policy, hchain, hanswers⟩ := h
  have hheight : d.heightOf account =
      (Chain.height node (Chain.allowance node policy account d.client).2).1 := by
    unfold Deployment.heightOf
    rw [allowance_eq, hchain, height_eq, show (readChain _ d).2.chain = _ from hchain]
    rfl
  obtain ⟨status, hdisregards, hanswer⟩ := hanswers
    ⟨(Chain.allowance node policy account d.client).2.nextId, "eth_blockNumber", .array []⟩
  rw [hheight]
  exact hdisregards.height node _ hanswer

theorem signed_ne_exhausted (d : Deployment) (query : BlindedQuery) (quota : Quota)
    (height : Int64) : d.signed query ≠ .error (.exhausted quota height) := by
  unfold signed
  cases d.shareOf with
  | error fault => simp
  | ok share =>
      dsimp only
      cases d.engine query share with
      | error fault => simp [Except.mapError]
      | ok signature => simp [Except.mapError]

/-- A quota that is reported as exhausted was read. -/
theorem exists_quotaOf_of_exhausted {quota : Quota} {height : Int64}
    (h : (outcome r d).1 = .error (.exhausted quota height)) :
    ∃ account, d.quotaOf account = .ok quota := by
  rcases outcome_cases_early r d with ⟨s, request, hr, hs, ha⟩ | ⟨refusal, _, _, hearly, -, ho⟩
  · refine ⟨request.account, ?_⟩
    cases hx : (d.quotaOf request.account).toOption.any Quota.isExhausted with
    | false =>
        have ho := outcome_of_not_exhausted hr hs ha hx
        cases hsigned : d.signed request.query with
        | error refusal =>
            rw [hsigned] at ho
            rw [show (outcome r d).1 = _ from ho] at h
            obtain rfl := Except.error.inj h
            exact absurd hsigned (signed_ne_exhausted d request.query quota height)
        | ok signature =>
            rw [hsigned] at ho
            rw [ho.1] at h
            cases h
    | true =>
        cases hq : d.quotaOf request.account with
        | error fault =>
            rw [hq] at hx
            cases hx
        | ok q =>
            rw [hq] at hx
            obtain ⟨height', ho, -⟩ := outcome_of_exhausted hr hs ha hq hx
            rw [ho] at h
            cases h
            rfl
  · -- an outcome before the quota is an invalid request or a caller who is not accepted
    rw [ho] at h
    obtain rfl := Except.error.inj h
    rcases hearly with hearly | ⟨fault, hearly⟩ <;> cases hearly

/-- **Where no answer of the node counts, no answer of the service has a number from it.** None says
that a quota is exhausted, and those that carry a signature have -1 for all numbers. -/
theorem IsUnanswered.respond (h : d.IsUnanswered) (hr : d.service.resource? r = some .sign)
    (hm : r.method = "POST") : (respond r d).1.status ≠ 403 ∧
      ((respond r d).1.status = 200 → ∃ answer : Answer, (respond r d).1 = .json 200 answer.body ∧
        answer.performed = -1 ∧ answer.total = -1 ∧ answer.height = -1) := by
  constructor
  · intro hstatus
    rw [(respond_eq hr hm).1] at hstatus
    cases ho : (outcome r d).1 with
    | ok g =>
        rw [ho] at hstatus
        cases hstatus
    | error refusal =>
        rw [ho] at hstatus
        -- only an exhausted quota has the status 403
        cases refusal with
        | exhausted quota height =>
            obtain ⟨account, hquota⟩ := exists_quotaOf_of_exhausted ho
            have hunread := h.quotaOf account
            rw [hquota] at hunread
            cases hunread
        | _ => cases hstatus
  · intro hstatus
    obtain ⟨g, hg, hresponse⟩ := exists_grant_of_status hr hm hstatus
    obtain ⟨s, request, hgranted⟩ := exists_granted hg
    have hheight : g.height = unknown := by
      rw [hgranted.granted]
      unfold grantOf
      rw [h.heightOf]
      rfl
    have hunread : g.quota = .unread := by
      rw [hgranted.reported]
      cases hq : d.quotaOf request.account with
      | error fault => rfl
      | ok quota =>
          have hfailed := h.quotaOf request.account
          rw [hq] at hfailed
          cases hfailed
    refine ⟨g.answer, hresponse, ?_, ?_, hheight⟩
    · exact congrArg Quota.performed hunread
    · exact congrArg Quota.total hunread

end Deployment

namespace Chain

/-- **The answers without success that are disregarded.** An answer with a status that tells of no
success is worth nothing to any read of the chain if and only if its status is informational, tells
of no change, or reports an error; and a service that gets no other answers reports no number from
the chain. With any other status, which is one of a redirection or lies beyond the errors, the body
is read as if it came with the status 200. -/
theorem disregards_iff {status : Nat} (hstatus : Http.IsStatus status)
    (hfailure : ¬ Http.IsSuccess status) :
    (Disregards status ↔
      100 ≤ status ∧ status ≤ 199 ∨ status = 304 ∨ 400 ≤ status ∧ status ≤ 599) ∧
    (¬ Disregards status → ∀ method body,
      (Rpc.Reply.answered status body).result method =
        (Rpc.Reply.answered 200 body).result method) ∧
    ∀ (d : Deployment) (r : Http.Request), d.IsUnanswered → d.service.resource? r = some .sign →
      r.method = "POST" → (d.respond r).1.status ≠ 403 ∧
        ((d.respond r).1.status = 200 → ∃ answer : Answer,
          (d.respond r).1 = .json 200 answer.body ∧
          answer.performed = -1 ∧ answer.total = -1 ∧ answer.height = -1) := by
  refine ⟨?_, ?_, fun d r h hr hm => h.respond hr hm⟩
  · rw [disregards_iff_isPassedOver]
    -- what is left to compare are ranges of numbers
    unfold Http.IsStatus at hstatus
    unfold Http.IsSuccess at hfailure
    unfold Rpc.IsPassedOver
    omega
  · rw [disregards_iff_isPassedOver]
    exact Rpc.result_of_not_isPassedOver

/-- A height that comes with the last status of an error is not read. -/
theorem disregards_iff_of_lastError :
    Http.IsStatus 599 ∧ ¬ Http.IsSuccess 599 ∧ Disregards 599 ∧
      (height (.sixteen 599) .fresh).1 = .error (.rpc .transport) := by
  have hstatus : Http.IsStatus 599 := ⟨by decide, by decide⟩
  have hfailure : ¬ Http.IsSuccess 599 := fun h => absurd h.2 (by decide)
  obtain ⟨hiff, -⟩ := disregards_iff hstatus hfailure
  have hdisregards : Disregards 599 := hiff.2 (.inr (.inr ⟨by decide, by decide⟩))
  exact ⟨hstatus, hfailure, hdisregards, hdisregards.height _ _ ⟨Rpc.sixteenBody, rfl⟩⟩

/-- **A redirection that leads nowhere is read.** It is an answer without success, and yet the
height and the allowance are taken from its body. -/
theorem reads_redirection :
    Http.IsStatus 300 ∧ ¬ Http.IsSuccess 300 ∧
      (height (.sixteen 300) .fresh).1 = .ok 16 ∧
      (allowance (.sixteen 300) .standard ⟨List.replicate 20 0, rfl⟩ .fresh).1 = .ok 170 ∧
      ¬ ∀ status, Http.IsStatus status → ¬ Http.IsSuccess status → Disregards status := by
  have hstatus : Http.IsStatus 300 := ⟨by decide, by decide⟩
  have hfailure : ¬ Http.IsSuccess 300 := fun h => absurd h.2 (by decide)
  have hheight : (height (.sixteen 300) .fresh).1 = .ok 16 := by decide +kernel
  refine ⟨hstatus, hfailure, hheight, by decide +kernel, fun hall => ?_⟩
  have hfails := (hall 300 hstatus hfailure).height (.sixteen 300) .fresh ⟨Rpc.sixteenBody, rfl⟩
  rw [hheight] at hfails
  cases hfails

end Chain

end BlindSign

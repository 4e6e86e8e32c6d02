import BlindSign.Proofs.Admission
import BlindSign.Proofs.Execution

set_option autoImplicit false

/-! # Deployments execute procedures

A deployment that performs a procedure executes it: its replies tell the truth about the ledger
(`answer_isTrueOf`), and the ledger moves as the exchanges say, at the time of the clock
(`answer_movesBetween`). So whatever holds of all executions of a procedure holds of every
deployment (`exists_servesBetween_perform`, `exists_yields_perform`).

No call changes how a deployment is set up (`answer_sameSetup`), and only writes change its database
(`database_answer`).
-/

namespace BlindSign

namespace Database

theorem execute_of_works {s : Statement} {d : Database} (h : d.faultOf? s = none) :
    d.execute s = ((d.ledger.execute s).1, { d with ledger := (d.ledger.execute s).2 }) := by
  unfold Database.execute
  rw [h]

/-- A statement fails and changes nothing, or it is carried out. -/
theorem execute_cases (s : Statement) (d : Database) :
    (∃ fault, d.execute s = (.error fault, d)) ∨
      d.execute s = ((d.ledger.execute s).1, { d with ledger := (d.ledger.execute s).2 }) := by
  cases hf : d.faultOf? s with
  | some fault =>
      unfold Database.execute
      rw [hf]
      exact .inl ⟨fault, rfl⟩
  | none => exact .inr (execute_of_works hf)

/-- A statement that leaves the ledger as it is leaves the database as it is. -/
theorem execute_snd (s : Statement) (d : Database) (hs : (d.ledger.execute s).2 = d.ledger) :
    (d.execute s).2 = d := by
  rcases d.execute_cases s with ⟨fault, h⟩ | h
  · rw [h]
  · rw [h, hs]

theorem execute_addRecord (fingerprint : Fingerprint) (record : Record) (d : Database) :
    (∃ fault, d.execute (.addRecord fingerprint record) = (.error fault, d)) ∨
      d.execute (.addRecord fingerprint record) =
        (.ok (), { d with ledger := d.ledger.addRecord fingerprint record }) :=
  d.execute_cases (.addRecord fingerprint record)

theorem execute_addCount (account : Account) (d : Database) :
    (∃ fault, d.execute (.addCount account) = (.error fault, d)) ∨
      ∃ l, d.ledger.increment? account = some l ∧
        d.execute (.addCount account) = (.ok (), { d with ledger := l }) := by
  rcases d.execute_cases (.addCount account) with h | h
  · exact .inl h
  · cases hl : d.ledger.increment? account with
    | none =>
        have he : d.ledger.execute (.addCount account) =
            (.error (.rejected "bigint out of range"), d.ledger) := by
          simp only [Ledger.execute, hl]
        exact .inl ⟨_, by rw [h, he]⟩
    | some l =>
        have he : d.ledger.execute (.addCount account) = (.ok (), l) := by
          simp only [Ledger.execute, hl]
        exact .inr ⟨l, rfl, by rw [h, he]⟩

end Database

def Collaborator.isCheck : Collaborator → Bool
  | .callerCheck => true
  | .keyRegister => true
  | _ => false

namespace Deployment

variable {α β : Type}

/-! ## Replies -/

def logging (c : Collaborator) (d : Deployment) : Deployment := { d with calls := c :: d.calls }

def quotaOf (d : Deployment) (account : Account) : Except QuotaFault Quota :=
  Quota.combine (d.database.execute (.readCount account)).1 (d.allowance account).1

/-- The height that a deployment reads after the quota of an account. -/
def heightOf (d : Deployment) (account : Account) : Except ChainFault Int64 :=
  (height (allowance account d).2).1

def shareOf (d : Deployment) : Except KeyFault KeyShare :=
  match d.share with
  | some share => .ok share
  | none => .error .missing

def accepts (d : Deployment) (account : Account) (body : List UInt8)
    (authorization : Option String) : Bool :=
  match d.callers with
  | .acceptAll => true
  | .refuseAll => false
  | .signedBody =>
    match authorization.bind Authorization.signature? with
    | none => false
    | some signature =>
      match (d.database.execute (.readKey account)).1 with
      | .ok (some key) => Authorization.verifies key body signature
      | _ => false

theorem allowance_eq (account : Account) (d : Deployment) :
    allowance account d = (match d.chain with
      | .given total _ => (givenOr total, d)
      | .node node policy => readChain (Chain.allowance node policy account) d) := by
  obtain ⟨config, site, callers, chain, engine, share, database, client, clock, calls, metrics⟩ := d
  cases chain with
  | given total height => rfl
  | node node policy => rfl

theorem height_eq (d : Deployment) :
    height d = (match d.chain with
      | .given _ n => (givenOr n, d)
      | .node node _ => readChain (Chain.height node) d) := by
  obtain ⟨config, site, callers, chain, engine, share, database, client, clock, calls, metrics⟩ := d
  cases chain with
  | given total height => rfl
  | node node policy => rfl

/-- An allowance depends on the chain and on the calls made to it so far. -/
theorem allowance_congr {d d' : Deployment} (account : Account) (hchain : d'.chain = d.chain)
    (hclient : d'.client = d.client) : (allowance account d').1 = (allowance account d).1 := by
  rw [allowance_eq, allowance_eq, hchain]
  cases d.chain with
  | given total height => rfl
  | node node policy =>
      show (Chain.allowance node policy account d'.client).1 =
        (Chain.allowance node policy account d.client).1
      rw [hclient]

/-- A height depends on the chain and on the calls made to it so far. -/
theorem height_congr {d d' : Deployment} (hchain : d'.chain = d.chain)
    (hclient : d'.client = d.client) : (height d').1 = (height d).1 := by
  rw [height_eq, height_eq, hchain]
  cases d.chain with
  | given total height => rfl
  | node node policy =>
      show (Chain.height node d'.client).1 = (Chain.height node d.client).1
      rw [hclient]

theorem heightOf_congr {d d' : Deployment} (account : Account) (hchain : d'.chain = d.chain)
    (hclient : d'.client = d.client) : d'.heightOf account = d.heightOf account := by
  unfold heightOf
  rw [allowance_eq, allowance_eq, hchain]
  cases hc : d.chain with
  | given total height =>
      exact height_congr hchain hclient
  | node node policy =>
      refine height_congr hchain ?_
      show (Chain.allowance node policy account d'.client).2 =
        (Chain.allowance node policy account d.client).2
      rw [hclient]

/-- A statement that only reads leaves the deployment as it is. -/
theorem execute_of_reads (s : Statement) (d : Deployment) (hs : ∀ l : Ledger, (l.execute s).2 = l) :
    execute s d = ((d.database.execute s).1, d) := by
  show ((d.database.execute s).1, { d with database := (d.database.execute s).2 }) = _
  rw [Database.execute_snd s d.database (hs _)]

theorem answer_loadKey (d : Deployment) :
    answer .loadKey d = (d.shareOf, d.logging .keyShare) := by
  obtain ⟨config, site, callers, chain, engine, share, database, client, clock, calls, metrics⟩ := d
  cases share with
  | none => rfl
  | some share => rfl

theorem answer_sign (query : BlindedQuery) (share : KeyShare) (d : Deployment) :
    answer (.sign query share) d = (d.engine query share, d.logging .engine) := rfl

theorem answer_readQuota (account : Account) (phoneHash : Option PhoneHash) (d : Deployment) :
    answer (.readQuota account phoneHash) d =
      (d.quotaOf account, (allowance account ((d.logging .quota).logging .count)).2) := by
  have h : answer (.readQuota account phoneHash) d =
      (let r := execute (.readCount account) ((d.logging .quota).logging .count)
       (Quota.combine r.1 (allowance account r.2).1, (allowance account r.2).2)) := rfl
  rw [h, execute_of_reads _ _ fun _ => rfl]
  exact congrArg (fun total => (Quota.combine _ total, _)) (allowance_congr account rfl rfl)

theorem answer_findRecord (fingerprint : Fingerprint) (d : Deployment) :
    answer (.findRecord fingerprint) d =
      ((d.database.execute (.findRecord fingerprint)).1, d.logging .findRecord) :=
  execute_of_reads _ _ fun _ => rfl

theorem answer_addRecord (request : Admitted) (d : Deployment) :
    answer (.addRecord request) d =
      execute (.addRecord request.fingerprint (recordOf request d.clock))
        (d.logging .addRecord) := rfl

theorem answer_addCount (account : Account) (d : Deployment) :
    answer (.addCount account) d = execute (.addCount account) (d.logging .addCount) := rfl

theorem checkSignature_eq (account : Account) (body : List UInt8) (authorization : Option String)
    (d : Deployment) :
    checkSignature account body authorization d =
      match authorization.bind Authorization.signature? with
      | none => (false, d)
      | some signature =>
        (match (d.database.execute (.readKey account)).1 with
          | .ok (some key) => Authorization.verifies key body signature
          | _ => false, d.logging .keyRegister) := by
  unfold checkSignature
  cases authorization.bind Authorization.signature? with
  | none => rfl
  | some signature =>
      -- the monadic text of the check, so that the statement in it can be rewritten
      show (let r := execute (.readKey account) (d.logging .keyRegister)
        (match r.1 with
          | .ok (some key) => pure (Authorization.verifies key body signature)
          | _ => pure false : StateM Deployment Bool) r.2) = _
      rw [execute_of_reads _ _ fun _ => rfl]
      show (match (d.database.execute (.readKey account)).1 with
          | .ok (some key) => pure (Authorization.verifies key body signature)
          | _ => pure false : StateM Deployment Bool) (d.logging .keyRegister) = _
      cases (d.database.execute (.readKey account)).1 with
      | error fault => rfl
      | ok key? => cases key? <;> rfl

/-- The calls logged since an earlier log are about the caller. -/
def ChecksOnly (earlier later : List Collaborator) : Prop :=
  ∃ made, later = made ++ earlier ∧ ∀ c ∈ made, c.isCheck = true

theorem ChecksOnly.refl (calls : List Collaborator) : ChecksOnly calls calls :=
  ⟨[], rfl, fun _ hc => absurd hc List.not_mem_nil⟩

theorem answer_authenticate (request : Admitted) (body : List UInt8)
    (authorization : Option String) (d : Deployment) :
    ∃ calls, ChecksOnly d.calls calls ∧ answer (.authenticate request body authorization) d =
      (d.accepts request.account body authorization, { d with calls }) := by
  have h : answer (.authenticate request body authorization) d =
      (match d.callers with
        | .acceptAll => pure true
        | .refuseAll => pure false
        | .signedBody => checkSignature request.account body authorization :
          StateM Deployment Bool) (d.logging .callerCheck) := rfl
  have hcheck : ChecksOnly d.calls (.callerCheck :: d.calls) := ⟨[.callerCheck], rfl, by decide⟩
  have hregister : ChecksOnly d.calls (.keyRegister :: .callerCheck :: d.calls) :=
    ⟨[.keyRegister, .callerCheck], rfl, by decide⟩
  -- with the fields apart an update of `calls` is the term it computes to
  obtain ⟨config, site, callers, chain, engine, share, database, client, clock, calls, metrics⟩ := d
  rw [h]
  cases callers with
  | acceptAll => exact ⟨_, hcheck, rfl⟩
  | refuseAll => exact ⟨_, hcheck, rfl⟩
  | signedBody =>
      show ∃ later, ChecksOnly calls later ∧
        checkSignature request.account body authorization _ = _
      rw [checkSignature_eq]
      unfold accepts
      cases authorization.bind Authorization.signature? with
      | none => exact ⟨_, hcheck, rfl⟩
      | some signature => exact ⟨_, hregister, rfl⟩

/-! ## What a call changes -/

/-- The chain is read by its client alone. -/
theorem allowance_snd (account : Account) (d : Deployment) :
    ∃ client, (allowance account d).2 = { d with client } := by
  rw [allowance_eq]
  split
  · exact ⟨d.client, rfl⟩
  · exact ⟨_, rfl⟩

theorem height_snd (d : Deployment) : ∃ client, (height d).2 = { d with client } := by
  rw [height_eq]
  split
  · exact ⟨d.client, rfl⟩
  · exact ⟨_, rfl⟩

/-- A call that does not write changes only the log of calls and the client of the chain. -/
theorem answer_snd (call : Call) (d : Deployment) (hw : call.isWrite = false) :
    ∃ client calls, (answer call d).2 = { d with client, calls } := by
  cases call with
  | addRecord request => cases hw
  | addCount account => cases hw
  | authenticate request body authorization =>
      obtain ⟨calls, _, h⟩ := answer_authenticate request body authorization d
      exact ⟨d.client, calls, by rw [h]⟩
  | readQuota account phoneHash =>
      obtain ⟨client, h⟩ := allowance_snd account ((d.logging .quota).logging .count)
      exact ⟨client, _, by rw [answer_readQuota, h]; rfl⟩
  | readHeight =>
      obtain ⟨client, h⟩ := height_snd (d.logging .height)
      exact ⟨client, _, h⟩
  | loadKey => exact ⟨d.client, _, by rw [answer_loadKey]; rfl⟩
  | sign query share => exact ⟨d.client, _, rfl⟩
  | findRecord fingerprint => exact ⟨d.client, _, by rw [answer_findRecord]; rfl⟩

/-- Two deployments differ at most in the ledger, in the client of the chain and in the logs. -/
def SameSetup (d d' : Deployment) : Prop :=
  d' = { d with
    database := { d.database with ledger := d'.database.ledger }
    client := d'.client
    calls := d'.calls
    metrics := d'.metrics }

theorem SameSetup.refl (d : Deployment) : SameSetup d d := rfl

theorem SameSetup.trans {d d₁ d₂ : Deployment} (h : SameSetup d d₁) (h' : SameSetup d₁ d₂) :
    SameSetup d d₂ := by
  unfold SameSetup at *
  rw [h'] at *
  rw [h]

theorem execute_sameSetup (s : Statement) (d : Deployment) : SameSetup d (execute s d).2 := by
  have h : (execute s d).2 = { d with database := (d.database.execute s).2 } := rfl
  rw [h]
  rcases d.database.execute_cases s with ⟨fault, hf⟩ | hf
  · rw [hf]; rfl
  · rw [hf]; rfl

theorem answer_sameSetup (call : Call) (d : Deployment) : SameSetup d (answer call d).2 := by
  cases hw : call.isWrite with
  | false =>
      obtain ⟨client, calls, h⟩ := answer_snd call d hw
      rw [h]; rfl
  | true =>
      cases call with
      | addRecord request => exact execute_sameSetup _ (d.logging .addRecord)
      | addCount account => exact execute_sameSetup _ (d.logging .addCount)
      | _ => cases hw

/-! ## Calls as exchanges -/

/-- The exchange that takes place when a deployment answers a call. -/
def exchange (call : Call) (d : Deployment) : Exchange := ⟨call, (answer call d).1⟩

/-- The ledger of a deployment moves as its exchanges say, at the time of its clock. -/
theorem answer_movesBetween (call : Call) (d : Deployment) :
    (exchange call d).MovesBetween d.clock d.clock d.database.ledger
      (answer call d).2.database.ledger := by
  -- only two kinds of call reach the tables, and each is one statement
  cases hw : call.isWrite with
  | false =>
      obtain ⟨client, calls, h⟩ := answer_snd call d hw
      rw [h]
      exact Exchange.movesBetween_of_isWrite hw
  | true =>
      cases call with
      | addRecord request =>
          rcases Database.execute_addRecord request.fingerprint
            (recordOf request d.clock) d.database with ⟨fault, h⟩ | h
          · unfold exchange
            rw [answer_addRecord]
            unfold execute logging
            simp only [h]
            rfl
          · unfold exchange
            rw [answer_addRecord]
            unfold execute logging
            simp only [h]
            exact ⟨d.clock, Int.le_refl _, Int.le_refl _, rfl⟩
      | addCount account =>
          rcases Database.execute_addCount account d.database with ⟨fault, h⟩ | ⟨l, hl, h⟩
          · unfold exchange
            rw [answer_addCount]
            unfold execute logging
            simp only [h]
            rfl
          · unfold exchange
            rw [answer_addCount]
            unfold execute logging
            simp only [h]
            exact hl
      | _ => cases hw

/-- What the replies of a deployment tell about its ledger is true. -/
theorem answer_isTrueOf (call : Call) (d : Deployment) :
    (exchange call d).IsTrueOf d.database.ledger := by
  unfold exchange
  cases call with
  | readQuota account phoneHash =>
      rw [answer_readQuota]
      unfold quotaOf
      rcases d.database.execute_cases (.readCount account) with ⟨fault, h⟩ | h
      · rw [h]; trivial
      · rw [h]
        cases (d.allowance account).1 with
        | error fault => trivial
        | ok total => rfl
  | findRecord fingerprint =>
      rw [answer_findRecord]
      rcases d.database.execute_cases (.findRecord fingerprint) with ⟨fault, h⟩ | h
      · rw [h]; trivial
      · rw [h]; rfl
  | _ => trivial

/-! ## Performing -/

@[simp] theorem perform_bind (p : Procedure α) (f : α → Procedure β) (d : Deployment) :
    perform (p >>= f) d = perform (f (perform p d).1) (perform p d).2 := by
  show perform (p.andThen f) d = _
  induction p generalizing d with
  | finish result => rfl
  | note event next ih => exact ih _
  | ask call next ih => exact ih _ _
  | askBoth first second next ih => exact ih _ _ _

theorem SameSetup.clock_eq {d d' : Deployment} (h : SameSetup d d') : d'.clock = d.clock := by
  rw [h]

/-- The same statements fail. -/
theorem SameSetup.faultOf?_eq {d d' : Deployment} (h : SameSetup d d') (s : Statement) :
    d'.database.faultOf? s = d.database.faultOf? s := by
  rw [h]
  rfl

/-- What a deployment performs is an execution that its ledger serves at the time of its clock; each
exchange is one of a deployment with the same setup. -/
theorem exists_servesBetween_perform (p : Procedure α) (d : Deployment) :
    ∃ trace, p.Yields trace (perform p d).1 ∧
      d.database.ledger.ServesBetween d.clock d.clock trace (perform p d).2.database.ledger ∧
      ∀ e ∈ trace, ∃ call d', SameSetup d d' ∧ e = exchange call d' := by
  induction p generalizing d with
  | finish result => exact ⟨[], .refl _, rfl, by simp⟩
  | note event next ih =>
      have hsame : SameSetup d (record event d).2 := rfl
      obtain ⟨trace, hy, hs, he⟩ := ih (record event d).2
      refine ⟨trace, .head (.note event next) hy, hs, fun e hmem => ?_⟩
      obtain ⟨call, d', h, hexchange⟩ := he e hmem
      exact ⟨call, d', hsame.trans h, hexchange⟩
  | ask call next ih =>
      have hsame := answer_sameSetup call d
      obtain ⟨trace, hy, hs, he⟩ := ih (answer call d).1 (answer call d).2
      rw [hsame.clock_eq] at hs
      refine ⟨exchange call d :: trace, .head (.ask call next _) hy,
        ⟨answer_isTrueOf call d, _, answer_movesBetween call d, hs⟩, ?_⟩
      rintro e (_ | ⟨_, hmem⟩)
      · exact ⟨call, d, .refl d, rfl⟩
      · obtain ⟨call', d', h, hexchange⟩ := he e hmem
        exact ⟨call', d', hsame.trans h, hexchange⟩
  | askBoth first second next ih =>
      -- of two calls made at once a deployment answers the first one first
      have hfirst := answer_sameSetup first d
      have hboth := hfirst.trans (answer_sameSetup second (answer first d).2)
      obtain ⟨trace, hy, hs, he⟩ := ih (answer first d).1 (answer second (answer first d).2).1
        (answer second (answer first d).2).2
      have hsecond := answer_movesBetween second (answer first d).2
      rw [hboth.clock_eq] at hs
      rw [hfirst.clock_eq] at hsecond
      refine ⟨exchange first d :: exchange second (answer first d).2 :: trace,
        .head (.askFirst first second next _) (.head (.ask second _ _) hy),
        ⟨answer_isTrueOf first d, _, answer_movesBetween first d,
          answer_isTrueOf second _, _, hsecond, hs⟩, ?_⟩
      rintro e (_ | ⟨_, _ | ⟨_, hmem⟩⟩)
      · exact ⟨first, d, .refl d, rfl⟩
      · exact ⟨second, _, hfirst, rfl⟩
      · obtain ⟨call', d', h, hexchange⟩ := he e hmem
        exact ⟨call', d', hboth.trans h, hexchange⟩

/-- What a deployment performs is an execution that its ledger serves. -/
theorem exists_yields_perform (p : Procedure α) (d : Deployment) :
    ∃ trace, p.Yields trace (perform p d).1 ∧
      d.database.ledger.Serves trace (perform p d).2.database.ledger := by
  obtain ⟨trace, hy, hs, _⟩ := exists_servesBetween_perform p d
  exact ⟨trace, hy, hs.serves⟩

theorem perform_sameSetup (p : Procedure α) (d : Deployment) : SameSetup d (perform p d).2 := by
  induction p generalizing d with
  | finish result => exact .refl d
  | note event next ih =>
      have h : SameSetup d (record event d).2 := rfl
      exact h.trans (ih (record event d).2)
  | ask call next ih =>
      exact (answer_sameSetup call d).trans (ih (answer call d).1 (answer call d).2)
  | askBoth first second next ih =>
      exact ((answer_sameSetup first d).trans (answer_sameSetup second _)).trans (ih _ _ _)

theorem respond_sameSetup (r : Http.Request) (d : Deployment) : SameSetup d (respond r d).2 :=
  perform_sameSetup _ d

/-! ## A rehearsal -/

/-- A request for a rehearsal: its query is 96 zero bytes, and it was made at the start of 1970. -/
def rehearsed : Request where
  account := "0xaaaaaaaaaaaaaaaaaaaaaaaaaaaaaaaaaaaaaaaa"
  blindedQuery := String.ofList (List.replicate 128 'A')
  phoneHash := none
  timestamp := some 0
  sessionId := some "rehearsal"

/-- The same request as it is submitted. -/
def rehearsedSubmission : Submission := ⟨rehearsed, rehearsed.body, none⟩

set_option maxRecDepth 100000 in
/-- The request is admitted at the time when it was made. -/
theorem exists_rehearsed_admitted :
    ∃ request, Admitted.ofRequest Config.standard.limits 0 rehearsedSubmission.body.length
      rehearsed = .ok request :=
  exists_of_isOk (by decide +kernel)

/-- A deployment for rehearsals, with a ledger and the allowance of each account. -/
def rehearsal (ledger : Ledger) (total : Option Int64) : Deployment where
  config := .standard
  site := .standalone
  callers := .acceptAll
  chain := .given total (some 100)
  engine := .digest
  share := some ⟨List.replicate 32 1, rfl⟩
  database := ⟨ledger, true, [], .unreachable⟩
  client := .fresh
  clock := ⟨0⟩
  calls := []
  metrics := []

end Deployment

end BlindSign

import BlindSign.Proofs.Rehearsals

set_option autoImplicit false

/-! # Submissions of different accounts

A submission reads of the ledger what stands under the name of its account and under its
fingerprint, and changes nothing else. `Deployment.IsLocal` says both of a computation: its result
depends on the ledger only there (`same`), and only there it changes it (`changes`). Every access to
the database is local, sequences of local computations are, and so is signing.

**Submissions whose accounts and whose fingerprints differ may be exchanged**
(`Attempt.isolated`): each gets the same result before the other and after it, and both orders lead
to the same entries of the ledger.
-/

namespace BlindSign

variable {α β : Type} {account : Account} {fingerprint : Fingerprint}

/-! ## What a submission concerns -/

/-- Whether a statement is about an account and a fingerprint. -/
def Statement.Concerns (account : Account) (fingerprint : Fingerprint) : Statement → Prop
  | .findRecord f => f = fingerprint
  | .addRecord f record => f = fingerprint ∧ record.account = account.text
  | .readCount a => a = account
  | .addCount a => a = account
  | .readKey a => a = account
  | .prune _ => False

/-- Whether a call is about an account and a fingerprint. -/
def Call.Concerns (account : Account) (fingerprint : Fingerprint) : Call → Prop
  | .authenticate request _ _ => request.account = account
  | .readQuota a _ => a = account
  | .findRecord f => f = fingerprint
  | .addRecord request => request.account = account ∧ request.fingerprint = fingerprint
  | .addCount a => a = account
  | _ => True

namespace Signing

theorem BothWays.forall_call {a b : Exchange} {es : List Exchange} (h : BothWays a b es)
    {P : Call → Prop} (ha : P a.call) (hb : P b.call) : ∀ e ∈ es, P e.call := by
  rcases h with rfl | rfl
  · simp [ha, hb]
  · simp [ha, hb]

theorem Completion.concerns {request : Admitted} {quota : Except QuotaFault Quota}
    {height : Except ChainFault Int64} {rest : List Exchange} {outcome : Except Refusal Grant}
    (h : Completion request quota height rest outcome) :
    ∀ e ∈ rest, e.call.Concerns request.account request.fingerprint := by
  cases h with
  | keyUnavailable fault => simp [Call.Concerns]
  | unsigned share fault => simp [Call.Concerns]
  | duplicate share signature => simp [Call.Concerns]
  | entered share signature hf hw =>
      have hwrites := BothWays.forall_call hw
        (P := Call.Concerns request.account request.fingerprint) ⟨rfl, rfl⟩ rfl
      simpa [Call.Concerns] using hwrites

/-- A submission makes no call that is about another account or another fingerprint. -/
theorem Transcript.concerns {limits : Limits} {now : Int64} {s : Submission} {request : Admitted}
    {trace : List Exchange} {outcome : Except Refusal Grant}
    (h : Transcript limits now s trace outcome)
    (hs : Admitted.ofRequest limits now s.body.length s.request = .ok request) :
    ∀ e ∈ trace, e.call.Concerns request.account request.fingerprint := by
  -- a submission is admitted as one request, which every call of it is about
  cases h with
  | invalid h =>
      rw [hs] at h
      cases h
  | unauthenticated h =>
      obtain rfl : request = _ := Except.ok.inj (hs.symm.trans h)
      simp [Call.Concerns]
  | exhausted h hr hq =>
      obtain rfl : request = _ := Except.ok.inj (hs.symm.trans h)
      have hreads := BothWays.forall_call hr
        (P := Call.Concerns request.account request.fingerprint) rfl trivial
      simpa [Call.Concerns] using hreads
  | passed h hr hq hc =>
      obtain rfl : request = _ := Except.ok.inj (hs.symm.trans h)
      have hreads := BothWays.forall_call hr
        (P := Call.Concerns request.account request.fingerprint) rfl trivial
      intro e he
      simp only [List.mem_cons, List.mem_append] at he
      obtain rfl | he | he := he
      · rfl
      · exact hreads e he
      · exact hc.concerns e he

end Signing

namespace Procedure

/-- Whatever the replies, every call of a procedure is of the given kind. -/
def Calls (P : Call → Prop) (p : Procedure α) : Prop :=
  ∀ trace result, p.Yields trace result → ∀ e ∈ trace, P e.call

/-- There is a reply to every call. -/
theorem exists_replies : ∃ _ : (call : Call) → call.Reply, True := by
  refine ⟨fun call => ?_, trivial⟩
  cases call with
  | authenticate request body authorization => exact false
  | readQuota account phoneHash => exact .ok .unread
  | readHeight => exact .ok unknown
  | loadKey => exact .error .missing
  | sign query share => exact .error .notPoint
  | findRecord fingerprint => exact .ok false
  | addRecord request => exact .ok ()
  | addCount account => exact .ok ()

/-- A procedure can be carried to its end. -/
theorem exists_yields (p : Procedure α) : ∃ trace result, p.Yields trace result := by
  obtain ⟨replies, _⟩ := exists_replies
  exact ⟨_, _, yields_course replies p⟩

variable {P : Call → Prop}

theorem Calls.step {p q : Procedure α} {es : List Exchange} (h : p.Calls P) (hs : p.Step es q) :
    (∀ e ∈ es, P e.call) ∧ q.Calls P := by
  constructor
  · intro e he
    obtain ⟨trace, result, hy⟩ := q.exists_yields
    exact h _ result (.head hs hy) e (List.mem_append_left _ he)
  · intro trace result hy e he
    exact h _ result (.head hs hy) e (List.mem_append_right _ he)

theorem Calls.ask {call : Call} {next : call.Reply → Procedure α}
    (h : (ask call next).Calls P) : P call ∧ ∀ reply, (next reply).Calls P := by
  -- the call is the same whatever the reply
  obtain ⟨replies, _⟩ := exists_replies
  refine ⟨?_, fun reply => (h.step (.ask call next reply)).2⟩
  exact (h.step (.ask call next (replies call))).1 _ (List.mem_singleton_self _)

theorem Calls.askBoth {first second : Call}
    {next : first.Reply → second.Reply → Procedure α} (h : (askBoth first second next).Calls P) :
    P first ∧ P second ∧ ∀ x y, (next x y).Calls P := by
  have hfirst : ∀ x, P first ∧ P second ∧ ∀ y, (next x y).Calls P := by
    intro x
    obtain ⟨hcall, hrest⟩ := h.step (.askFirst first second next x)
    exact ⟨hcall _ (List.mem_singleton_self _), hrest.ask⟩
  obtain ⟨replies, _⟩ := exists_replies
  obtain ⟨h₁, h₂, _⟩ := hfirst (replies first)
  exact ⟨h₁, h₂, fun x => (hfirst x).2.2⟩

end Procedure

/-! ## Parts of the ledger -/

namespace Ledger

/-- Two ledgers have the same under the name of an account and under a fingerprint. -/
structure AgreesAt (account : Account) (fingerprint : Fingerprint) (l l' : Ledger) : Prop where
  counts : l'.counts.get? account.text = l.counts.get? account.text
  keys : l'.keys.get? account.text = l.keys.get? account.text
  record : l'.record? fingerprint = l.record? fingerprint

/-- At most the count of an account and the record under a fingerprint change: the record stays as
it is, or it is new and is one of the account. -/
structure ChangesOnly (account : Account) (fingerprint : Fingerprint) (l l' : Ledger) : Prop where
  counts : ∀ key, key ≠ account.text → l'.counts.get? key = l.counts.get? key
  records : ∀ key, key ≠ fingerprint.text → l'.records.get? key = l.records.get? key
  record : l'.record? fingerprint = l.record? fingerprint ∨
    l.record? fingerprint = none ∧
      ∃ record, l'.record? fingerprint = some record ∧ record.account = account.text
  keys : l'.keys = l.keys

/-- Two ledgers have the same entries, in whatever order. -/
structure SameEntries (l l' : Ledger) : Prop where
  counts : ∀ key, l'.counts.get? key = l.counts.get? key
  records : ∀ key, l'.records.get? key = l.records.get? key
  keys : ∀ key, l'.keys.get? key = l.keys.get? key

theorem SameEntries.refl (l : Ledger) : l.SameEntries l :=
  ⟨fun _ => rfl, fun _ => rfl, fun _ => rfl⟩

theorem ChangesOnly.refl (l : Ledger) : l.ChangesOnly account fingerprint l :=
  ⟨fun _ _ => rfl, fun _ _ => rfl, .inl rfl, rfl⟩

theorem ChangesOnly.trans {l l₁ l₂ : Ledger} (h : l.ChangesOnly account fingerprint l₁)
    (h' : l₁.ChangesOnly account fingerprint l₂) : l.ChangesOnly account fingerprint l₂ where
  counts key hkey := (h'.counts key hkey).trans (h.counts key hkey)
  records key hkey := (h'.records key hkey).trans (h.records key hkey)
  record := by
    rcases h'.record with hstays | ⟨hnone, record, hnew, haccount⟩
    · rw [hstays]
      exact h.record
    · rcases h.record with hstays | ⟨_, record', hnew', _⟩
      · exact .inr ⟨hstays ▸ hnone, record, hnew, haccount⟩
      · -- what was just recorded is on record
        rw [hnew'] at hnone
        cases hnone
  keys := h'.keys.trans h.keys

/-- What changes only elsewhere agrees. -/
theorem ChangesOnly.agreesAt {l l' : Ledger} {a : Account} {f : Fingerprint}
    (h : l.ChangesOnly a f l') (ha : account ≠ a) (hf : fingerprint ≠ f) :
    l.AgreesAt account fingerprint l' where
  counts := h.counts _ fun htext => ha (Account.text_inj htext)
  keys := by rw [h.keys]
  record := h.records _ fun htext => hf (Fingerprint.text_inj htext)

theorem AgreesAt.count {l l' : Ledger} (h : l.AgreesAt account fingerprint l') :
    l'.count account = l.count account := by
  unfold Ledger.count
  rw [h.counts]

theorem AgreesAt.addRecord {l l' : Ledger} (h : l.AgreesAt account fingerprint l')
    (record : Record) : (l.addRecord fingerprint record).AgreesAt account fingerprint
      (l'.addRecord fingerprint record) where
  counts := h.counts
  keys := h.keys
  record := by
    rw [record?_addRecord, record?_addRecord, h.record]

theorem changesOnly_addRecord (l : Ledger) {record : Record} (h : record.account = account.text) :
    l.ChangesOnly account fingerprint (l.addRecord fingerprint record) where
  counts _ _ := rfl
  records key hkey := by
    show (l.records.insertNew fingerprint.text record).get? key = _
    rw [Table.get?_insertNew, if_neg hkey]
  record := by
    rw [record?_addRecord, if_pos rfl]
    cases hr : l.record? fingerprint with
    | none => exact .inr ⟨rfl, record, rfl, h⟩
    | some old => exact .inl rfl
  keys := rfl

/-- A query is counted in both of two ledgers that agree, or in neither. -/
theorem AgreesAt.increment? {l l' : Ledger} (h : l.AgreesAt account fingerprint l') :
    (l.increment? account = none ∧ l'.increment? account = none) ∨
      ∃ l₁ l₁', l.increment? account = some l₁ ∧ l'.increment? account = some l₁' ∧
        l₁.AgreesAt account fingerprint l₁' := by
  unfold Ledger.increment?
  rw [h.count]
  by_cases hlt : l.count account < Int64.maxValue
  · refine .inr ⟨_, _, if_pos hlt, if_pos hlt, ?_, h.keys, h.record⟩
    show (l'.counts.insert _ _).get? _ = (l.counts.insert _ _).get? _
    rw [Table.get?_insert, Table.get?_insert, if_pos rfl, if_pos rfl]
  · exact .inl ⟨if_neg hlt, if_neg hlt⟩

theorem changesOnly_increment? {l l' : Ledger} (h : l.increment? account = some l') :
    l.ChangesOnly account fingerprint l' := by
  obtain ⟨_, rfl⟩ := increment?_eq_some h
  refine ⟨fun key hkey => ?_, fun _ _ => rfl, .inl rfl, rfl⟩
  show (l.counts.insert _ _).get? key = _
  rw [Table.get?_insert, if_neg hkey]

/-! ## Statements -/

/-- A statement gets the same answer from ledgers that agree on what it is about, and they agree on
it afterwards. -/
theorem AgreesAt.execute {l l' : Ledger} (h : l.AgreesAt account fingerprint l') {s : Statement}
    (hs : s.Concerns account fingerprint) :
    (l'.execute s).1 = (l.execute s).1 ∧
      (l.execute s).2.AgreesAt account fingerprint (l'.execute s).2 := by
  cases s with
  | findRecord f =>
      obtain rfl : f = fingerprint := hs
      refine ⟨congrArg Except.ok ?_, h⟩
      rw [hasRecord_eq_isSome, hasRecord_eq_isSome, h.record]
  | addRecord f record =>
      obtain ⟨rfl, _⟩ : f = fingerprint ∧ record.account = account.text := hs
      exact ⟨rfl, h.addRecord record⟩
  | readCount a =>
      obtain rfl : a = account := hs
      exact ⟨congrArg Except.ok h.count, h⟩
  | addCount a =>
      obtain rfl : a = account := hs
      unfold Ledger.execute
      rcases h.increment? with ⟨hnone, hnone'⟩ | ⟨l₁, l₁', hsome, hsome', hagrees⟩
      · simp only [hnone, hnone']
        exact ⟨trivial, h⟩
      · simp only [hsome, hsome']
        exact ⟨trivial, hagrees⟩
  | readKey a =>
      obtain rfl : a = account := hs
      refine ⟨congrArg Except.ok ?_, h⟩
      unfold registeredKey?
      rw [h.keys]
  | prune cutoff => exact hs.elim

/-- A statement changes at most what it is about. -/
theorem changesOnly_execute (l : Ledger) {s : Statement} (hs : s.Concerns account fingerprint) :
    l.ChangesOnly account fingerprint (l.execute s).2 := by
  cases s with
  | addRecord f record =>
      obtain ⟨rfl, haccount⟩ : f = fingerprint ∧ record.account = account.text := hs
      exact l.changesOnly_addRecord haccount
  | addCount a =>
      obtain rfl : a = account := hs
      unfold Ledger.execute
      dsimp only
      cases hl : l.increment? a with
      | none => exact .refl l
      | some l₁ => exact changesOnly_increment? hl
  | prune cutoff => exact hs.elim
  | findRecord f => exact .refl l
  | readCount a => exact .refl l
  | readKey a => exact .refl l

end Ledger

/-! ## Local computations -/

namespace Deployment

def withLedger (d : Deployment) (l : Ledger) : Deployment :=
  { d with database := { d.database with ledger := l } }

/-- What a computation does depends on the ledger only at a place, and only there it changes it. -/
structure IsLocal (account : Account) (fingerprint : Fingerprint) (m : StateM Deployment α) :
    Prop where
  same : ∀ (d : Deployment) (l : Ledger), d.database.ledger.AgreesAt account fingerprint l →
    ∃ l', (m d).2.database.ledger.AgreesAt account fingerprint l' ∧
      m (d.withLedger l) = ((m d).1, (m d).2.withLedger l')
  changes : ∀ d : Deployment,
    d.database.ledger.ChangesOnly account fingerprint (m d).2.database.ledger

namespace IsLocal

theorem pure (a : α) : IsLocal account fingerprint (Pure.pure a : StateM Deployment α) :=
  ⟨fun _ l h => ⟨l, h, rfl⟩, fun _ => .refl _⟩

theorem bind {m : StateM Deployment α} {f : α → StateM Deployment β}
    (hm : IsLocal account fingerprint m) (hf : ∀ a, IsLocal account fingerprint (f a)) :
    IsLocal account fingerprint (m >>= f) where
  same d l h := by
    obtain ⟨l₁, h₁, hfirst⟩ := hm.same d l h
    obtain ⟨l₂, h₂, hnext⟩ := (hf (m d).1).same (m d).2 l₁ h₁
    refine ⟨l₂, h₂, ?_⟩
    show f (m (d.withLedger l)).1 (m (d.withLedger l)).2 = _
    rw [hfirst]
    exact hnext
  changes d := (hm.changes d).trans ((hf (m d).1).changes (m d).2)

/-- What looks at a deployment apart from its ledger, and goes on locally, is local. -/
theorem get {f : Deployment → StateM Deployment α} (hsetup : ∀ d l, f (d.withLedger l) = f d)
    (hf : ∀ d, IsLocal account fingerprint (f d)) :
    IsLocal account fingerprint (MonadState.get >>= f) where
  same d l h := by
    obtain ⟨l', h', hnext⟩ := (hf d).same d l h
    refine ⟨l', h', ?_⟩
    show f (d.withLedger l) (d.withLedger l) = _
    rw [hsetup]
    exact hnext
  changes d := (hf d).changes d

theorem tally (c : Collaborator) : IsLocal account fingerprint (tally c) :=
  ⟨fun _ l h => ⟨l, h, rfl⟩, fun _ => .refl _⟩

theorem record (event : Metric) : IsLocal account fingerprint (record event) :=
  ⟨fun _ l h => ⟨l, h, rfl⟩, fun _ => .refl _⟩

theorem readChain (read : StateM Rpc.Client α) : IsLocal account fingerprint (readChain read) :=
  ⟨fun _ l h => ⟨l, h, rfl⟩, fun _ => .refl _⟩

theorem execute {s : Statement} (hs : s.Concerns account fingerprint) :
    IsLocal account fingerprint (execute s) where
  same d l h := by
    have hfault : (d.withLedger l).database.faultOf? s = d.database.faultOf? s := rfl
    unfold Deployment.execute Database.execute
    rw [hfault]
    cases d.database.faultOf? s with
    | some fault => exact ⟨l, h, rfl⟩
    | none =>
        obtain ⟨hreply, hafter⟩ := h.execute hs
        exact ⟨(l.execute s).2, hafter, congrArg (·, d.withLedger (l.execute s).2) hreply⟩
  changes d := by
    show d.database.ledger.ChangesOnly _ _ (d.database.execute s).2.ledger
    rcases d.database.execute_cases s with ⟨fault, h⟩ | h
    · rw [h]
      exact .refl _
    · rw [h]
      exact d.database.ledger.changesOnly_execute hs

end IsLocal

/-- The answer to a call is local to what the call is about. -/
theorem isLocal_answer {call : Call} (h : call.Concerns account fingerprint) :
    IsLocal account fingerprint (answer call) := by
  cases call with
  | authenticate request body authorization =>
      obtain rfl : request.account = account := h
      refine (IsLocal.tally .callerCheck).bind fun _ => .get (fun _ _ => rfl) fun d => ?_
      cases d.callers with
      | acceptAll => exact .pure true
      | refuseAll => exact .pure false
      | signedBody =>
          show IsLocal _ _ (checkSignature request.account body authorization)
          unfold checkSignature
          cases authorization.bind Authorization.signature? with
          | none => exact .pure false
          | some signature =>
              refine (IsLocal.tally .keyRegister).bind fun _ =>
                (IsLocal.execute (s := .readKey request.account) rfl).bind ?_
              rintro (fault | _ | key)
              · exact .pure false
              · exact .pure false
              · exact .pure _
  | readQuota a phoneHash =>
      obtain rfl : a = account := h
      refine (IsLocal.tally .quota).bind fun _ => (IsLocal.tally .count).bind fun _ =>
        (IsLocal.execute (s := .readCount a) rfl).bind fun count => ?_
      refine IsLocal.bind (.get (fun _ _ => rfl) fun d => ?_) fun total => .pure _
      cases d.chain with
      | given total height => exact .pure _
      | node node policy => exact .readChain _
  | readHeight =>
      refine (IsLocal.tally .height).bind fun _ => .get (fun _ _ => rfl) fun d => ?_
      cases d.chain with
      | given total height => exact .pure _
      | node node policy => exact .readChain _
  | loadKey =>
      refine (IsLocal.tally .keyShare).bind fun _ => .get (fun _ _ => rfl) fun d => ?_
      cases d.share with
      | some share => exact .pure _
      | none => exact .pure _
  | sign query share =>
      exact (IsLocal.tally .engine).bind fun _ => .get (fun _ _ => rfl) fun d => .pure _
  | findRecord f => exact (IsLocal.tally .findRecord).bind fun _ => .execute h
  | addRecord request =>
      refine (IsLocal.tally .addRecord).bind fun _ => .get (fun _ _ => rfl) fun d => ?_
      exact .execute ⟨h.2, congrArg Account.text h.1⟩
  | addCount a => exact (IsLocal.tally .addCount).bind fun _ => .execute h

/-- What makes calls about one place only is local to it. -/
theorem isLocal_perform {p : Procedure α} (h : p.Calls (Call.Concerns account fingerprint)) :
    IsLocal account fingerprint (perform p) := by
  induction p with
  | finish result => exact .pure result
  | note event next ih =>
      exact (IsLocal.record event).bind fun _ => ih (h.step (.note event next)).2
  | ask call next ih =>
      obtain ⟨hcall, hnext⟩ := h.ask
      exact (isLocal_answer hcall).bind fun reply => ih reply (hnext reply)
  | askBoth first second next ih =>
      obtain ⟨hfirst, hsecond, hnext⟩ := h.askBoth
      exact (isLocal_answer hfirst).bind fun x =>
        (isLocal_answer hsecond).bind fun y => ih x y (hnext x y)

end Deployment

/-! ## Attempts -/

/-- A submission together with all that is settled apart from the ledger: the collaborators and
their state, the bounds of admission, and the times at which it is admitted and recorded. -/
structure Attempt where
  /-- The collaborators with their state. A record is made at the time of the clock. -/
  setup : Deployment
  limits : Limits
  /-- When the submission is admitted, in milliseconds. -/
  now : Int64
  submission : Submission

namespace Attempt

def admitted (x : Attempt) : Except RequestFault Admitted :=
  Admitted.ofRequest x.limits x.now x.submission.body.length x.submission.request

/-- What an attempt comes to on a ledger, and what becomes of the ledger. -/
def run (x : Attempt) (l : Ledger) : Except Refusal Grant × Ledger :=
  let (result, d) := Deployment.perform (Signing.procedure x.limits x.now x.submission)
    (x.setup.withLedger l)
  (result, d.database.ledger)

/-- Submitting to a deployment is an attempt on its ledger. -/
theorem run_eq_submit (d : Deployment) (s : Submission) :
    run ⟨d, d.config.limits, d.clock.millis, s⟩ d.database.ledger =
      ((Deployment.submit s d).1, (Deployment.submit s d).2.database.ledger) := rfl

/-- Two attempts have different accounts and different fingerprints, as far as they are admitted. -/
def Apart (x y : Attempt) : Prop :=
  ∀ a b, x.admitted = .ok a → y.admitted = .ok b →
    a.account ≠ b.account ∧ a.fingerprint ≠ b.fingerprint

instance (x y : Attempt) : Decidable (x.Apart y) :=
  match hx : x.admitted, hy : y.admitted with
  | .ok a, .ok b =>
    decidable_of_iff (a.account ≠ b.account ∧ a.fingerprint ≠ b.fingerprint) (by
      simp [Apart, hx, hy])
  | .error _, _ => .isTrue (by simp [Apart, hx])
  | _, .error _ => .isTrue (by simp [Apart, hy])

variable {x y : Attempt} {request : Admitted}

/-! ### One attempt -/

/-- What is not admitted is refused, and the ledger stays as it is. -/
theorem run_of_error {fault : RequestFault} (h : x.admitted = .error fault) (l : Ledger) :
    x.run l = (.error (.invalid fault), l) := by
  obtain ⟨trace, hy, hs⟩ := Deployment.exists_yields_perform
    (Signing.procedure x.limits x.now x.submission) (x.setup.withLedger l)
  have htranscript := Signing.yields_iff.1 hy
  generalize hresult : (Deployment.perform _ _).1 = result at htranscript
  have hrun : x.run l = (result, (x.run l).2) := Prod.ext hresult rfl
  cases htranscript with
  | invalid h' =>
      obtain rfl : fault = _ := Except.error.inj (h.symm.trans h')
      have hledger : (x.run l).2 = l := hs
      rw [hrun, hledger]
  | unauthenticated h' => cases h.symm.trans h'
  | exhausted h' hr hq => cases h.symm.trans h'
  | passed h' hr hq hc => cases h.symm.trans h'

theorem isLocal (h : x.admitted = .ok request) :
    Deployment.IsLocal request.account request.fingerprint
      (Deployment.perform (Signing.procedure x.limits x.now x.submission)) :=
  Deployment.isLocal_perform fun _ _ hy => (Signing.yields_iff.1 hy).concerns h

/-- An attempt changes at most the count of its account and the record of its fingerprint. -/
theorem changesOnly_run (h : x.admitted = .ok request) (l : Ledger) :
    l.ChangesOnly request.account request.fingerprint (x.run l).2 :=
  (isLocal h).changes (x.setup.withLedger l)

/-- An attempt comes to the same on ledgers that agree on its account and its fingerprint. -/
theorem run_agrees (h : x.admitted = .ok request) {l l' : Ledger}
    (hl : l.AgreesAt request.account request.fingerprint l') :
    (x.run l').1 = (x.run l).1 ∧
      (x.run l).2.AgreesAt request.account request.fingerprint (x.run l').2 := by
  obtain ⟨l₁, h₁, hrun⟩ := (isLocal h).same (x.setup.withLedger l) l' hl
  have hrun' : x.run l' = ((x.run l).1, l₁) :=
    congrArg (fun r : _ × Deployment => (r.1, r.2.database.ledger)) hrun
  rw [hrun']
  exact ⟨rfl, h₁⟩

/-! ### Two attempts -/

/-- What one attempt leaves, another one with another account and another fingerprint finds as it
would have found it before. -/
theorem run_after {a b : Admitted} (hx : x.admitted = .ok a) (hy : y.admitted = .ok b)
    (haccount : a.account ≠ b.account) (hfingerprint : a.fingerprint ≠ b.fingerprint)
    (l : Ledger) :
    (x.run (y.run l).2).1 = (x.run l).1 ∧
      (x.run l).2.AgreesAt a.account a.fingerprint (x.run (y.run l).2).2 :=
  run_agrees hx ((changesOnly_run hy l).agreesAt haccount hfingerprint)

theorem counts_run {a b : Admitted} (hx : x.admitted = .ok a) (hy : y.admitted = .ok b)
    (haccount : a.account ≠ b.account) (hfingerprint : a.fingerprint ≠ b.fingerprint)
    (l : Ledger) {key : String} (hkey : key ≠ b.account.text) :
    (y.run (x.run l).2).2.counts.get? key = (x.run (y.run l).2).2.counts.get? key := by
  rw [(changesOnly_run hy (x.run l).2).counts key hkey]
  by_cases h : key = a.account.text
  · rw [h, (run_after hx hy haccount hfingerprint l).2.counts]
  · rw [(changesOnly_run hx (y.run l).2).counts key h, (changesOnly_run hy l).counts key hkey,
      (changesOnly_run hx l).counts key h]

theorem records_run {a b : Admitted} (hx : x.admitted = .ok a) (hy : y.admitted = .ok b)
    (haccount : a.account ≠ b.account) (hfingerprint : a.fingerprint ≠ b.fingerprint)
    (l : Ledger) {key : String} (hkey : key ≠ b.fingerprint.text) :
    (y.run (x.run l).2).2.records.get? key = (x.run (y.run l).2).2.records.get? key := by
  rw [(changesOnly_run hy (x.run l).2).records key hkey]
  by_cases h : key = a.fingerprint.text
  · rw [h]
    exact (run_after hx hy haccount hfingerprint l).2.record.symm
  · rw [(changesOnly_run hx (y.run l).2).records key h, (changesOnly_run hy l).records key hkey,
      (changesOnly_run hx l).records key h]

/-- Two attempts with different accounts and different fingerprints lead to the same entries in
both orders. -/
theorem sameEntries_run {a b : Admitted} (hx : x.admitted = .ok a) (hy : y.admitted = .ok b)
    (haccount : a.account ≠ b.account) (hfingerprint : a.fingerprint ≠ b.fingerprint)
    (l : Ledger) : (x.run (y.run l).2).2.SameEntries (y.run (x.run l).2).2 where
  counts key := by
    -- no key is the name of both accounts
    by_cases hkey : key = b.account.text
    · have hne : key ≠ a.account.text := fun h => haccount (Account.text_inj (h ▸ hkey))
      exact (counts_run hy hx haccount.symm hfingerprint.symm l hne).symm
    · exact counts_run hx hy haccount hfingerprint l hkey
  records key := by
    by_cases hkey : key = b.fingerprint.text
    · have hne : key ≠ a.fingerprint.text :=
        fun h => hfingerprint (Fingerprint.text_inj (h ▸ hkey))
      exact (records_run hy hx haccount.symm hfingerprint.symm l hne).symm
    · exact records_run hx hy haccount hfingerprint l hkey
  keys key := by
    rw [(changesOnly_run hy (x.run l).2).keys, (changesOnly_run hx l).keys,
      (changesOnly_run hx (y.run l).2).keys, (changesOnly_run hy l).keys]

/-- **Submissions of different accounts do not meet.** A submission changes no count but that of
its own account and no record but that of its own fingerprint, which stays as it is or is new and
names that account; one that is not admitted changes nothing. Two submissions whose accounts and
whose fingerprints differ get the same results in both orders, and leave the same entries. -/
theorem isolated (x : Attempt) (l : Ledger) :
    (match x.admitted with
      | .ok request => l.ChangesOnly request.account request.fingerprint (x.run l).2
      | .error _ => (x.run l).2 = l) ∧
    ∀ y : Attempt, x.Apart y →
      (y.run (x.run l).2).1 = (y.run l).1 ∧ (x.run (y.run l).2).1 = (x.run l).1 ∧
        (x.run (y.run l).2).2.SameEntries (y.run (x.run l).2).2 := by
  constructor
  · cases h : x.admitted with
    | error fault => exact congrArg Prod.snd (run_of_error h l)
    | ok request => exact changesOnly_run h l
  · intro y hapart
    cases hx : x.admitted with
    | error fault =>
        rw [run_of_error hx l, run_of_error hx (y.run l).2]
        exact ⟨rfl, rfl, .refl _⟩
    | ok a =>
        cases hy : y.admitted with
        | error fault =>
            rw [run_of_error hy l, run_of_error hy (x.run l).2]
            exact ⟨rfl, rfl, .refl _⟩
        | ok b =>
            obtain ⟨haccount, hfingerprint⟩ := hapart a b hx hy
            exact ⟨(run_after hy hx haccount.symm hfingerprint.symm l).1,
              (run_after hx hy haccount hfingerprint l).1,
              sameEntries_run hx hy haccount hfingerprint l⟩

/-- The rehearsed request, made by a given account on a service that grants it ten queries. -/
def rehearsal (account : String) : Attempt where
  setup := Deployment.rehearsal .empty (some 10)
  limits := Config.standard.limits
  now := 0
  submission :=
    ⟨{ Deployment.rehearsed with account }, Deployment.rehearsedSubmission.body, none⟩

/-- What is admitted is granted, if the attempt is set up for a rehearsal. -/
theorem exists_run_eq (h : x.admitted = .ok request) {l : Ledger}
    (hd : Deployment.Rehearses (x.setup.withLedger l))
    (hc : (x.setup.withLedger l).callers = .acceptAll)
    (hq : ((x.setup.withLedger l).quotaOf request.account).toOption.any Quota.isExhausted =
      false) :
    ∃ g, x.run l = (.ok g, ((x.setup.withLedger l).entered request).2.ledger) := by
  obtain ⟨signature, hgrant, hleft⟩ := hd.grants h (Deployment.accepts_of_acceptAll hc _ _ _) hq
  exact ⟨_, Prod.ext hgrant (congrArg Database.ledger hleft)⟩

/-- Whatever its account, on an empty ledger the rehearsed request is granted and counted. -/
theorem run_rehearsal {account : String} (h : (rehearsal account).admitted = .ok request) :
    ((rehearsal account).run .empty).1.isOk = true ∧
      ((rehearsal account).run .empty).2.counts.get? request.account.text = some 1 := by
  obtain ⟨g, hrun⟩ := exists_run_eq (l := .empty) h ⟨rfl, rfl, rfl, rfl, rfl⟩ rfl rfl
  obtain ⟨l, hl⟩ := Ledger.exists_increment? (l := Ledger.empty.addRecord request.fingerprint
    (Deployment.recordOf request ⟨0⟩)) (a := request.account) (show (0 : Int64) < _ by decide)
  have hentered : ((rehearsal account).setup.withLedger .empty).entered request =
      (⟨[], true⟩, { (rehearsal account).setup.database with ledger := l }) :=
    Deployment.entered_of_new (fun _ _ => rfl) rfl hl
  rw [hrun, hentered]
  refine ⟨rfl, ?_⟩
  show l.counts.get? request.account.text = some 1
  rw [(Ledger.increment?_eq_some hl).2, Table.get?_insert, if_pos rfl]
  rfl

set_option maxRecDepth 100000 in
theorem admitted_rehearsals :
    (∃ a, (rehearsal "0xaaaaaaaaaaaaaaaaaaaaaaaaaaaaaaaaaaaaaaaa").admitted = .ok a) ∧
      ∃ b, (rehearsal "0xBBBBBBBBBBBBBBBBBBBBBBBBBBBBBBBBBBBBBBBB").admitted = .ok b :=
  ⟨Deployment.exists_rehearsed_admitted, exists_of_isOk (by decide +kernel)⟩

set_option maxRecDepth 100000 in
theorem apart_rehearsals :
    (rehearsal "0xaaaaaaaaaaaaaaaaaaaaaaaaaaaaaaaaaaaaaaaa").Apart
      (rehearsal "0xBBBBBBBBBBBBBBBBBBBBBBBBBBBBBBBBBBBBBBBB") := by
  intro a b ha hb
  obtain ⟨_, haccount, _, _, _, hfingerprint, _⟩ := Admitted.ofRequest_eq_ok.1 ha
  obtain ⟨_, haccount', _, _, _, hfingerprint', _⟩ := Admitted.ofRequest_eq_ok.1 hb
  constructor
  · intro hsame
    have hparse : Account.parse? "0xaaaaaaaaaaaaaaaaaaaaaaaaaaaaaaaaaaaaaaaa" ≠
        Account.parse? "0xBBBBBBBBBBBBBBBBBBBBBBBBBBBBBBBBBBBBBBBB" := by
      decide +kernel
    exact hparse (haccount.trans (hsame ▸ haccount'.symm))
  · rw [hfingerprint, hfingerprint']
    decide +kernel

/-- Two accounts make the same query. They are granted it in either order, each for itself. -/
theorem isolated_of_rehearsals :
    let x := rehearsal "0xaaaaaaaaaaaaaaaaaaaaaaaaaaaaaaaaaaaaaaaa"
    let y := rehearsal "0xBBBBBBBBBBBBBBBBBBBBBBBBBBBBBBBBBBBBBBBB"
    x.Apart y ∧ (x.run .empty).1.isOk = true ∧ (y.run .empty).1.isOk = true ∧
      (x.run .empty).2.counts.get? "0xaaaaaaaaaaaaaaaaaaaaaaaaaaaaaaaaaaaaaaaa" = some 1 ∧
      (y.run (x.run .empty).2).1 = (y.run .empty).1 ∧
      (x.run (y.run .empty).2).1 = (x.run .empty).1 ∧
      (x.run (y.run .empty).2).2.SameEntries (y.run (x.run .empty).2).2 := by
  dsimp only
  obtain ⟨⟨a, ha⟩, b, hb⟩ := admitted_rehearsals
  obtain ⟨hgranted, hcount⟩ := run_rehearsal ha
  have haccount : a.account.text = "0xaaaaaaaaaaaaaaaaaaaaaaaaaaaaaaaaaaaaaaaa" :=
    Deployment.text_of_rehearsed ha
  rw [haccount] at hcount
  exact ⟨apart_rehearsals, hgranted, (run_rehearsal hb).1, hcount,
    (isolated _ .empty).2 _ apart_rehearsals⟩

end Attempt

end BlindSign

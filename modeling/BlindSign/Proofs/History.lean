import BlindSign.Proofs.Retention

set_option autoImplicit false

/-! # Histories of the ledger

The ledger under any sequence of operations, each of which finds the connection to the database in
a state of its own, and so may fail. What one operation does is said once (`Event.moves`); from that
follows what it does to a row (`Performed.Moves.record?_eq_some_iff`) and to a count
(`Performed.Moves.toInt_count`), and by induction on the sequence what has become of rows and counts
at its end (`record?_run_iff`, `toInt_count_run`).

**Over any history counts are the numbers of queries counted, and a request is on record if it was
recorded and not pruned since** (`Ledger.history_laws`).
-/

namespace BlindSign

open Database (PruneFault)

/-! ## Operations -/

inductive Operation
  /-- Is a request on record? -/
  | find (fingerprint : Fingerprint)
  /-- Record a request. -/
  | store (fingerprint : Fingerprint) (record : Record)
  /-- How many queries has an account made? -/
  | readCount (account : Account)
  /-- Count a query of an account. -/
  | increment (account : Account)
  /-- Which key has an account registered? -/
  | readKey (account : Account)
  /-- Remove the records older than a retention. -/
  | prune (now : Instant) (retention : Span)

namespace Operation

/-- What an operation answers if it succeeds. -/
abbrev Reply : Operation → Type
  | find _ => Bool
  | store _ _ => Unit
  | readCount _ => Int64
  | increment _ => Unit
  | readKey _ => Option (List UInt8)
  | prune _ _ => Nat

def perform : (o : Operation) → StateM Database (Except PruneFault o.Reply)
  | find f => do return (← Database.execute (.findRecord f)).mapError .store
  | store f r => do return (← Database.execute (.addRecord f r)).mapError .store
  | readCount a => do return (← Database.execute (.readCount a)).mapError .store
  | increment a => do return (← Database.execute (.addCount a)).mapError .store
  | readKey a => do return (← Database.execute (.readKey a)).mapError .store
  | prune now retention => Database.pruneOlder now retention

/-- What an operation that succeeds does to the ledger, and what its answer tells. -/
def Effect : (o : Operation) → o.Reply → Ledger → Ledger → Prop
  | find f, found, l, l' => found = l.hasRecord f ∧ l' = l
  | store f r, _, l, l' => l' = l.addRecord f r
  | readCount a, n, l, l' => n = l.count a ∧ l' = l
  | increment a, _, l, l' => l.increment? a = some l'
  | readKey a, key?, l, l' => key? = l.registeredKey? a ∧ l' = l
  | prune now retention, n, l, l' =>
      ∃ cutoff, Retention.cutoff? now retention = some cutoff ∧ l.prune cutoff.stored = (n, l')

def isRead : Operation → Bool
  | find _ => true
  | readCount _ => true
  | readKey _ => true
  | _ => false

end Operation

/-- An operation that was performed, with the reply to it. -/
structure Performed where
  operation : Operation
  reply : Except PruneFault operation.Reply

namespace Performed

/-- What an operation that was performed has done to the ledger. One that failed has done
nothing. -/
def Moves (p : Performed) (l l' : Ledger) : Prop :=
  match p.reply with
  | .ok answer => p.operation.Effect answer l l'
  | .error _ => l' = l

def counts (a : Account) : Performed → Bool
  | ⟨.increment b, .ok ()⟩ => decide (b = a)
  | _ => false

def removes (r : Record) : Performed → Bool
  | ⟨.prune now retention, .ok _⟩ =>
      (Retention.cutoff? now retention).any fun cutoff => r.createdAt < cutoff.stored
  | _ => false

end Performed

/-- An operation, with the state in which it finds the connection to the database. -/
structure Event where
  operation : Operation
  connected : Bool
  broken : List StatementKind
  fault : StoreFault

namespace Event

def database (e : Event) (l : Ledger) : Database := ⟨l, e.connected, e.broken, e.fault⟩

def performed (e : Event) (l : Ledger) : Performed :=
  ⟨e.operation, (e.operation.perform (e.database l)).1⟩

def after (e : Event) (l : Ledger) : Ledger := (e.operation.perform (e.database l)).2.ledger

/-- **What an operation does.** -/
theorem moves (e : Event) (l : Ledger) : (e.performed l).Moves l (e.after l) := by
  obtain ⟨operation, connected, broken, fault⟩ := e
  let d : Database := ⟨l, connected, broken, fault⟩
  -- each operation but pruning is one statement, which fails or is carried out
  cases operation with
  | find f =>
      show Performed.Moves ⟨.find f, (d.execute (.findRecord f)).1.mapError .store⟩ l
        (d.execute (.findRecord f)).2.ledger
      rcases d.execute_cases (.findRecord f) with ⟨fault, h⟩ | h
      · rw [h]; rfl
      · rw [h]; exact ⟨rfl, rfl⟩
  | store f r =>
      show Performed.Moves ⟨.store f r, (d.execute (.addRecord f r)).1.mapError .store⟩ l
        (d.execute (.addRecord f r)).2.ledger
      rcases d.execute_addRecord f r with ⟨fault, h⟩ | h
      · rw [h]; rfl
      · rw [h]; rfl
  | readCount a =>
      show Performed.Moves ⟨.readCount a, (d.execute (.readCount a)).1.mapError .store⟩ l
        (d.execute (.readCount a)).2.ledger
      rcases d.execute_cases (.readCount a) with ⟨fault, h⟩ | h
      · rw [h]; rfl
      · rw [h]; exact ⟨rfl, rfl⟩
  | increment a =>
      show Performed.Moves ⟨.increment a, (d.execute (.addCount a)).1.mapError .store⟩ l
        (d.execute (.addCount a)).2.ledger
      rcases d.execute_addCount a with ⟨fault, h⟩ | ⟨l', hl, h⟩
      · rw [h]; rfl
      · rw [h]; exact hl
  | readKey a =>
      show Performed.Moves ⟨.readKey a, (d.execute (.readKey a)).1.mapError .store⟩ l
        (d.execute (.readKey a)).2.ledger
      rcases d.execute_cases (.readKey a) with ⟨fault, h⟩ | h
      · rw [h]; rfl
      · rw [h]; exact ⟨rfl, rfl⟩
  | prune now retention =>
      show Performed.Moves ⟨.prune now retention, (d.pruneOlder now retention).1⟩ l
        (d.pruneOlder now retention).2.ledger
      rcases d.pruneOlder_cases now retention with ⟨fault, h⟩ | ⟨cutoff, hc, h⟩
      · rw [h]; rfl
      · rw [h]; exact ⟨cutoff, hc, rfl⟩

end Event

/-! ## One operation -/

namespace Performed.Moves

variable {p : Performed} {l l' : Ledger}

theorem eq_of_error (h : p.Moves l l') {fault : PruneFault} (hfault : p.reply = .error fault) :
    l' = l := by
  unfold Moves at h
  rw [hfault] at h
  exact h

theorem eq_of_isRead (h : p.Moves l l') (hr : p.operation.isRead = true) : l' = l := by
  obtain ⟨operation, reply | answer⟩ := p
  · exact h
  · cases operation with
    | find f => exact h.2
    | readCount a => exact h.2
    | readKey a => exact h.2
    | _ => cases hr

/-- A request that is on record is not recorded again. -/
theorem eq_of_present (h : p.Moves l l') {f : Fingerprint} {r row : Record}
    (hp : p.operation = .store f r) (hrow : l.record? f = some row) : l' = l := by
  obtain ⟨operation, reply | answer⟩ := p
  · exact h
  · obtain rfl : operation = .store f r := hp
    obtain rfl : l' = l.addRecord f r := h
    have hmem : f.text ∈ l.records.keys := by
      rw [← l.records.contains_iff, l.records.contains_eq_isSome]
      exact Option.isSome_iff_exists.2 ⟨row, hrow⟩
    unfold Ledger.addRecord Table.insertNew
    rw [dif_pos hmem]

/-- Only recording and pruning touch the records. -/
theorem records_eq (h : p.Moves l l') (hstore : ∀ f r, p.operation ≠ .store f r)
    (hprune : ∀ now retention, p.operation ≠ .prune now retention) : l'.records = l.records := by
  obtain ⟨operation, reply | reply⟩ := p
  · cases h
    rfl
  · cases operation with
    | store f r => exact absurd rfl (hstore f r)
    | prune now retention => exact absurd rfl (hprune now retention)
    | increment a =>
        obtain ⟨_, rfl⟩ := Ledger.increment?_eq_some h
        rfl
    | _ =>
        obtain ⟨_, rfl⟩ := h
        rfl

/-- Only counting touches the counts. -/
theorem counts_eq (h : p.Moves l l') (hincrement : ∀ a, p.operation ≠ .increment a) :
    l'.counts = l.counts := by
  obtain ⟨operation, reply | reply⟩ := p
  · cases h
    rfl
  · cases operation with
    | increment a => exact absurd rfl (hincrement a)
    | store f r =>
        cases h
        rfl
    | prune now retention =>
        obtain ⟨cutoff, _, hl⟩ := h
        cases hl
        rfl
    | _ =>
        obtain ⟨_, rfl⟩ := h
        rfl

/-- No operation touches the keys. -/
theorem keys_eq (h : p.Moves l l') : l'.keys = l.keys := by
  obtain ⟨operation, reply | reply⟩ := p
  · cases h
    rfl
  · cases operation with
    | store f r =>
        cases h
        rfl
    | increment a =>
        obtain ⟨_, rfl⟩ := Ledger.increment?_eq_some h
        rfl
    | prune now retention =>
        obtain ⟨cutoff, _, hl⟩ := h
        cases hl
        rfl
    | _ =>
        obtain ⟨_, rfl⟩ := h
        rfl

/-- A count grows by one just if a query of its account was counted. -/
theorem toInt_count (h : p.Moves l l') (a : Account) :
    (l'.count a).toInt = (l.count a).toInt + if p.counts a then 1 else 0 := by
  obtain ⟨operation, reply⟩ := p
  cases operation with
  | increment b =>
      cases reply with
      | error fault =>
          cases h
          exact (Int.add_zero _).symm
      | ok u =>
          by_cases hb : b = a
          · subst hb
            simpa [counts] using Ledger.toInt_count_increment? h
          · have hcount := Ledger.count_increment? h a
            rw [if_neg (Ne.symm hb)] at hcount
            simp [counts, hb, hcount]
  | _ =>
      have hsame : l'.count a = l.count a := by
        unfold Ledger.count
        rw [h.counts_eq (by simp)]
      rw [hsame]
      exact (Int.add_zero _).symm

/-- A row is there after an operation if it was there and was not pruned, or if there was none and
this one was recorded. -/
theorem record?_eq_some_iff (h : p.Moves l l') (f : Fingerprint) (r : Record) :
    l'.record? f = some r ↔ (l.record? f = some r ∧ p.removes r = false) ∨
      (l.record? f = none ∧ p = ⟨.store f r, .ok ()⟩) := by
  obtain ⟨operation, reply⟩ := p
  cases operation with
  | store g s =>
      cases reply with
      | error fault =>
          cases h
          simp [removes]
      | ok u =>
          cases h
          rw [Ledger.record?_addRecord]
          by_cases hf : f = g
          · subst hf
            -- on a row that is there the insertion does nothing
            cases hl : l.record? f with
            | none => simp [removes]
            | some old => simp [removes]
          · have hg : g ≠ f := Ne.symm hf
            simp [hf, hg, removes]
  | prune now retention =>
      cases reply with
      | error fault =>
          cases h
          simp [removes]
      | ok n =>
          obtain ⟨cutoff, hc, hl⟩ := h
          have hget : l'.record? f =
              (l.record? f).filter fun r => decide (cutoff.stored ≤ r.createdAt) := by
            rw [← show (l.prune cutoff.stored).2 = l' by rw [hl]]
            exact Database.get?_prune l cutoff.stored f.text
          rw [hget, Option.filter_eq_some_iff]
          simp [removes, hc]
  | _ =>
      have hsame : l'.record? f = l.record? f := by
        unfold Ledger.record?
        rw [h.records_eq (by simp) (by simp)]
      simp [hsame, removes]

end Performed.Moves

namespace Event

variable {e : Event} {l : Ledger}

def Works (e : Event) : Prop := e.connected = true ∧ e.broken = []

theorem Works.execute_eq (h : e.Works) (s : Statement) :
    (e.database l).execute s =
      ((l.execute s).1, { e.database l with ledger := (l.execute s).2 }) := by
  have hf : (e.database l).faultOf? s = none := by
    unfold Database.faultOf? database
    simp [h.1, h.2]
  unfold Database.execute
  rw [hf]
  rfl

/-- Whatever only reads or records is answered by a database that works. -/
theorem Works.exists_reply_eq_ok (h : e.Works) (l : Ledger)
    (ho : e.operation.isRead = true ∨ ∃ f r, e.operation = .store f r) :
    ∃ answer, (e.performed l).reply = .ok answer := by
  have hexecute := h.execute_eq (l := l)
  unfold performed
  generalize e.database l = d at *
  generalize e.operation = operation at *
  cases operation with
  | find f =>
      refine ⟨l.hasRecord f, ?_⟩
      show (d.execute (.findRecord f)).1.mapError PruneFault.store = _
      rw [hexecute]
      rfl
  | store f r =>
      refine ⟨(), ?_⟩
      show (d.execute (.addRecord f r)).1.mapError PruneFault.store = _
      rw [hexecute]
      rfl
  | readCount a =>
      refine ⟨l.count a, ?_⟩
      show (d.execute (.readCount a)).1.mapError PruneFault.store = _
      rw [hexecute]
      rfl
  | readKey a =>
      refine ⟨l.registeredKey? a, ?_⟩
      show (d.execute (.readKey a)).1.mapError PruneFault.store = _
      rw [hexecute]
      rfl
  | increment a =>
      rcases ho with ho | ⟨f, r, ho⟩
      · cases ho
      · cases ho
  | prune now retention =>
      rcases ho with ho | ⟨f, r, ho⟩
      · cases ho
      · cases ho

/-- What an operation on a ledger leaves alone, and what its reply tells. -/
structure IsLawful (e : Event) (l : Ledger) : Prop where
  /-- What fails changes nothing. -/
  failed : ∀ fault, (e.performed l).reply = .error fault → e.after l = l
  /-- What only reads changes nothing. -/
  read : e.operation.isRead = true → e.after l = l
  found : ∀ f answer, e.performed l = ⟨.find f, .ok answer⟩ → answer = l.hasRecord f
  counted : ∀ a answer, e.performed l = ⟨.readCount a, .ok answer⟩ → answer = l.count a
  /-- A request that is on record is not recorded again. -/
  present : ∀ f r row, e.operation = .store f r → l.record? f = some row → e.after l = l
  stored : ∀ f r, e.operation = .store f r →
    (e.after l).counts = l.counts ∧ (e.after l).keys = l.keys
  pruned : ∀ now retention, e.operation = .prune now retention →
    (e.after l).counts = l.counts ∧ (e.after l).keys = l.keys
  incremented : ∀ a, e.operation = .increment a →
    (e.after l).records = l.records ∧ (e.after l).keys = l.keys
  /-- Reading and recording succeed wherever statements are carried out, also for a request that is
  on record. -/
  answered : e.Works → (e.operation.isRead = true ∨ ∃ f r, e.operation = .store f r) →
    ∃ answer, (e.performed l).reply = .ok answer

theorem isLawful (e : Event) (l : Ledger) : e.IsLawful l := by
  have hmoves := e.moves l
  have hoperation : (e.performed l).operation = e.operation := rfl
  constructor
  case failed => exact fun fault hfault => hmoves.eq_of_error hfault
  case read => exact hmoves.eq_of_isRead
  case found =>
    intro f answer h
    rw [h] at hmoves
    exact hmoves.1
  case counted =>
    intro a answer h
    rw [h] at hmoves
    exact hmoves.1
  case present => exact fun f r row h hrow => hmoves.eq_of_present h hrow
  case stored =>
    intro f r h
    exact ⟨hmoves.counts_eq (by simp [hoperation, h]), hmoves.keys_eq⟩
  case pruned =>
    intro now retention h
    exact ⟨hmoves.counts_eq (by simp [hoperation, h]), hmoves.keys_eq⟩
  case incremented =>
    intro a h
    exact ⟨hmoves.records_eq (by simp [hoperation, h]) (by simp [hoperation, h]), hmoves.keys_eq⟩
  case answered => exact fun h ho => h.exists_reply_eq_ok l ho

end Event

/-! ## Histories -/

namespace Ledger

def run (l : Ledger) (es : List Event) : Ledger := es.foldl (fun l e => e.after l) l

/-- The operations of a sequence with the replies to them. -/
def log : Ledger → List Event → List Performed
  | _, [] => []
  | l, e :: es => e.performed l :: log (e.after l) es

variable {l : Ledger} {es : List Event}

@[simp] theorem run_nil : l.run [] = l := rfl

@[simp] theorem run_cons (e : Event) : l.run (e :: es) = (e.after l).run es := rfl

theorem run_append (later : List Event) : l.run (es ++ later) = (l.run es).run later :=
  List.foldl_append

/-- A count is what it was, and the number of queries counted since. -/
theorem toInt_count_run (l : Ledger) (es : List Event) (a : Account) :
    ((l.run es).count a).toInt = (l.count a).toInt + (l.log es).countP (Performed.counts a) := by
  induction es generalizing l with
  | nil => exact (Int.add_zero _).symm
  | cons e es ih =>
      have hstep := (e.moves l).toInt_count a
      rw [run_cons, ih, hstep, log, List.countP_cons]
      split
      · push_cast
        omega
      · push_cast
        omega

theorem count_le_count_run (l : Ledger) (es : List Event) (a : Account) :
    l.count a ≤ (l.run es).count a := by
  have h := toInt_count_run l es a
  exact Int64.le_iff_toInt_le.2 (by omega)

/-- A row has been kept over a history: it was there before and was not pruned, or it was recorded
at a time when there was none, and was not pruned since. -/
def Keeps (l : Ledger) (es : List Event) (f : Fingerprint) (r : Record) : Prop :=
  (l.record? f = some r ∧ ∀ p ∈ l.log es, p.removes r = false) ∨
    ∃ before e later, es = before ++ e :: later ∧ (l.run before).record? f = none ∧
      e.performed (l.run before) = ⟨.store f r, .ok ()⟩ ∧
      ∀ p ∈ (l.run (before ++ [e])).log later, p.removes r = false

/-- A row that is kept over a history is kept by its first operation, or recorded by it or
afterwards. -/
theorem keeps_cons {e : Event} {f : Fingerprint} {r : Record} :
    l.Keeps (e :: es) f r ↔ (e.after l).Keeps es f r := by
  have hstep := (e.moves l).record?_eq_some_iff f r
  constructor
  · rintro (⟨hrow, hall⟩ | ⟨before, e', later, hes, hnone, hstored, hall⟩)
    · have hboth := List.forall_mem_cons.1 hall
      exact .inl ⟨hstep.2 (.inl ⟨hrow, hboth.1⟩), hboth.2⟩
    · cases before with
      | nil =>
          obtain ⟨rfl, rfl⟩ := List.cons.inj hes
          exact .inl ⟨hstep.2 (.inr ⟨hnone, hstored⟩), hall⟩
      | cons e₀ before =>
          obtain ⟨rfl, hes'⟩ := List.cons.inj hes
          exact .inr ⟨before, e', later, hes', hnone, hstored, hall⟩
  · rintro (⟨hrow, hall⟩ | ⟨before, e', later, rfl, hnone, hstored, hall⟩)
    · rcases hstep.1 hrow with ⟨hold, hkept⟩ | ⟨hnone, hstored⟩
      · exact .inl ⟨hold, List.forall_mem_cons.2 ⟨hkept, hall⟩⟩
      · exact .inr ⟨[], e, es, rfl, hnone, hstored, hall⟩
    · exact .inr ⟨e :: before, e', later, rfl, hnone, hstored, hall⟩

/-- The rows after a history are those that were kept over it. -/
theorem record?_run_iff (l : Ledger) (es : List Event) (f : Fingerprint) (r : Record) :
    (l.run es).record? f = some r ↔ l.Keeps es f r := by
  induction es generalizing l with
  | nil => simp [Keeps, log]
  | cons e es ih => rw [run_cons, ih, keeps_cons]

theorem hasRecord_run_iff (l : Ledger) (es : List Event) (f : Fingerprint) :
    (l.run es).hasRecord f = true ↔ ∃ r, l.Keeps es f r := by
  rw [hasRecord_eq_isSome, Option.isSome_iff_exists]
  exact exists_congr fun r => record?_run_iff l es f r

/-- **What holds of the ledger over any history**, whichever of its operations fail. No request has
two rows and no account has two counts. A count is what it was at the start, and the number of
queries of its account counted since, so it never decreases. A row is there if and only if it was
there or was recorded, and was not pruned since; a request is on record if and only if it has such a
row. And every further operation keeps to what it may change, and tells the truth. -/
theorem history_laws (l : Ledger) (es : List Event) :
    (∀ key, (l.run es).records.keys.count key ≤ 1 ∧ (l.run es).counts.keys.count key ≤ 1) ∧
    (∀ a, ((l.run es).count a).toInt =
        (l.count a).toInt + (l.log es).countP (Performed.counts a) ∧
      ∀ later, (l.run es).count a ≤ (l.run (es ++ later)).count a) ∧
    (∀ f r, (l.run es).record? f = some r ↔ l.Keeps es f r) ∧
    (∀ f, (l.run es).hasRecord f = true ↔ ∃ r, l.Keeps es f r) ∧
    ∀ e : Event, e.IsLawful (l.run es) := by
  refine ⟨fun key => ⟨?_, ?_⟩, fun a => ⟨toInt_count_run l es a, fun later => ?_⟩,
    record?_run_iff l es, hasRecord_run_iff l es, fun e => e.isLawful _⟩
  · exact List.nodup_iff_count.1 (l.run es).records.nodup_keys key
  · exact List.nodup_iff_count.1 (l.run es).counts.nodup_keys key
  · rw [run_append]
    exact count_le_count_run _ later a

/-- An operation on a database that works. -/
def working (o : Operation) : Event := ⟨o, true, [], .unreachable⟩

/-- An operation on a database that cannot be reached. -/
def cutOff (o : Operation) : Event := ⟨o, false, [], .unreachable⟩

/-- Of two countings one fails, so one counts; what is recorded after pruning stays as it is. -/
theorem history_laws_of_monthOld :
    let account : Account := ⟨List.replicate 20 0, rfl⟩
    let row : Record := ⟨account.text, "query", none, 0⟩
    let early := [working (.increment account), cutOff (.increment account),
      working (.prune ⟨0⟩ (.ofSeconds 2592000))]
    let es := early ++ [working (.store ⟨"new"⟩ row), working (.store ⟨"new"⟩ ⟨"", "", none, 1⟩)]
    let l := Span.monthOld.ledger.run es
    (l.count account).toInt = 1 ∧ l.record? ⟨"new"⟩ = some row ∧ l.hasRecord ⟨"old"⟩ = false := by
  intro account row early es l
  obtain ⟨_, hcounts, hrows, _⟩ := history_laws Span.monthOld.ledger es
  refine ⟨(hcounts account).1.trans (by decide +kernel), (hrows _ _).2 (.inr ?_), by decide +kernel⟩
  exact ⟨early, _, [_], rfl, by decide +kernel, rfl, by decide +kernel⟩

end Ledger

end BlindSign

import BlindSign.Proofs.Interleaving

set_option autoImplicit false

/-! # How often one request is counted

A request is counted unless its record is found. Between the looking for the record and the making
of it other calls may look for it in vain, so one request may be counted once for each call that is
in flight with it at a time. A lookup that fails counts as one in vain, and a record that could not
be made cannot be found, so either may add one more.

The invariant is about the calls that were told that there is no record (`isToldNew`): as long as
there is none, each of them is yet to make it or has failed to.
-/

namespace BlindSign

namespace Exchange

def looksUpOf (fingerprint : Fingerprint) : Exchange → Bool
  | ⟨.findRecord f, _⟩ => decide (f = fingerprint)
  | _ => false

/-- There is no record with a fingerprint, a call was told. -/
def tellsNew (fingerprint : Fingerprint) : Exchange → Bool
  | ⟨.findRecord f, .ok false⟩ => decide (f = fingerprint)
  | _ => false

def failsToFind (fingerprint : Fingerprint) : Exchange → Bool
  | ⟨.findRecord f, .error _⟩ => decide (f = fingerprint)
  | _ => false

def entersOf (fingerprint : Fingerprint) : Exchange → Bool
  | ⟨.addRecord request, _⟩ => decide (request.fingerprint = fingerprint)
  | _ => false

def failsToEnter (fingerprint : Fingerprint) : Exchange → Bool
  | ⟨.addRecord request, .error _⟩ => decide (request.fingerprint = fingerprint)
  | _ => false

section

variable {fingerprint : Fingerprint} {e : Exchange}

/-- A record is looked for in vain if there is none or if the lookup fails. -/
theorem findsNew_iff : e.findsNew fingerprint = true ↔
    e.tellsNew fingerprint = true ∨ e.failsToFind fingerprint = true := by
  obtain ⟨call, reply⟩ := e
  cases call with
  | findRecord f =>
      cases reply with
      | error fault => simp [findsNew, tellsNew, failsToFind, Except.toOption]
      | ok found =>
          cases found with
          | false => simp [findsNew, tellsNew, failsToFind, Except.toOption]
          | true => simp [findsNew, tellsNew, failsToFind, Except.toOption]
  | _ => simp [findsNew, tellsNew, failsToFind]

theorem tellsNew_iff : e.tellsNew fingerprint = true ↔
    e = ⟨.findRecord fingerprint, .ok false⟩ := by
  constructor
  · intro h
    obtain ⟨call, reply⟩ := e
    cases call with
    | findRecord f =>
        cases reply with
        | error fault => cases h
        | ok found =>
            cases found with
            | false =>
                obtain rfl : f = fingerprint := of_decide_eq_true h
                rfl
            | true => cases h
    | _ => cases h
  · rintro rfl
    exact decide_eq_true rfl

theorem looksUpOf_iff : e.looksUpOf fingerprint = true ↔
    ∃ reply, e = ⟨.findRecord fingerprint, reply⟩ := by
  constructor
  · intro h
    obtain ⟨call, reply⟩ := e
    cases call with
    | findRecord f =>
        obtain rfl : f = fingerprint := of_decide_eq_true h
        exact ⟨reply, rfl⟩
    | _ => cases h
  · rintro ⟨reply, rfl⟩
    exact decide_eq_true rfl

theorem looksUpOf_of_findsNew (h : e.findsNew fingerprint = true) :
    e.looksUpOf fingerprint = true := by
  obtain ⟨call, reply⟩ := e
  cases call with
  | findRecord f =>
      simp only [findsNew, Bool.and_eq_true] at h
      exact h.1
  | _ => cases h

theorem entersOf_iff : e.entersOf fingerprint = true ↔
    ∃ request recorded, request.fingerprint = fingerprint ∧ e = ⟨.addRecord request, recorded⟩ := by
  constructor
  · intro h
    obtain ⟨call, reply⟩ := e
    cases call with
    | addRecord request => exact ⟨request, reply, of_decide_eq_true h, rfl⟩
    | _ => cases h
  · rintro ⟨request, recorded, hf, rfl⟩
    exact decide_eq_true hf

theorem entersOf_of_failsToEnter (h : e.failsToEnter fingerprint = true) :
    e.entersOf fingerprint = true := by
  obtain ⟨call, reply⟩ := e
  cases call with
  | addRecord request =>
      cases reply with
      | error fault => exact h
      | ok u => cases h
  | _ => cases h

end

end Exchange

/-! ## Records -/

section

variable {e : Exchange} {l l' : Ledger}

/-- Only the recording of a request makes its record. -/
theorem Exchange.Moves.hasRecord_eq (h : e.Moves l l') {fingerprint : Fingerprint}
    (he : e.entersOf fingerprint = false) : l'.hasRecord fingerprint = l.hasRecord fingerprint := by
  obtain ⟨call, reply⟩ := e
  cases call with
  | addRecord request =>
      cases reply with
      | error fault =>
          obtain rfl : l' = l := h
          rfl
      | ok u =>
          obtain ⟨now, rfl⟩ := h
          have hne : ¬ request.fingerprint = fingerprint := of_decide_eq_false he
          have hne' : ¬ fingerprint = request.fingerprint := fun h => hne h.symm
          simp [Ledger.hasRecord_addRecord, hne']
  | addCount a =>
      cases reply with
      | error fault =>
          obtain rfl : l' = l := h
          rfl
      | ok u => exact Ledger.hasRecord_increment? h fingerprint
  | _ =>
      obtain rfl : l' = l := h
      rfl

/-- A request that was recorded is on record. -/
theorem Exchange.Moves.hasRecord_of_ok {request : Admitted}
    (h : Exchange.Moves ⟨.addRecord request, .ok ()⟩ l l') :
    l'.hasRecord request.fingerprint = true := by
  obtain ⟨now, rfl⟩ := h
  simp [Ledger.hasRecord_addRecord]

end

/-- An execution in which the record was looked for in vain has tried both writes. -/
theorem Signing.Transcript.writes_of_findsNew {limits : Limits} {now : Int64} {s : Submission}
    {trace : List Exchange} {outcome : Except Refusal Grant} {fingerprint : Fingerprint}
    (h : Transcript limits now s trace outcome)
    (hn : trace.any (Exchange.findsNew fingerprint) = true) :
    trace.any (Exchange.entersOf fingerprint) = true ∧ trace.any Exchange.counts = true := by
  cases h with
  | invalid hs => cases hn
  | unauthenticated hs => cases hn
  | exhausted hs hr hq =>
      simp [hr.any, Exchange.findsNew] at hn
  | @passed request quota height reads rest outcome hs hr hq hc =>
      cases hc with
      | keyUnavailable fault => simp [hr.any, Exchange.findsNew] at hn
      | unsigned share fault => simp [hr.any, Exchange.findsNew] at hn
      | duplicate share signature => simp [hr.any, Exchange.findsNew, Except.toOption] at hn
      | entered share signature hf hw =>
          have hff : request.fingerprint = fingerprint := by
            simp only [List.any_cons, List.any_append, hr.any, hw.any, Exchange.findsNew,
              Bool.or_false, Bool.false_or, Bool.and_eq_true, decide_eq_true_eq] at hn
            exact hn.1
          refine ⟨?_, ?_⟩
          · simp [hr.any, hw.any, Exchange.entersOf, hff]
          · simp [hr.any, hw.any, Exchange.counts]

namespace Progress

/-- Whether a call has looked for the record with a fingerprint and tried to count. -/
def attempts (fingerprint : Fingerprint) (c : Progress) : Bool :=
  c.trace.any (Exchange.looksUpOf fingerprint) && c.trace.any Exchange.counts

def isToldNew (fingerprint : Fingerprint) (c : Progress) : Bool :=
  c.trace.any (Exchange.tellsNew fingerprint)

def lacksLookup (fingerprint : Fingerprint) (c : Progress) : Bool :=
  c.trace.any (Exchange.failsToFind fingerprint)

def lacksRecord (fingerprint : Fingerprint) (c : Progress) : Bool :=
  c.trace.any (Exchange.failsToEnter fingerprint)

/-- Whether a call was told that there is no record and is yet to make it. -/
def isToEnter (fingerprint : Fingerprint) (c : Progress) : Bool :=
  c.isToldNew fingerprint && !c.trace.any (Exchange.entersOf fingerprint)

/-- Whether a call has looked for the record with a fingerprint in vain and has not completed both
writes. -/
def isEntering (fingerprint : Fingerprint) (c : Progress) : Bool :=
  c.trace.any (Exchange.findsNew fingerprint) &&
    !(c.trace.any (Exchange.entersOf fingerprint) && c.trace.any Exchange.counts)

/-! ## What the order of exchanges implies -/

section

variable {fingerprint : Fingerprint} {c : Progress}

/-- A record is looked for once. -/
theorem IsSound.looksUp_unique (h : c.IsSound) {e₁ e₂ : Exchange} (h₁ : e₁ ∈ c.trace)
    (h₂ : e₂ ∈ c.trace) (hl₁ : e₁.looksUp = true) (hl₂ : e₂.looksUp = true) : e₁ = e₂ := by
  have honce : ∀ past e later, c.trace = past ++ e :: later → e.looksUp = true →
      ∀ d ∈ past, d.looksUp = false := by
    intro past e later ht hl d hd
    have hp : Signing.Permits past e := h.permits past e later ht
    obtain ⟨call, reply⟩ := e
    cases call with
    | findRecord f =>
        have hno : past.any Exchange.looksUp = false := hp
        simpa using List.any_eq_false.1 hno d hd
    | _ => cases hl
  -- whichever is the later one was permitted after the other
  obtain ⟨past, later, ht⟩ := List.append_of_mem h₁
  rw [ht] at h₂
  rcases List.mem_append.1 h₂ with h₂ | h₂
  · rw [honce past e₁ later ht hl₁ e₂ h₂] at hl₂
    cases hl₂
  · rcases List.mem_cons.1 h₂ with rfl | h₂
    · rfl
    · obtain ⟨between, last, rfl⟩ := List.append_of_mem h₂
      have hno := honce (past ++ e₁ :: between) e₂ last (by simp [ht]) hl₂ e₁ (by simp)
      rw [hno] at hl₁
      cases hl₁

/-- A call that tries to count was told that there is no record, or its lookup failed. -/
theorem IsSound.of_attempts (h : c.IsSound) (ha : c.attempts fingerprint = true) :
    c.isToldNew fingerprint = true ∨ c.lacksLookup fingerprint = true := by
  simp only [attempts, Bool.and_eq_true, List.any_eq_true] at ha
  obtain ⟨⟨e, he, hl⟩, d, hd, hcounts⟩ := ha
  obtain ⟨past, later, ht⟩ := List.append_of_mem hd
  have hp : Signing.Permits past d := h.permits past d later ht
  obtain ⟨call, reply⟩ := d
  cases call with
  | addCount account =>
      obtain ⟨_, ⟨f, hf⟩, _⟩ := hp
      obtain ⟨e', he', hnew⟩ := List.any_eq_true.1 hf
      obtain ⟨found, rfl⟩ := Exchange.looksUpOf_iff.1 hl
      obtain ⟨found', rfl⟩ := Exchange.looksUpOf_iff.1 (Exchange.looksUpOf_of_findsNew hnew)
      -- the lookup that permits the counting is the one for the fingerprint
      have he'' : ⟨.findRecord f, found'⟩ ∈ c.trace := by simp [ht, he']
      have heq := h.looksUp_unique he'' he rfl rfl
      cases heq
      rcases Exchange.findsNew_iff.1 hnew with hn | hn
      · exact .inl (List.any_eq_true.2 ⟨_, he, hn⟩)
      · exact .inr (List.any_eq_true.2 ⟨_, he, hn⟩)
  | _ => cases hcounts

/-- Nothing is recorded before its record was looked for. -/
theorem IsSound.entersOf_eq_false (h : c.IsSound) (hl : c.trace.any Exchange.looksUp = false) :
    c.trace.any (Exchange.entersOf fingerprint) = false := by
  rw [List.any_eq_false] at hl ⊢
  intro e he hent
  obtain ⟨request, recorded, rfl, rfl⟩ := Exchange.entersOf_iff.1 hent
  obtain ⟨past, later, ht⟩ := List.append_of_mem he
  obtain ⟨hnew, _⟩ : Signing.Permits past ⟨.addRecord request, recorded⟩ :=
    h.permits past _ later ht
  obtain ⟨d, hd, hf⟩ := List.any_eq_true.1 hnew
  obtain ⟨found, rfl⟩ := Exchange.looksUpOf_iff.1 (Exchange.looksUpOf_of_findsNew hf)
  have hd' : ⟨.findRecord request.fingerprint, found⟩ ∈ c.trace := by simp [ht, hd]
  exact hl _ hd' rfl

/-- A call that has returned has completed its writes. -/
theorem IsSound.isRunning_of_isEntering (h : c.IsSound) (he : c.isEntering fingerprint = true) :
    c.isRunning = true := by
  obtain ⟨limits, now, s, ho⟩ := h.obeys
  obtain ⟨trace, p⟩ := c
  cases p with
  | finish outcome =>
      have ht : Signing.Transcript limits now s trace outcome := ho
      simp only [isEntering, Bool.and_eq_true, Bool.not_eq_true'] at he
      obtain ⟨henters, hcounts⟩ := ht.writes_of_findsNew he.1
      rw [henters, hcounts] at he
      cases he.2
  | _ => rfl

/-! ## Steps -/

variable {c' : Progress} {e : Exchange}

/-- What a call was told it was told by some exchange. -/
theorem isToldNew_append (hc : c'.trace = c.trace ++ [e]) :
    c'.isToldNew fingerprint = (c.isToldNew fingerprint || e.tellsNew fingerprint) := by
  simp [isToldNew, hc]

theorem lacksRecord_append (hc : c'.trace = c.trace ++ [e]) :
    c'.lacksRecord fingerprint = (c.lacksRecord fingerprint || e.failsToEnter fingerprint) := by
  simp [lacksRecord, hc]

theorem isToEnter_append (hc : c'.trace = c.trace ++ [e]) :
    c'.isToEnter fingerprint = ((c.isToldNew fingerprint || e.tellsNew fingerprint) &&
      !(c.trace.any (Exchange.entersOf fingerprint) || e.entersOf fingerprint)) := by
  simp [isToEnter, isToldNew, hc]

/-- Who is to make the record is entering. -/
theorem isEntering_of_isToEnter (h : c.isToEnter fingerprint = true) :
    c.isEntering fingerprint = true := by
  simp only [isToEnter, isToldNew, Bool.and_eq_true, List.any_eq_true, Bool.not_eq_true'] at h
  obtain ⟨⟨e, he, hn⟩, hno⟩ := h
  have hnew : c.trace.any (Exchange.findsNew fingerprint) = true :=
    List.any_eq_true.2 ⟨e, he, Exchange.findsNew_iff.2 (.inl hn)⟩
  simp [isEntering, hnew, hno]

end

end Progress

namespace System

/-! ## The invariant -/

/-- At most as many calls were told that there is no record as may be entering at a time or failed
to make it; and while there is none, each of them is yet to make it or failed to. -/
structure Sparing (fingerprint : Fingerprint) (k : Nat) (σ : System) : Prop where
  told_le : σ.tally (Progress.isToldNew fingerprint) ≤
    k + σ.tally (Progress.lacksRecord fingerprint)
  told_le_of_new : σ.ledger.hasRecord fingerprint = false →
    σ.tally (Progress.isToldNew fingerprint) ≤
      σ.tally (Progress.isToEnter fingerprint) + σ.tally (Progress.lacksRecord fingerprint)

section

variable {fingerprint : Fingerprint} {k : Nat} {l l' : Ledger} {before after : List Progress}
  {c c' : Progress} {e : Exchange}

theorem Sparing.congr {σ σ' : System} (h : σ.Sparing fingerprint k)
    (hrecord : σ'.ledger.hasRecord fingerprint = σ.ledger.hasRecord fingerprint)
    (htold : σ'.tally (Progress.isToldNew fingerprint) = σ.tally (Progress.isToldNew fingerprint))
    (henter : σ'.tally (Progress.isToEnter fingerprint) = σ.tally (Progress.isToEnter fingerprint))
    (hlack : σ'.tally (Progress.lacksRecord fingerprint) =
      σ.tally (Progress.lacksRecord fingerprint)) : σ'.Sparing fingerprint k where
  told_le := by
    rw [htold, hlack]
    exact h.told_le
  told_le_of_new := by
    rw [hrecord, htold, henter, hlack]
    exact h.told_le_of_new

/-- Who is told that there is no record is told the truth and is to make it. -/
theorem Sparing.told (h : Sparing fingerprint k ⟨l, before ++ c :: after⟩)
    (hc : Makes l l' c c' e) (he : e.tellsNew fingerprint = true)
    (hk : tally (Progress.isEntering fingerprint) ⟨l', before ++ c' :: after⟩ ≤ k) :
    Sparing fingerprint k ⟨l', before ++ c' :: after⟩ := by
  obtain rfl := Exchange.tellsNew_iff.1 he
  have hnone : c.trace.any Exchange.looksUp = false := hc.permitted
  obtain rfl : l' = l := hc.moves
  have hnew : l'.hasRecord fingerprint = false := Eq.symm hc.truthful
  have hold : c.isToldNew fingerprint = false := by
    refine List.any_eq_false.2 fun d hd hn => ?_
    obtain rfl := Exchange.tellsNew_iff.1 hn
    exact List.any_eq_false.1 hnone _ hd rfl
  have htold := tally_advance (Progress.isToldNew fingerprint) l' l' before after c c'
  have henter := tally_advance (Progress.isToEnter fingerprint) l' l' before after c c'
  have hlack := tally_eq_advance (Progress.lacksRecord fingerprint) l' l' before after
    ((Progress.lacksRecord_append hc.trace).trans (Bool.or_false _))
  have hwas : c.isToEnter fingerprint = false := by simp [Progress.isToEnter, hold]
  have his : c'.isToEnter fingerprint = true := by
    rw [Progress.isToEnter_append hc.trace, hc.sound.entersOf_eq_false hnone, he, Bool.or_true]
    rfl
  rw [Progress.isToldNew_append hc.trace, hold, he, Bool.false_or, Bool.toNat_false,
    Bool.toNat_true] at htold
  rw [hwas, his, Bool.toNat_false, Bool.toNat_true] at henter
  -- there is no record, so all who were told so are yet to make it, and so in flight, or failed to
  have hle := h.told_le_of_new hnew
  have hfly : tally (Progress.isToEnter fingerprint) ⟨l', before ++ c' :: after⟩ ≤ k :=
    Nat.le_trans (tally_le _ fun c _ => Progress.isEntering_of_isToEnter) hk
  refine ⟨?_, fun _ => ?_⟩
  · omega
  · omega

/-- Who has tried to make the record has made it or failed to. -/
theorem Sparing.entered (h : Sparing fingerprint k ⟨l, before ++ c :: after⟩)
    (hc : Makes l l' c c' e) (he : e.entersOf fingerprint = true) :
    Sparing fingerprint k ⟨l', before ++ c' :: after⟩ := by
  obtain ⟨request, recorded, rfl, rfl⟩ := Exchange.entersOf_iff.1 he
  have hnone : c.trace.any Exchange.enters = false := hc.permitted.2
  have htold := tally_eq_advance (Progress.isToldNew request.fingerprint) l l' before after
    ((Progress.isToldNew_append hc.trace).trans (Bool.or_false _))
  have henter := tally_advance (Progress.isToEnter request.fingerprint) l l' before after c c'
  have hlack := tally_advance (Progress.lacksRecord request.fingerprint) l l' before after c c'
  have hwas : c.lacksRecord request.fingerprint = false := by
    refine List.any_eq_false.2 fun d hd hf => ?_
    obtain ⟨request', recorded', _, rfl⟩ :=
      Exchange.entersOf_iff.1 (Exchange.entersOf_of_failsToEnter hf)
    exact List.any_eq_false.1 hnone _ hd rfl
  rw [Progress.lacksRecord_append hc.trace, hwas, Bool.false_or, Bool.toNat_false] at hlack
  have htold_le := h.told_le
  have hone : (c.isToEnter request.fingerprint).toNat ≤ 1 := Bool.toNat_le _
  cases recorded with
  | error fault =>
      obtain rfl : l' = l := hc.moves
      have hfails : Exchange.failsToEnter request.fingerprint ⟨.addRecord request, .error fault⟩ =
          true := decide_eq_true rfl
      rw [hfails, Bool.toNat_true] at hlack
      refine ⟨by omega, fun hnew => ?_⟩
      have hle := h.told_le_of_new hnew
      omega
  | ok u =>
      -- now there is a record, and there will be one from now on
      refine ⟨by omega, fun hnew => ?_⟩
      rw [hc.moves.hasRecord_of_ok] at hnew
      cases hnew

/-- No other exchange matters. -/
theorem Sparing.other (h : Sparing fingerprint k ⟨l, before ++ c :: after⟩)
    (hc : Makes l l' c c' e) (hn : e.tellsNew fingerprint = false)
    (he : e.entersOf fingerprint = false) :
    Sparing fingerprint k ⟨l', before ++ c' :: after⟩ := by
  have hf : e.failsToEnter fingerprint = false := by
    cases hf : e.failsToEnter fingerprint with
    | false => rfl
    | true =>
        rw [Exchange.entersOf_of_failsToEnter hf] at he
        cases he
  refine h.congr (hc.moves.hasRecord_eq he) (tally_eq_advance _ _ _ before after ?_)
    (tally_eq_advance _ _ _ before after ?_) (tally_eq_advance _ _ _ before after ?_)
  · rw [Progress.isToldNew_append hc.trace, hn, Bool.or_false]
  · rw [Progress.isToEnter_append hc.trace, hn, he, Bool.or_false, Bool.or_false]
    rfl
  · rw [Progress.lacksRecord_append hc.trace, hf, Bool.or_false]

/-- The invariant looks at the traces of calls only. -/
theorem Sparing.silent (h : Sparing fingerprint k ⟨l, before ++ c :: after⟩)
    (hc : c'.trace = c.trace) : Sparing fingerprint k ⟨l, before ++ c' :: after⟩ := by
  refine h.congr rfl (tally_eq_advance _ _ _ before after ?_)
    (tally_eq_advance _ _ _ before after ?_) (tally_eq_advance _ _ _ before after ?_)
  · rw [Progress.isToldNew, hc, Progress.isToldNew]
  · rw [Progress.isToEnter, Progress.isToldNew, hc, Progress.isToEnter, Progress.isToldNew]
  · rw [Progress.lacksRecord, hc, Progress.lacksRecord]

/-- The invariant holds along every run. -/
theorem Run.sparing {σ : System} {earlier : List System} (h : Run l σ earlier)
    (hk : ∀ τ ∈ σ :: earlier, τ.tally (Progress.isEntering fingerprint) ≤ k) :
    σ.Sparing fingerprint k := by
  refine h.induct ?_ ?_ ?_ ?_ hk
  · exact ⟨Nat.zero_le _, fun _ => Nat.zero_le _⟩
  · intro l calls limits now s hw
    exact hw.congr rfl (tally_arrive _ _ _ calls rfl) (tally_arrive _ _ _ calls rfl)
      (tally_arrive _ _ _ calls rfl)
  · intro l before c c' after _ hc hw
    exact hw.silent hc
  · intro l l' before c c' after e hc hentering hw
    -- an exchange can tell that the record is missing, make it, or do neither
    cases hn : e.tellsNew fingerprint with
    | true => exact hw.told hc hn hentering
    | false =>
        cases he : e.entersOf fingerprint with
        | true => exact hw.entered hc he
        | false => exact hw.other hc hn he

/-- **Bounded double counting.** Whatever the order in which calls make their steps, at most as many
calls of one request try to count it as are entering it at a time, and one more for each lookup and
each recording of it that fails. Calls that do not overlap and do not fail try to count it once. -/
theorem attempts_le_of_run {σ : System} {earlier : List System} (h : Run l σ earlier) :
    (∀ k : Nat, (∀ τ ∈ σ :: earlier, τ.tally (Progress.isEntering fingerprint) ≤ k) →
      σ.tally (Progress.attempts fingerprint) ≤
        k + σ.tally (Progress.lacksLookup fingerprint) +
          σ.tally (Progress.lacksRecord fingerprint)) ∧
    ((∀ τ ∈ σ :: earlier, τ.tally Progress.isRunning ≤ 1) →
      σ.tally (Progress.lacksLookup fingerprint) = 0 →
      σ.tally (Progress.lacksRecord fingerprint) = 0 →
      σ.tally (Progress.attempts fingerprint) ≤ 1) := by
  have hbound : ∀ k : Nat, (∀ τ ∈ σ :: earlier, τ.tally (Progress.isEntering fingerprint) ≤ k) →
      σ.tally (Progress.attempts fingerprint) ≤
        k + σ.tally (Progress.lacksLookup fingerprint) +
          σ.tally (Progress.lacksRecord fingerprint) := by
    intro k hk
    -- who tries to count was told that the record is missing, or was told nothing
    have hsplit : σ.tally (Progress.attempts fingerprint) ≤
        σ.tally (Progress.isToldNew fingerprint) + σ.tally (Progress.lacksLookup fingerprint) :=
      tally_le_add σ fun c hc ha => (h.isSound c hc).of_attempts ha
    have htold := (h.sparing hk).told_le
    omega
  refine ⟨hbound, fun hone hlookup hrecord => ?_⟩
  -- only calls that run are entering, so the first bound holds with `k = 1`
  have hentering : ∀ τ ∈ σ :: earlier, τ.tally (Progress.isEntering fingerprint) ≤ 1 := by
    intro τ hτ
    refine Nat.le_trans (tally_le τ fun c hc he => ?_) (hone τ hτ)
    obtain ⟨earlier', hτ'⟩ := h.of_mem τ hτ
    exact (hτ'.isSound c hc).isRunning_of_isEntering he
  have hmax := hbound 1 hentering
  omega

end

/-! ## The bound is attained -/

/-- Two calls of one request that overlap are both counted. -/
theorem attempts_le_of_overlap :
    ∃ (fingerprint : Fingerprint) (σ : System) (earlier : List System), Run .empty σ earlier ∧
      (∀ τ ∈ σ :: earlier, τ.tally (Progress.isEntering fingerprint) ≤ 2) ∧
      σ.tally (Progress.lacksLookup fingerprint) = 0 ∧
      σ.tally (Progress.lacksRecord fingerprint) = 0 ∧
      σ.tally (Progress.attempts fingerprint) = 2 ∧
      σ.tally (Progress.attempts fingerprint) ≤
        2 + σ.tally (Progress.lacksLookup fingerprint) +
          σ.tally (Progress.lacksRecord fingerprint) := by
  obtain ⟨request, hs⟩ := Deployment.exists_rehearsed_admitted
  obtain ⟨g, l, earlier, hrun, _⟩ := exists_run_overlap hs 1 (by decide)
    ⟨List.replicate 32 1, rfl⟩ ⟨"signature"⟩
  -- no state of the run has more than two calls
  have htwo : ∀ τ ∈ _ :: earlier, τ.tally (Progress.isEntering request.fingerprint) ≤ 2 :=
    fun τ hτ => Nat.le_trans List.countP_le_length (hrun.length_calls τ hτ)
  have hattempts : tally (Progress.attempts request.fingerprint)
      (twice Deployment.rehearsedSubmission request 1 ⟨List.replicate 32 1, rfl⟩ ⟨"signature"⟩ g
        l) = 2 := by
    simp [tally, twice, Progress.attempts, readsOfNew, writesOfNew, Exchange.looksUpOf,
      Exchange.counts]
  exact ⟨request.fingerprint, _, earlier, hrun, htwo, rfl, rfl, hattempts,
    (attempts_le_of_run hrun).1 2 htwo⟩

end System

end BlindSign

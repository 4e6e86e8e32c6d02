import BlindSign.Proofs.Deployment
import BlindSign.Proofs.Ledger
import BlindSign.Proofs.Transcript

set_option autoImplicit false

/-! # Interleavings

Any number of calls of the service over one ledger. A call may begin at any time, with any limits,
at any instant and with any submission; calls that have begun go on one step at a time, in any
order. What a reply tells about the ledger is true of it at that step, otherwise replies are
arbitrary: any collaborator may fail at any time. Nothing else changes the ledger, and no record is
pruned.

The calls are never removed from the system, so their traces tell all that has happened.
-/

namespace BlindSign

/-- Counting goes one element at a time. -/
theorem countP_cons_toNat {α : Type} (test : α → Bool) (a : α) (as : List α) :
    (a :: as).countP test = (test a).toNat + as.countP test := by
  rw [List.countP_cons, Nat.add_comm]
  cases test a with
  | false => rfl
  | true => rfl

/-- How far a call of the service has come. -/
structure Progress where
  /-- Its exchanges so far. -/
  trace : List Exchange
  /-- What is left of it. -/
  rest : Procedure (Except Refusal Grant)

namespace Progress

def begun (limits : Limits) (now : Int64) (s : Submission) : Progress :=
  ⟨[], Signing.procedure limits now s⟩

def isRunning (c : Progress) : Bool :=
  match c.rest with
  | .finish _ => false
  | _ => true

theorem isRunning_of_step {c : Progress} {es : List Exchange}
    {rest : Procedure (Except Refusal Grant)} (h : c.rest.Step es rest) : c.isRunning = true := by
  obtain ⟨trace, p⟩ := c
  cases p with
  | finish result => cases h
  | _ => rfl

/-- Each exchange of a call was permitted after those before it, and what is left of it obeys. -/
structure IsSound (c : Progress) : Prop where
  permits : ∀ past e rest, c.trace = past ++ e :: rest → Signing.Permits past e
  obeys : ∃ limits now s,
    c.rest.Obeys Signing.Permits (Signing.Transcript limits now s) c.trace

theorem isSound_begun (limits : Limits) (now : Int64) (s : Submission) :
    (begun limits now s).IsSound where
  permits past e rest h := by simp [begun] at h
  obeys := ⟨limits, now, s, Signing.obeys_procedure limits now s⟩

/-- A step makes a permitted exchange, if it makes one. -/
theorem IsSound.permits_step {c : Progress} {es : List Exchange}
    {rest : Procedure (Except Refusal Grant)} (h : c.IsSound) (hs : c.rest.Step es rest) :
    ∀ e ∈ es, Signing.Permits c.trace e := by
  obtain ⟨limits, now, s, ho⟩ := h.obeys
  exact (ho.step hs).1

theorem IsSound.step {c : Progress} {es : List Exchange}
    {rest : Procedure (Except Refusal Grant)} (h : c.IsSound) (hs : c.rest.Step es rest) :
    IsSound ⟨c.trace ++ es, rest⟩ where
  permits := by
    intro past e later ht
    have hes := h.permits_step hs
    rcases hs.label with rfl | ⟨e', rfl⟩
    · exact h.permits past e later (by rw [← ht, List.append_nil])
    · -- the exchange in question is the new one, or one of those before it
      rcases List.eq_nil_or_concat later with rfl | ⟨later', e'', rfl⟩
      · obtain ⟨rfl, he⟩ := List.append_inj' ht rfl
        obtain rfl := (List.cons.inj he).1
        exact hes e' (by simp)
      · refine h.permits past e later' ?_
        have ht' : c.trace ++ [e'] = (past ++ e :: later') ++ [e''] := by simpa using ht
        exact (List.append_inj' ht' rfl).1
  obeys := by
    obtain ⟨limits, now, s, ho⟩ := h.obeys
    exact ⟨limits, now, s, (ho.step hs).2⟩

end Progress

/-- Calls of the service over one ledger. -/
structure System where
  ledger : Ledger
  /-- The calls that have begun, the first one first. -/
  calls : List Progress

namespace System

inductive Step : System → System → Prop
  /-- A call begins. -/
  | arrive (l : Ledger) (calls : List Progress) (limits : Limits) (now : Int64) (s : Submission) :
      Step ⟨l, calls⟩ ⟨l, calls ++ [.begun limits now s]⟩
  /-- A call goes on by a step. -/
  | advance {l l' : Ledger} (before : List Progress) {c : Progress} (after : List Progress)
      {es : List Exchange} {rest : Procedure (Except Refusal Grant)}
      (hs : c.rest.Step es rest) (hl : l.Serves es l') :
      Step ⟨l, before ++ c :: after⟩ ⟨l', before ++ ⟨c.trace ++ es, rest⟩ :: after⟩

/-- A run that starts with a ledger and no call: the state that it has come to and the states
before it, the last one first. -/
inductive Run (l : Ledger) : System → List System → Prop
  | start : Run l ⟨l, []⟩ []
  | step {σ σ' : System} {earlier : List System} (h : Run l σ earlier) (hs : Step σ σ') :
      Run l σ' (σ :: earlier)

theorem Run.isSound {l : Ledger} {σ : System} {earlier : List System} (h : Run l σ earlier) :
    ∀ c ∈ σ.calls, c.IsSound := by
  induction h with
  | start => simp
  | step h hs ih =>
      cases hs with
      | arrive l calls limits now s =>
          intro c hc
          rcases List.mem_append.1 hc with hc | hc
          · exact ih c hc
          · obtain rfl := List.mem_singleton.1 hc
            exact Progress.isSound_begun limits now s
      | @advance l l' before c after es rest hs hl =>
          intro d hd
          rcases List.mem_append.1 hd with hd | hd
          · exact ih d (by simp [hd])
          · rcases List.mem_cons.1 hd with rfl | hd
            · exact (ih c (by simp)).step hs
            · exact ih d (by simp [hd])

/-- A running call makes an exchange, and the ledger moves. -/
structure Makes (l l' : Ledger) (c c' : Progress) (e : Exchange) : Prop where
  sound : c.IsSound
  running : c.isRunning = true
  trace : c'.trace = c.trace ++ [e]
  permitted : Signing.Permits c.trace e
  truthful : e.IsTrueOf l
  moves : e.Moves l l'

/-- An invariant that the system without calls has, and that is kept by calls that begin, by steps
without an exchange and by exchanges, holds along every run. An exchange may rely on what is known
of each state of the run. -/
theorem Run.induct {l : Ledger} {Invariant Known : System → Prop}
    (hstart : Invariant ⟨l, []⟩)
    (harrive : ∀ l calls limits now s, Invariant ⟨l, calls⟩ →
      Invariant ⟨l, calls ++ [.begun limits now s]⟩)
    (hsilent : ∀ l before c c' after, c.isRunning = true → c'.trace = c.trace →
      Invariant ⟨l, before ++ c :: after⟩ → Invariant ⟨l, before ++ c' :: after⟩)
    (hmakes : ∀ l l' before c c' after e, Makes l l' c c' e → Known ⟨l', before ++ c' :: after⟩ →
      Invariant ⟨l, before ++ c :: after⟩ → Invariant ⟨l', before ++ c' :: after⟩)
    {σ : System} {earlier : List System} (h : Run l σ earlier)
    (hk : ∀ τ ∈ σ :: earlier, Known τ) : Invariant σ := by
  induction h with
  | start => exact hstart
  | @step σ σ' earlier h hs ih =>
      have hi : Invariant σ := ih fun τ hτ => hk τ (List.mem_cons_of_mem _ hτ)
      cases hs with
      | arrive l calls limits now s => exact harrive l calls limits now s hi
      | @advance l l' before c after es rest hs hl =>
          have hr : c.isRunning = true := Progress.isRunning_of_step hs
          -- ⟨e, rfl⟩ | a step has no exchange or one
          rcases hs.label with rfl | ⟨e, rfl⟩
          · obtain rfl : l' = l := hl
            exact hsilent l' before c _ after hr (List.append_nil _) hi
          · obtain ⟨htrue, hm⟩ := Ledger.serves_singleton.1 hl
            have hsound : c.IsSound := h.isSound c (by simp)
            have hp : Signing.Permits c.trace e := hsound.permits_step hs e (by simp)
            exact hmakes l l' before c _ after e ⟨hsound, hr, rfl, hp, htrue, hm⟩
              (hk _ List.mem_cons_self) hi

/-- Each state of a run ends a run of its own. -/
theorem Run.of_mem {l : Ledger} {σ : System} {earlier : List System} (h : Run l σ earlier) :
    ∀ τ ∈ σ :: earlier, ∃ earlier', Run l τ earlier' := by
  induction h with
  | start =>
      intro τ hτ
      obtain rfl := List.mem_singleton.1 hτ
      exact ⟨[], .start⟩
  | @step σ σ' earlier h hs ih =>
      intro τ hτ
      rcases List.mem_cons.1 hτ with rfl | hτ
      · exact ⟨σ :: earlier, .step h hs⟩
      · exact ih τ hτ

/-! ## Numbers of calls -/

def tally (test : Progress → Bool) (σ : System) : Nat := σ.calls.countP test

section

variable (test : Progress → Bool) (l l' : Ledger)

theorem tally_arrive (calls : List Progress) {c : Progress} (hc : test c = false) :
    tally test ⟨l', calls ++ [c]⟩ = tally test ⟨l, calls⟩ := by
  unfold tally
  rw [List.countP_append]
  simp [hc]

theorem tally_advance (before after : List Progress) (c c' : Progress) :
    tally test ⟨l', before ++ c' :: after⟩ + (test c).toNat =
      tally test ⟨l, before ++ c :: after⟩ + (test c').toNat := by
  have hsplit : ∀ (l : Ledger) (c : Progress), tally test ⟨l, before ++ c :: after⟩ =
      before.countP test + ((test c).toNat + after.countP test) := by
    intro l c
    unfold tally
    rw [List.countP_append, countP_cons_toNat]
  have h := hsplit l c
  have h' := hsplit l' c'
  omega

theorem tally_eq_advance (before after : List Progress) {c c' : Progress}
    (h : test c' = test c) :
    tally test ⟨l', before ++ c' :: after⟩ = tally test ⟨l, before ++ c :: after⟩ := by
  have hadv := tally_advance test l l' before after c c'
  rw [h] at hadv
  omega

/-- A step of a call that passes a test before it only if it passes it after it. -/
theorem tally_le_advance (before after : List Progress) {c c' : Progress}
    (h : test c = true → test c' = true) :
    tally test ⟨l, before ++ c :: after⟩ ≤ tally test ⟨l', before ++ c' :: after⟩ := by
  have hadv := tally_advance test l l' before after c c'
  have hle : (test c).toNat ≤ (test c').toNat := by
    cases hc : test c with
    | false => exact Nat.zero_le _
    | true => exact Nat.le_of_eq (congrArg Bool.toNat (h hc)).symm
  omega

variable {test}

theorem tally_le {test' : Progress → Bool} (σ : System)
    (h : ∀ c ∈ σ.calls, test c = true → test' c = true) : σ.tally test ≤ σ.tally test' :=
  List.countP_mono_left h

theorem tally_le_add {test₁ test₂ : Progress → Bool} (σ : System)
    (h : ∀ c ∈ σ.calls, test c = true → test₁ c = true ∨ test₂ c = true) :
    σ.tally test ≤ σ.tally test₁ + σ.tally test₂ := by
  unfold tally
  revert h
  induction σ.calls with
  | nil => simp
  | cons c calls ih =>
      intro h
      have hrest := ih fun d hd => h d (List.mem_cons_of_mem c hd)
      have hc := h c List.mem_cons_self
      have hone : (test c).toNat ≤ (test₁ c).toNat + (test₂ c).toNat := by
        cases ht : test c with
        | false => exact Nat.zero_le _
        | true =>
            rcases hc ht with h₁ | h₂
            · rw [h₁]
              exact Nat.le_add_right _ _
            · rw [h₂]
              exact Nat.le_add_left _ _
      rw [countP_cons_toNat, countP_cons_toNat, countP_cons_toNat]
      omega

end

end System

namespace System

/-! ## Two calls that overlap -/

section

variable {l l₁ l₂ : Ledger} {limits : Limits} {now : Int64} {s : Submission} {request : Admitted}

/-- A call may go on by any execution of what is left of it that the ledger serves. -/
theorem Run.advance (before after : List Progress) {c : Progress} {es : List Exchange}
    {rest : Procedure (Except Refusal Grant)} {earlier : List System}
    (h : Run l ⟨l₁, before ++ c :: after⟩ earlier) (hr : c.rest.Reaches es rest)
    (hs : l₁.Serves es l₂) :
    ∃ earlier', Run l ⟨l₂, before ++ ⟨c.trace ++ es, rest⟩ :: after⟩ earlier' := by
  obtain ⟨trace, p⟩ := c
  dsimp only at hr ⊢
  induction hr generalizing trace l₁ earlier with
  | refl p =>
      obtain rfl : l₂ = l₁ := hs
      rw [List.append_nil]
      exact ⟨earlier, h⟩
  | @head p q r es fs hstep hreach ih =>
      -- the ledger serves the step first and the rest of the execution afterwards
      obtain ⟨l', hes, hfs⟩ := Ledger.serves_append.1 hs
      obtain ⟨earlier', h'⟩ := ih hfs _ (h.step (.advance before after hstep hes))
      rw [List.append_assoc] at h'
      exact ⟨earlier', h'⟩

/-- Calls are never removed. -/
theorem Run.length_calls {σ : System} {earlier : List System} (h : Run l σ earlier) :
    ∀ τ ∈ σ :: earlier, τ.calls.length ≤ σ.calls.length := by
  induction h with
  | start => simp
  | @step σ σ' earlier h hs ih =>
      have hle : σ.calls.length ≤ σ'.calls.length := by
        cases hs with
        | arrive l calls limits now s => simp
        | advance before after hs hl => simp
      intro τ hτ
      rcases List.mem_cons.1 hτ with rfl | hτ
      · exact Nat.le_refl _
      · exact Nat.le_trans (ih τ hτ) hle

/-- The exchanges up to the lookup of a request that is new, of an account without queries. -/
def readsOfNew (s : Submission) (request : Admitted) (total : Int64) (share : KeyShare)
    (signature : PartialSignature) : List Exchange :=
  [⟨.authenticate request s.body s.authorization, true⟩,
    ⟨.readQuota request.account request.phoneHash, .ok ⟨0, total⟩⟩, ⟨.readHeight, .ok 0⟩,
    ⟨.loadKey, .ok share⟩, ⟨.sign request.query share, .ok signature⟩,
    ⟨.findRecord request.fingerprint, .ok false⟩]

/-- The exchanges that enter a request. -/
def writesOfNew (request : Admitted) : List Exchange :=
  [⟨.addRecord request, .ok ()⟩, ⟨.addCount request.account, .ok ()⟩]

theorem exists_yields_of_new
    (hs : Admitted.ofRequest limits now s.body.length s.request = .ok request) {total : Int64}
    (ht : 0 < total) (share : KeyShare) (signature : PartialSignature) :
    ∃ g, (Signing.procedure limits now s).Yields
      (readsOfNew s request total share signature ++ writesOfNew request) (.ok g) := by
  have hq : (Except.ok ⟨0, total⟩ : Except QuotaFault Quota).toOption.any Quota.isExhausted =
      false := by
    refine decide_eq_false ?_
    rw [Int64.not_le]
    exact ht
  have hfound : (Except.ok false : Except StoreFault Bool) ≠ .ok true := by simp
  have hw : Signing.Writes request (.ok ()) (.ok ()) (writesOfNew request) := .inl rfl
  have hc : Signing.Completion request (.ok ⟨0, total⟩) (.ok 0) _ _ :=
    .entered share signature hfound hw
  exact ⟨_, (Signing.Transcript.passed hs (.inl rfl) hq hc).yields⟩

theorem serves_readsOfNew (total : Int64) (share : KeyShare) (signature : PartialSignature) :
    Ledger.Serves .empty (readsOfNew s request total share signature) .empty :=
  ⟨trivial, _, rfl, rfl, _, rfl, trivial, _, rfl, trivial, _, rfl, trivial, _, rfl, rfl, _, rfl,
    rfl⟩

theorem exists_serves_writesOfNew (l : Ledger) (request : Admitted)
    (hl : (l.count request.account).toInt < Int64.maxValue.toInt) :
    ∃ l', l.Serves (writesOfNew request) l' ∧
      (l'.count request.account).toInt = (l.count request.account).toInt + 1 := by
  obtain ⟨l', hi⟩ := Ledger.exists_increment? (l := l.addRecord request.fingerprint
    (Deployment.recordOf request ⟨0⟩)) (Int64.lt_iff_toInt_lt.2 hl)
  have hone := Ledger.toInt_count_increment? hi
  rw [Ledger.count_addRecord] at hone
  exact ⟨l', ⟨trivial, _, ⟨⟨0⟩, rfl⟩, trivial, l', hi, rfl⟩, hone⟩

/-- Two calls of one request that is new, both of which were granted. -/
def twice (s : Submission) (request : Admitted) (total : Int64) (share : KeyShare)
    (signature : PartialSignature) (g : Grant) (l : Ledger) : System :=
  let c : Progress :=
    ⟨readsOfNew s request total share signature ++ writesOfNew request, .finish (.ok g)⟩
  ⟨l, [c, c]⟩

/-- Two calls of one request, each of which looks for its record before the other makes it, are both
counted. -/
theorem exists_run_overlap
    (hs : Admitted.ofRequest limits now s.body.length s.request = .ok request) (total : Int64)
    (ht : 0 < total) (share : KeyShare) (signature : PartialSignature) :
    ∃ g l₂ earlier, Run .empty (twice s request total share signature g l₂) earlier ∧
      (l₂.count request.account).toInt = 2 := by
  obtain ⟨g, hy⟩ := exists_yields_of_new hs ht share signature
  obtain ⟨rest, hreads, hwrites⟩ := Procedure.Reaches.split hy rfl
  have hempty : (Ledger.empty.count request.account).toInt = 0 := rfl
  have hmax : (1 : Int) < Int64.maxValue.toInt := by decide
  obtain ⟨l₁, hl₁, hcount₁⟩ := exists_serves_writesOfNew .empty request (by omega)
  obtain ⟨l₂, hl₂, hcount₂⟩ := exists_serves_writesOfNew l₁ request (by omega)
  -- both calls read before the first of them writes
  have h₀ : Run .empty ⟨.empty, [] ++ Progress.begun limits now s ::
      [Progress.begun limits now s]⟩ _ :=
    (Run.start.step (.arrive _ _ limits now s)).step (.arrive _ _ limits now s)
  obtain ⟨_, h₁⟩ := h₀.advance [] [_] hreads (serves_readsOfNew total share signature)
  obtain ⟨_, h₂⟩ := Run.advance [_] [] h₁ hreads
    (serves_readsOfNew total share signature)
  obtain ⟨_, h₃⟩ := Run.advance [] [_] h₂ hwrites hl₁
  obtain ⟨_, h₄⟩ := Run.advance [_] [] h₃ hwrites hl₂
  exact ⟨g, l₂, _, h₄, by omega⟩

end

end System

end BlindSign

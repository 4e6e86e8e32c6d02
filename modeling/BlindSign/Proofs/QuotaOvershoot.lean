import BlindSign.Proofs.Interleaving

set_option autoImplicit false

/-! # How far a count may pass its quota

Between the reading of the quota and the counting of the query other calls of the account may have
been counted. So a count may pass the quota, by one less than the number of calls of the account
that are in flight at a time; calls whose quota could not be read may add one each.

The invariant weighs the calls that have passed the gate and have not counted (`isPending`): their
number and the count together stay within the bound.
-/

namespace BlindSign

/-! ## Counts -/

section

variable {e : Exchange} {l l' : Ledger}

/-- Only counting changes counts. -/
theorem Exchange.Moves.count_eq (h : e.Moves l l') (hc : e.counts = false) (account : Account) :
    l'.count account = l.count account := by
  obtain ⟨call, reply⟩ := e
  cases call with
  | addCount a => cases hc
  | addRecord request =>
      cases reply with
      | error fault =>
          obtain rfl : l' = l := h
          rfl
      | ok u =>
          obtain ⟨now, rfl⟩ := h
          rfl
  | _ =>
      obtain rfl : l' = l := h
      rfl

/-- Counting a query adds at most one to the count of its account and nothing to any other. -/
theorem Exchange.Moves.count_addCount {a : Account} {reply : Except StoreFault Unit}
    (h : Exchange.Moves ⟨.addCount a, reply⟩ l l') (account : Account) :
    (l.count account).toInt ≤ (l'.count account).toInt ∧
      (l'.count account).toInt ≤ (l.count account).toInt + if account = a then 1 else 0 := by
  cases reply with
  | error fault =>
      obtain rfl : l' = l := h
      split <;> omega
  | ok u =>
      have hi : l.increment? a = some l' := h
      by_cases ha : account = a
      · subst ha
        have hone := Ledger.toInt_count_increment? hi
        simp only [if_true]
        omega
      · rw [Ledger.count_increment? hi, if_neg ha, if_neg ha]
        omega

/-- Counts never decrease. -/
theorem Exchange.Moves.le_count (h : e.Moves l l') (account : Account) :
    (l.count account).toInt ≤ (l'.count account).toInt := by
  cases hc : e.counts with
  | false => exact Int.le_of_eq (congrArg Int64.toInt (h.count_eq hc account)).symm
  | true =>
      obtain ⟨call, reply⟩ := e
      cases call with
      | addCount a => exact (h.count_addCount account).1
      | _ => cases hc

theorem Ledger.Serves.le_count {es : List Exchange} (h : l.Serves es l') (account : Account) :
    (l.count account).toInt ≤ (l'.count account).toInt := by
  induction es generalizing l with
  | nil =>
      obtain rfl : l' = l := h
      omega
  | cons e es ih =>
      obtain ⟨_, l₁, hm, hs⟩ := h
      exact Int.le_trans (hm.le_count account) (ih hs)

end

/-- Along a run counts never decrease. -/
theorem System.Run.le_count {l : Ledger} {σ : System} {earlier : List System}
    (h : Run l σ earlier) (account : Account) :
    ∀ τ ∈ σ :: earlier, (τ.ledger.count account).toInt ≤ (σ.ledger.count account).toInt := by
  induction h with
  | start => simp
  | @step σ σ' earlier h hs ih =>
      have hle : (σ.ledger.count account).toInt ≤ (σ'.ledger.count account).toInt := by
        cases hs with
        | arrive l calls limits now s => exact Int.le_refl _
        | advance before after hs hl => exact hl.le_count account
      intro τ hτ
      rcases List.mem_cons.1 hτ with rfl | hτ
      · exact Int.le_refl _
      · exact Int.le_trans (ih τ hτ) hle

/-! ## Who may count -/

namespace Exchange

/-- The quota of an account was asked for. -/
def asksQuotaOf (account : Account) : Exchange → Bool
  | ⟨.readQuota a _, _⟩ => decide (a = account)
  | _ => false

/-- The quota of an account was asked for and could not be read. -/
def lacksQuotaOf (account : Account) : Exchange → Bool
  | ⟨.readQuota a _, .error _⟩ => decide (a = account)
  | _ => false

/-- Who passes the gate of an account has asked for its quota. -/
theorem entitles_iff {e : Exchange} {account : Account} :
    e.entitles account = true ↔
      ∃ phoneHash reply, e = ⟨.readQuota account phoneHash, reply⟩ ∧
        reply.toOption.any Quota.isExhausted = false := by
  constructor
  · intro h
    obtain ⟨call, reply⟩ := e
    cases call with
    | readQuota a phoneHash =>
        simp only [entitles, Bool.and_eq_true, decide_eq_true_eq, Bool.not_eq_true'] at h
        obtain ⟨rfl, hq⟩ := h
        exact ⟨phoneHash, reply, rfl, hq⟩
    | _ => cases h
  · rintro ⟨phoneHash, reply, rfl, hq⟩
    simp [entitles, hq]

theorem asksQuota_of_lacksQuotaOf {e : Exchange} {account : Account}
    (h : e.lacksQuotaOf account = true) : e.asksQuota = true := by
  obtain ⟨call, reply⟩ := e
  cases call with
  | readQuota a phoneHash => rfl
  | _ => cases h

end Exchange

namespace Progress

/-- Whether a call has asked for the quota of an account and has not returned. -/
def isInFlight (account : Account) (c : Progress) : Bool :=
  c.isRunning && c.trace.any (Exchange.asksQuotaOf account)

/-- Whether a call could not read the quota of an account. -/
def lacksQuota (account : Account) (c : Progress) : Bool :=
  c.trace.any (Exchange.lacksQuotaOf account)

/-- Whether a call has passed the gate of an account and has not counted. -/
def isPending (account : Account) (c : Progress) : Bool :=
  c.isRunning && (c.trace.any (Exchange.entitles account) && !c.trace.any Exchange.counts)

section

variable {account : Account} {c : Progress}

/-- What is pending is in flight. -/
theorem isInFlight_of_isPending (h : c.isPending account = true) :
    c.isInFlight account = true := by
  simp only [isPending, Bool.and_eq_true, List.any_eq_true] at h
  obtain ⟨hr, ⟨e, he, hp⟩, _⟩ := h
  simp only [isInFlight, Bool.and_eq_true, List.any_eq_true]
  obtain ⟨phoneHash, reply, rfl, _⟩ := Exchange.entitles_iff.1 hp
  exact ⟨hr, _, he, decide_eq_true rfl⟩

/-- A call passes the gate only by asking for the quota. -/
theorem isPending_eq_false (h : c.trace.any Exchange.asksQuota = false) :
    c.isPending account = false := by
  have hno : c.trace.any (Exchange.entitles account) = false := by
    rw [List.any_eq_false] at h ⊢
    intro e he hp
    obtain ⟨phoneHash, reply, rfl, _⟩ := Exchange.entitles_iff.1 hp
    exact h _ he rfl
  simp [isPending, hno]

theorem lacksQuota_eq_false (h : c.trace.any Exchange.asksQuota = false) :
    c.lacksQuota account = false := by
  unfold lacksQuota
  rw [List.any_eq_false] at h ⊢
  intro e he hl
  exact h e he (Exchange.asksQuota_of_lacksQuotaOf hl)

variable {c' : Progress} {e : Exchange}

/-- An exchange that does not pass the gate leaves a call at most as pending. -/
theorem isPending_of_append (hc : c'.trace = c.trace ++ [e]) (hr : c.isRunning = true)
    (he : e.entitles account = false) (h : c'.isPending account = true) :
    c.isPending account = true := by
  simp only [isPending, hc, List.any_append, Bool.and_eq_true, Bool.not_eq_true',
    Bool.or_eq_false_iff, List.any_cons, List.any_nil, he, Bool.or_false] at h ⊢
  exact ⟨hr, h.2.1, h.2.2.1⟩

/-- Who has counted is not pending. -/
theorem isPending_of_counts (hc : c'.trace = c.trace ++ [e]) (he : e.counts = true) :
    c'.isPending account = false := by
  simp [isPending, hc, he]

theorem lacksQuota_append (hc : c'.trace = c.trace ++ [e]) :
    c'.lacksQuota account = (c.lacksQuota account || e.lacksQuotaOf account) := by
  simp [lacksQuota, hc]

/-- Who lacks the quota goes on to lack it. -/
theorem lacksQuota_of_append (hc : c'.trace = c.trace ++ [e]) (h : c.lacksQuota account = true) :
    c'.lacksQuota account = true := by
  rw [lacksQuota_append hc, h, Bool.true_or]

end

end Progress

namespace System

/-- All totals that the calls of a system have read for an account are at most `total`. -/
def ReadsAtMost (account : Account) (total : Int) (σ : System) : Prop :=
  ∀ c ∈ σ.calls, ∀ phoneHash quota,
    (⟨.readQuota account phoneHash, .ok quota⟩ : Exchange) ∈ c.trace → quota.total.toInt ≤ total

/-- What has been read stays read. -/
theorem Step.readsAtMost {σ σ' : System} {account : Account} {total : Int} (h : Step σ σ')
    (ht : σ'.ReadsAtMost account total) : σ.ReadsAtMost account total := by
  intro d hd phoneHash quota he
  cases h with
  | arrive l calls limits now s => exact ht d (by simp [show d ∈ calls from hd]) phoneHash quota he
  | @advance l l' before c after es rest hs hl =>
      rcases List.mem_append.1 hd with hd | hd
      · exact ht d (by simp [hd]) phoneHash quota he
      · rcases List.mem_cons.1 hd with rfl | hd
        · exact ht ⟨d.trace ++ es, rest⟩ (by simp) phoneHash quota (by simp [he])
        · exact ht d (by simp [hd]) phoneHash quota he

theorem Run.readsAtMost {l : Ledger} {σ : System} {earlier : List System} {account : Account}
    {total : Int} (h : Run l σ earlier) (ht : σ.ReadsAtMost account total) :
    ∀ τ ∈ σ :: earlier, τ.ReadsAtMost account total := by
  induction h with
  | start =>
      intro τ hτ
      obtain rfl := List.mem_singleton.1 hτ
      exact ht
  | step h hs ih =>
      intro τ hτ
      rcases List.mem_cons.1 hτ with rfl | hτ
      · exact ht
      · exact ih (hs.readsAtMost ht) τ hτ

theorem readsAtMost_twice (s : Submission) (request : Admitted) (total : Int64) (share : KeyShare)
    (signature : PartialSignature) (g : Grant) (l : Ledger) :
    ReadsAtMost request.account total.toInt (twice s request total share signature g l) := by
  intro c hc phoneHash quota he
  have htrace : c.trace = readsOfNew s request total share signature ++ writesOfNew request := by
    simp only [twice, List.mem_cons, List.not_mem_nil, or_false, or_self] at hc
    rw [hc]
  rw [htrace] at he
  have hquota : phoneHash = request.phoneHash ∧ quota = ⟨0, total⟩ := by
    simpa [readsOfNew, writesOfNew] using he
  obtain ⟨_, rfl⟩ := hquota
  exact Int.le_refl _

/-! ## The invariant -/

/-- The count of an account and the calls that have passed its gate and have not counted stay within
a bound, if the calls that lack the quota are left out. -/
def Within (account : Account) (bound : Int) (σ : System) : Prop :=
  (σ.ledger.count account).toInt + σ.tally (Progress.isPending account) ≤
    bound + σ.tally (Progress.lacksQuota account)

section

variable {account : Account} {bound total : Int} {k : Nat} {l l' : Ledger}
  {before after : List Progress} {c c' : Progress} {e : Exchange}

/-- Who passes the gate has seen a count below the total, or lacks the quota. -/
theorem Within.entitled (h : Within account bound ⟨l, before ++ c :: after⟩)
    (hb : total + k - 1 ≤ bound) (hc : Makes l l' c c' e) (he : e.entitles account = true)
    (ht : ReadsAtMost account total ⟨l', before ++ c' :: after⟩)
    (hk : tally (Progress.isInFlight account) ⟨l', before ++ c' :: after⟩ ≤ k) :
    Within account bound ⟨l', before ++ c' :: after⟩ := by
  obtain ⟨phoneHash, reply, rfl, hq⟩ := Exchange.entitles_iff.1 he
  have hasks : c.trace.any Exchange.asksQuota = false := hc.permitted
  obtain rfl : l' = l := hc.moves
  have hpend := tally_advance (Progress.isPending account) l' l' before after c c'
  have hlack := tally_advance (Progress.lacksQuota account) l' l' before after c c'
  rw [Progress.isPending_eq_false hasks, Bool.toNat_false] at hpend
  rw [Progress.lacksQuota_append hc.trace, Progress.lacksQuota_eq_false hasks, Bool.false_or,
    Bool.toNat_false] at hlack
  simp only [Within] at h ⊢
  cases reply with
  | error fault =>
      -- the call may count without having seen the quota, but it is one more that lacks it
      have hone : (c'.isPending account).toNat ≤ 1 := Bool.toNat_le _
      have hlacks : Exchange.lacksQuotaOf account ⟨.readQuota account phoneHash, .error fault⟩ =
          true := decide_eq_true rfl
      rw [hlacks, Bool.toNat_true] at hlack
      omega
  | ok quota =>
      -- the call has just seen a count below the total, and at most `k` calls are pending
      have hleft : ¬ quota.total ≤ quota.performed := of_decide_eq_false hq
      have hread : quota.performed = l'.count account := hc.truthful
      rw [Int64.le_iff_toInt_le, hread] at hleft
      have htotal : quota.total.toInt ≤ total :=
        ht c' (by simp) phoneHash quota (by simp [hc.trace])
      have hfly : tally (Progress.isPending account) ⟨l', before ++ c' :: after⟩ ≤ k :=
        Nat.le_trans (tally_le _ fun c _ => Progress.isInFlight_of_isPending) hk
      omega

/-- Who counts was pending and is no longer. -/
theorem Within.counted (h : Within account bound ⟨l, before ++ c :: after⟩)
    (hc : Makes l l' c c' e) (he : e.counts = true) :
    Within account bound ⟨l', before ++ c' :: after⟩ := by
  have hpend := tally_advance (Progress.isPending account) l l' before after c c'
  have hlack := tally_le_advance (Progress.lacksQuota account) l l' before after
    (Progress.lacksQuota_of_append hc.trace)
  rw [Progress.isPending_of_counts hc.trace he, Bool.toNat_false] at hpend
  obtain ⟨call, reply⟩ := e
  cases call with
  | addCount a =>
      obtain ⟨hpass, _, hnot⟩ := hc.permitted
      have hcount := (hc.moves.count_addCount account).2
      simp only [Within] at h ⊢
      by_cases ha : account = a
      · subst ha
        -- the call gives up its place among those pending for the query that it counts
        have hpending : c.isPending account = true := by
          simp [Progress.isPending, hc.running, hpass, hnot]
        rw [hpending, Bool.toNat_true] at hpend
        rw [if_pos rfl] at hcount
        omega
      · rw [if_neg ha] at hcount
        omega
  | _ => cases he

/-- An exchange that neither passes the gate nor counts makes no more calls pending. -/
theorem Within.other (h : Within account bound ⟨l, before ++ c :: after⟩)
    (hc : Makes l l' c c' e) (he : e.entitles account = false) (hn : e.counts = false) :
    Within account bound ⟨l', before ++ c' :: after⟩ := by
  have hpend := tally_le_advance (Progress.isPending account) l' l before after
    (Progress.isPending_of_append hc.trace hc.running he)
  have hlack := tally_le_advance (Progress.lacksQuota account) l l' before after
    (Progress.lacksQuota_of_append hc.trace)
  have hcount := hc.moves.count_eq hn account
  simp only [Within] at h ⊢
  rw [hcount]
  omega

/-- A step that makes no exchange makes no more calls pending. -/
theorem Within.silent (h : Within account bound ⟨l, before ++ c :: after⟩)
    (hc : c'.trace = c.trace) (hr : c.isRunning = true) :
    Within account bound ⟨l, before ++ c' :: after⟩ := by
  have hwas : c'.isPending account = true → c.isPending account = true := by
    intro h
    simp only [Progress.isPending, hc, Bool.and_eq_true] at h ⊢
    exact ⟨hr, h.2⟩
  have hstill : c.lacksQuota account = true → c'.lacksQuota account = true := by
    intro h
    simpa only [Progress.lacksQuota, hc] using h
  have hpend := tally_le_advance (Progress.isPending account) l l before after hwas
  have hlack := tally_le_advance (Progress.lacksQuota account) l l before after hstill
  simp only [Within] at h ⊢
  omega

/-- The invariant holds along every run. -/
theorem Run.within {σ : System} {earlier : List System} (h : Run l σ earlier)
    (hi : (l.count account).toInt ≤ bound) (hb : total + k - 1 ≤ bound)
    (ht : σ.ReadsAtMost account total)
    (hk : ∀ τ ∈ σ :: earlier, τ.tally (Progress.isInFlight account) ≤ k) :
    σ.Within account bound := by
  have hknown : ∀ τ ∈ σ :: earlier, τ.ReadsAtMost account total ∧
      τ.tally (Progress.isInFlight account) ≤ k :=
    fun τ hτ => ⟨h.readsAtMost ht τ hτ, hk τ hτ⟩
  refine h.induct ?_ ?_ ?_ ?_ hknown
  · show (l.count account).toInt + 0 ≤ bound + 0
    omega
  · intro l calls limits now s hw
    simp only [Within] at hw ⊢
    rw [tally_arrive _ l l calls (Progress.isPending_eq_false rfl),
      tally_arrive _ l l calls (Progress.lacksQuota_eq_false rfl)]
    exact hw
  · intro l before c c' after hr hc hw
    exact hw.silent hc hr
  · intro l l' before c c' after e hc hknown hw
    -- an exchange can admit a call, count a query, or do neither
    cases he : e.entitles account with
    | true => exact hw.entitled hb hc he hknown.1 hknown.2
    | false =>
        cases hn : e.counts with
        | true => exact hw.counted hc hn
        | false => exact hw.other hc he hn

/-- **Bounded overshoot.** Whatever the order in which calls make their steps, the count of an
account never passes its initial value, or the greatest total read plus the number of calls of the
account in flight at a time less one, by more than the number of calls that could not read the
quota. Calls that do not overlap and can read the quota never pass the initial value or the
greatest total. -/
theorem count_le_of_run {σ : System} {earlier : List System} (h : Run l σ earlier)
    (ht : σ.ReadsAtMost account total) :
    (∀ k : Nat, (∀ τ ∈ σ :: earlier, τ.tally (Progress.isInFlight account) ≤ k) →
      ∀ τ ∈ σ :: earlier, (τ.ledger.count account).toInt ≤
        max (l.count account).toInt (total + k - 1) + σ.tally (Progress.lacksQuota account)) ∧
    ((∀ τ ∈ σ :: earlier, τ.tally Progress.isRunning ≤ 1) →
      σ.tally (Progress.lacksQuota account) = 0 →
      ∀ τ ∈ σ :: earlier,
        (τ.ledger.count account).toInt ≤ max (l.count account).toInt total) := by
  have hbound : ∀ k : Nat,
      (∀ τ ∈ σ :: earlier, τ.tally (Progress.isInFlight account) ≤ k) →
      ∀ τ ∈ σ :: earlier, (τ.ledger.count account).toInt ≤
        max (l.count account).toInt (total + k - 1) + σ.tally (Progress.lacksQuota account) := by
    intro k hk τ hτ
    have hw : σ.Within account (max (l.count account).toInt (total + k - 1)) :=
      h.within (by omega) (by omega) ht hk
    have hle := h.le_count account τ hτ
    unfold Within at hw
    omega
  refine ⟨hbound, fun hone hzero τ hτ => ?_⟩
  -- calls that do not overlap are in flight one at a time
  have hfly : ∀ τ ∈ σ :: earlier, τ.tally (Progress.isInFlight account) ≤ 1 := by
    intro τ hτ
    refine Nat.le_trans (tally_le τ fun c _ hc => ?_) (hone τ hτ)
    simp only [Progress.isInFlight, Bool.and_eq_true] at hc
    exact hc.1
  have hmax := hbound 1 hfly τ hτ
  omega

end

/-! ## The bound is attained -/

/-- Two calls that overlap pass a quota of one. -/
theorem count_le_of_overlap :
    ∃ (account : Account) (σ : System) (earlier : List System), Run .empty σ earlier ∧
      σ.ReadsAtMost account 1 ∧
      (∀ τ ∈ σ :: earlier, τ.tally (Progress.isInFlight account) ≤ 2) ∧
      σ.tally (Progress.lacksQuota account) = 0 ∧
      (σ.ledger.count account).toInt = 2 ∧
      (σ.ledger.count account).toInt ≤
        max (Ledger.empty.count account).toInt (1 + (2 : Nat) - 1) +
          σ.tally (Progress.lacksQuota account) := by
  obtain ⟨request, hs⟩ := Deployment.exists_rehearsed_admitted
  obtain ⟨g, l, earlier, hrun, hcount⟩ := exists_run_overlap hs 1 (by decide)
    ⟨List.replicate 32 1, rfl⟩ ⟨"signature"⟩
  have hread := readsAtMost_twice Deployment.rehearsedSubmission request 1
    ⟨List.replicate 32 1, rfl⟩ ⟨"signature"⟩ g l
  have htwo : ∀ τ ∈ _ :: earlier, τ.tally (Progress.isInFlight request.account) ≤ 2 :=
    fun τ hτ => Nat.le_trans List.countP_le_length (hrun.length_calls τ hτ)
  exact ⟨request.account, _, earlier, hrun, hread, htwo, rfl, hcount,
    (count_le_of_run hrun hread).1 2 htwo _ List.mem_cons_self⟩

end System

end BlindSign

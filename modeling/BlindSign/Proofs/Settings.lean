import Mathlib.Logic.Function.Basic
import BlindSign.Proofs.Admission
import BlindSign.Proofs.Variables

set_option autoImplicit false

/-! # Settings and their texts

A choice of settings is a value for each variable, with what the service demands of them (`Choices`).

**The settings are those of a choice just if the environment gives this choice**
(`load_eq_ok_iff`). So a choice is loaded from its texts, a variable that is left out changes nothing
but its own setting, and without an overflow there are only four reasons for which nothing is loaded
(`load_reads_choices`).

The seconds of the retention are the one product that is computed. It is not checked: a number of
days whose seconds do not fit into 64 bits is read like any other and then overflows, or, in a
release, wraps around (`load_overflow_iff`).
-/

namespace BlindSign.Settings

variable {build : Build} {env env' : Environment}

/-! ## Choices -/

def keyShareName : String := "SIGNER_KEY_SHARE"

/-- A build takes a number of days: in development their seconds must fit into 64 bits. -/
def TakesDays (build : Build) (days : UInt64) : Prop :=
  build = .development → days.toNat * 86400 < UInt64.size

/-- A choice of settings. -/
structure Choices (build : Build) where
  databaseUrl : String
  chainUrl : String
  keyShare : Option String
  /-- The values of the variables that have a default. -/
  value : (t : Variable) → t.Value
  databaseUrl_visible : Text.isAllBlank databaseUrl = false
  chainUrl_visible : Text.isAllBlank chainUrl = false
  keyShare_visible : ∀ share ∈ keyShare, Text.isAllBlank share = false
  maxRequestBytes_ne_zero : value .maxRequestBytes ≠ 0
  takesDays : TakesDays build (value .retentionDays)
  minBalance_lt : value .minBalance < Nat.pow 2 128

namespace Choices

variable (c : Choices build)

def settings : Settings where
  databaseUrl := c.databaseUrl
  databaseMaxConnections := c.value .databaseMaxConnections
  chainUrl := c.chainUrl
  chainTimeout := c.value .chainTimeout
  keyShare := c.keyShare
  bindAddress := c.value .bindAddress
  config := ⟨c.value .maxRequestBytes, .ofSeconds (c.value .timestampWindow),
    .ofSeconds (c.value .retentionDays * 86400)⟩
  policy := ⟨c.value .quotaBase, c.value .perTransaction, c.value .minBalance⟩

/-- An environment gives a choice. -/
structure AreGivenBy (env : Environment) : Prop where
  databaseUrl : env "DATABASE_URL" = some c.databaseUrl
  chainUrl : env "CHAIN_RPC_URL" = some c.chainUrl
  keyShare : present? env keyShareName = c.keyShare
  value : ∀ t : Variable, t.Gives build env (c.value t)

/-- A choice is written in an environment. -/
structure AreWrittenIn (env : Environment) : Prop where
  databaseUrl : env "DATABASE_URL" = some c.databaseUrl
  chainUrl : env "CHAIN_RPC_URL" = some c.chainUrl
  keyShare : env keyShareName = c.keyShare ∨ IsUnset env keyShareName ∧ c.keyShare = none
  value : ∀ t : Variable, t.IsWrittenIn build env (c.value t)

/-- Every value that is chosen has a text. -/
theorem fits (t : Variable) : t.format.Fits (c.value t) := by
  have huint64 : ∀ a : UInt64, uint64.format.Fits a := fun a =>
    Numeral.contains_unsigned_iff.2 ⟨a.toNat, rfl, a.toNat_lt⟩
  have hint64 : ∀ a : Int64, int64.format.Fits a := fun a =>
    Numeral.contains_iff.2 ⟨a.le_toInt, Int.le_sub_one_of_lt a.toInt_lt⟩
  cases t with
  | maxRequestBytes | timestampWindow | retentionDays | chainTimeout => exact huint64 _
  | databaseMaxConnections =>
      exact Numeral.contains_unsigned_iff.2 ⟨_, rfl, (c.value .databaseMaxConnections).toNat_lt⟩
  | bindAddress => exact trivial
  | quotaBase | perTransaction => exact hint64 _
  | minBalance => exact Numeral.contains_unsigned_iff.2 ⟨_, rfl, c.minBalance_lt⟩

theorem AreWrittenIn.areGivenBy {c : Choices build} (h : c.AreWrittenIn env) :
    c.AreGivenBy env where
  databaseUrl := h.databaseUrl
  chainUrl := h.chainUrl
  keyShare := by
    rcases h.keyShare with hset | ⟨hunset, hnone⟩
    · cases hshare : c.keyShare with
      | none =>
          rw [← isUnset_iff, IsUnset, hset, hshare]
          simp
      | some share =>
          exact present?_eq_some_iff.2 ⟨hset.trans hshare, c.keyShare_visible share hshare⟩
    · rw [isUnset_iff.1 hunset, hnone]
  value t := (h.value t).gives (c.fits t)

end Choices

/-! ## Loading -/

theorem toNat_mul_day_mod (days : UInt64) :
    (days * 86400).toNat = 86400 * days.toNat % UInt64.size := by
  have hday : (86400 : UInt64).toNat = 86400 := by decide
  rw [UInt64.toNat_mul, hday, Nat.mul_comm]

theorem retentionOf_of_takesDays {days : UInt64} (h : TakesDays build days) :
    retentionOf build days = .ok (.ofSeconds (days * 86400)) := by
  cases build with
  | development =>
      have hseconds : (days.toNat * 86400).toUInt64 = days * 86400 := by simp
      have hspan : Span.ofDays? days = some (.ofSeconds (days.toNat * 86400).toUInt64) :=
        if_pos (h rfl)
      rw [retentionOf, hspan, hseconds]
  | release => rfl

/-- Seconds that do not fit are an overflow in development. -/
theorem retentionOf_of_not_takesDays {days : UInt64} (h : ¬ TakesDays build days) :
    retentionOf build days = .error .retentionOverflow := by
  obtain ⟨rfl, hlt⟩ := Classical.not_imp.1 h
  have hspan : Span.ofDays? days = none := if_neg hlt
  rw [retentionOf, hspan]

theorem retentionOf_eq_ok_iff {days : UInt64} {span : Span} : retentionOf build days = .ok span ↔
    TakesDays build days ∧ span = .ofSeconds (days * 86400) := by
  by_cases h : TakesDays build days
  · rw [retentionOf_of_takesDays h]
    simp [h, eq_comm]
  · rw [retentionOf_of_not_takesDays h]
    simp [h]

theorem retentionOf_eq_overflow_iff {days : UInt64} :
    retentionOf build days = .error .retentionOverflow ↔ ¬ TakesDays build days := by
  by_cases h : TakesDays build days
  · rw [retentionOf_of_takesDays h]
    simp [h]
  · rw [retentionOf_of_not_takesDays h]
    simp [h]

theorem requiredText_eq_ok_iff {name value : String} : requiredText env name = .ok value ↔
    env name = some value ∧ Text.isAllBlank value = false := by
  rw [← present?_eq_some_iff, requiredText]
  cases present? env name with
  | none => simp
  | some value' => simp

theorem standard_retentionDays (build : Build) :
    (Config.ofBuild build).retention.seconds / 86400 = Variable.retentionDays.standard build := by
  cases build with
  | _ => decide

/-- How settings are loaded, variable by variable. -/
theorem load_eq (build : Build) (env : Environment) : loadFor build env = (do
    let maxRequestBytes ← Variable.maxRequestBytes.read build env
    let windowSeconds ← Variable.timestampWindow.read build env
    let days ← Variable.retentionDays.read build env
    let retention ← retentionOf build days
    if maxRequestBytes = 0 then .error .noRequestBytes
    else
      let databaseUrl ← requiredText env "DATABASE_URL"
      let databaseMaxConnections ← Variable.databaseMaxConnections.read build env
      let chainUrl ← requiredText env "CHAIN_RPC_URL"
      let chainTimeout ← Variable.chainTimeout.read build env
      let bindAddress ← Variable.bindAddress.read build env
      let quotaBase ← Variable.quotaBase.read build env
      let perTransaction ← Variable.perTransaction.read build env
      let minBalance ← Variable.minBalance.read build env
      .ok {
        databaseUrl
        databaseMaxConnections
        chainUrl
        chainTimeout
        keyShare := present? env keyShareName
        bindAddress
        config := ⟨maxRequestBytes, .ofSeconds windowSeconds, retention⟩
        policy := ⟨quotaBase, perTransaction, minBalance⟩ }) := by
  unfold loadFor
  dsimp only
  -- the default of the days is the only one that is computed
  rw [standard_retentionDays]
  cases build with
  | _ => rfl

/-- What a choice gives is loaded. -/
theorem load_of_areGivenBy {c : Choices build} (h : c.AreGivenBy env) :
    loadFor build env = .ok c.settings := by
  have hread : ∀ t : Variable, t.read build env = .ok (c.value t) := fun t =>
    Variable.read_eq_ok_iff.2 (h.value t)
  have hdatabase : requiredText env "DATABASE_URL" = .ok c.databaseUrl :=
    requiredText_eq_ok_iff.2 ⟨h.databaseUrl, c.databaseUrl_visible⟩
  have hchain : requiredText env "CHAIN_RPC_URL" = .ok c.chainUrl :=
    requiredText_eq_ok_iff.2 ⟨h.chainUrl, c.chainUrl_visible⟩
  have hretention := retentionOf_eq_ok_iff.2 ⟨c.takesDays, rfl⟩
  rw [load_eq]
  apply bind_eq_ok.2 ⟨_, hread .maxRequestBytes, _⟩
  apply bind_eq_ok.2 ⟨_, hread .timestampWindow, _⟩
  apply bind_eq_ok.2 ⟨_, hread .retentionDays, _⟩
  apply bind_eq_ok.2 ⟨_, hretention, _⟩
  rw [if_neg c.maxRequestBytes_ne_zero]
  apply bind_eq_ok.2 ⟨_, hdatabase, _⟩
  apply bind_eq_ok.2 ⟨_, hread .databaseMaxConnections, _⟩
  apply bind_eq_ok.2 ⟨_, hchain, _⟩
  apply bind_eq_ok.2 ⟨_, hread .chainTimeout, _⟩
  apply bind_eq_ok.2 ⟨_, hread .bindAddress, _⟩
  apply bind_eq_ok.2 ⟨_, hread .quotaBase, _⟩
  apply bind_eq_ok.2 ⟨_, hread .perTransaction, _⟩
  apply bind_eq_ok.2 ⟨_, hread .minBalance, _⟩
  rw [h.keyShare]
  rfl

/-- Nothing in an environment keeps the settings from being loaded. -/
structure IsComplete (build : Build) (env : Environment) : Prop where
  readable : ∀ t : Variable, ¬ t.IsUnreadable env
  maxRequestBytes : ¬ Variable.maxRequestBytes.Gives build env (0 : UInt64)
  retention : ∀ days : UInt64, Variable.retentionDays.Gives build env days → TakesDays build days
  databaseUrl : ¬ IsUnset env "DATABASE_URL"
  chainUrl : ¬ IsUnset env "CHAIN_RPC_URL"

theorem isComplete_of_load {s : Settings} (h : loadFor build env = .ok s) :
    IsComplete build env := by
  rw [load_eq] at h
  obtain ⟨maxRequestBytes, hmax, h⟩ := bind_eq_ok.1 h
  obtain ⟨windowSeconds, hwindow, h⟩ := bind_eq_ok.1 h
  obtain ⟨days, hdays, h⟩ := bind_eq_ok.1 h
  obtain ⟨retention, hretention, h⟩ := bind_eq_ok.1 h
  by_cases hzero : maxRequestBytes = 0
  · rw [if_pos hzero] at h
    cases h
  · rw [if_neg hzero] at h
    obtain ⟨databaseUrl, hdatabase, h⟩ := bind_eq_ok.1 h
    obtain ⟨databaseMaxConnections, hconnections, h⟩ := bind_eq_ok.1 h
    obtain ⟨chainUrl, hchain, h⟩ := bind_eq_ok.1 h
    obtain ⟨chainTimeout, htimeout, h⟩ := bind_eq_ok.1 h
    obtain ⟨bindAddress, hbind, h⟩ := bind_eq_ok.1 h
    obtain ⟨quotaBase, hbase, h⟩ := bind_eq_ok.1 h
    obtain ⟨perTransaction, hper, h⟩ := bind_eq_ok.1 h
    obtain ⟨minBalance, hmin, h⟩ := bind_eq_ok.1 h
    -- whatever was read can be read, and it can be read as nothing else
    constructor
    case readable =>
      intro t
      rw [← Variable.exists_gives_iff build]
      simp only [← Variable.read_eq_ok_iff]
      cases t with
      | maxRequestBytes => exact ⟨_, hmax⟩
      | timestampWindow => exact ⟨_, hwindow⟩
      | retentionDays => exact ⟨_, hdays⟩
      | databaseMaxConnections => exact ⟨_, hconnections⟩
      | chainTimeout => exact ⟨_, htimeout⟩
      | bindAddress => exact ⟨_, hbind⟩
      | quotaBase => exact ⟨_, hbase⟩
      | perTransaction => exact ⟨_, hper⟩
      | minBalance => exact ⟨_, hmin⟩
    case maxRequestBytes =>
      intro hnone
      exact hzero (Variable.gives_unique (Variable.read_eq_ok_iff.1 hmax) hnone)
    case retention =>
      intro days' hdays'
      obtain rfl : days' = days := Variable.gives_unique hdays' (Variable.read_eq_ok_iff.1 hdays)
      exact (retentionOf_eq_ok_iff.1 hretention).1
    case databaseUrl => exact not_isUnset_iff.2 ⟨_, requiredText_eq_ok_iff.1 hdatabase⟩
    case chainUrl => exact not_isUnset_iff.2 ⟨_, requiredText_eq_ok_iff.1 hchain⟩

/-- An amount that an environment gives has at most 128 bits. -/
theorem minBalance_lt_of_gives {n : Nat} (h : Variable.minBalance.Gives build env n) :
    n < Nat.pow 2 128 := by
  obtain ⟨m, hm, hlt⟩ := Numeral.contains_unsigned_iff.1 h.fits
  rwa [Int.ofNat_inj.1 hm]

/-- Every complete environment gives a choice. -/
theorem exists_choices (h : IsComplete build env) : ∃ c : Choices build, c.AreGivenBy env := by
  obtain ⟨databaseUrl, hdatabase, hdatabaseVisible⟩ := not_isUnset_iff.1 h.databaseUrl
  obtain ⟨chainUrl, hchain, hchainVisible⟩ := not_isUnset_iff.1 h.chainUrl
  -- each variable can be read, and its value is taken; what is demanded of the values holds of
  -- whatever the environment gives
  choose value hvalue using fun t => (Variable.exists_gives_iff build).2 (h.readable t)
  have hmax : value .maxRequestBytes ≠ 0 := by
    intro hzero
    apply h.maxRequestBytes
    rw [← hzero]
    exact hvalue .maxRequestBytes
  exact ⟨{
    databaseUrl
    chainUrl
    keyShare := present? env keyShareName
    value
    databaseUrl_visible := hdatabaseVisible
    chainUrl_visible := hchainVisible
    keyShare_visible := fun _ hshare => (present?_eq_some_iff.1 hshare).2
    maxRequestBytes_ne_zero := hmax
    takesDays := h.retention _ (hvalue .retentionDays)
    minBalance_lt := minBalance_lt_of_gives (hvalue .minBalance)
  }, hdatabase, hchain, rfl, hvalue⟩

/-- **The settings that are loaded are those of a choice that the environment gives.** -/
theorem load_eq_ok_iff {s : Settings} :
    loadFor build env = .ok s ↔ ∃ c : Choices build, c.AreGivenBy env ∧ s = c.settings := by
  constructor
  · intro h
    obtain ⟨c, hc⟩ := exists_choices (isComplete_of_load h)
    exact ⟨c, hc, Except.ok.inj (h.symm.trans (load_of_areGivenBy hc))⟩
  · rintro ⟨c, hc, rfl⟩
    exact load_of_areGivenBy hc

/-- Settings are loaded just from the complete environments. -/
theorem exists_load_eq_ok_iff : (∃ s, loadFor build env = .ok s) ↔ IsComplete build env := by
  constructor
  · rintro ⟨s, h⟩
    exact isComplete_of_load h
  · intro h
    obtain ⟨c, hc⟩ := exists_choices h
    exact ⟨_, load_of_areGivenBy hc⟩

/-! ## Variables that are left out -/

/-- Two environments differ in one variable at most. -/
def AgreeExcept (name : String) (env env' : Environment) : Prop :=
  ∀ other, other ≠ name → env' other = env other

/-- Settings with the default for one variable. -/
def Variable.reset (build : Build) (s : Settings) : Variable → Settings
  | maxRequestBytes => { s with config.maxRequestBytes := 4096 }
  | timestampWindow => { s with config.timestampWindow := .ofSeconds (standardWindow build) }
  | retentionDays => { s with config.retention := .ofSeconds 2592000 }
  | databaseMaxConnections => { s with databaseMaxConnections := 5 }
  | chainTimeout => { s with chainTimeout := 5000 }
  | bindAddress => { s with bindAddress := standardBindAddress }
  | quotaBase => { s with policy.base := 10 }
  | perTransaction => { s with policy.perTransaction := 10 }
  | minBalance => { s with policy.minBalance := 0 }

/-! Every default may be chosen. -/

theorem Variable.standard_ne_zero (build : Build) :
    maxRequestBytes.standard build ≠ (0 : UInt64) := by
  show (4096 : UInt64) ≠ 0
  decide

theorem Variable.takesDays_standard (build : Build) :
    TakesDays build (retentionDays.standard build) := by
  intro _
  show (30 : UInt64).toNat * 86400 < UInt64.size
  decide

theorem Variable.standard_lt (build : Build) : minBalance.standard build < Nat.pow 2 128 :=
  Nat.two_pow_pos 128

namespace Choices

variable (c : Choices build) {t u : Variable}

/-- What holds of a value and of the default holds of the value after any default was put in. -/
theorem update_standard {P : u.Value → Prop} (hvalue : P (c.value u))
    (hstandard : P (u.standard build)) :
    P (Function.update c.value t (t.standard build) u) := by
  by_cases hu : u = t
  · subst hu
    rw [Function.update_self]
    exact hstandard
  · rw [Function.update_of_ne hu]
    exact hvalue

theorem reset_ne_zero :
    Function.update c.value t (t.standard build) .maxRequestBytes ≠ (0 : UInt64) :=
  c.update_standard (u := .maxRequestBytes) (P := fun n => n ≠ (0 : UInt64))
    c.maxRequestBytes_ne_zero (Variable.standard_ne_zero build)

theorem reset_takesDays :
    TakesDays build (Function.update c.value t (t.standard build) .retentionDays) :=
  c.update_standard (u := .retentionDays) (P := fun days => TakesDays build days) c.takesDays
    (Variable.takesDays_standard build)

theorem reset_minBalance_lt :
    Function.update c.value t (t.standard build) .minBalance < Nat.pow 2 128 :=
  c.update_standard (u := .minBalance) (P := fun n => n < Nat.pow 2 128) c.minBalance_lt
    (Variable.standard_lt build)

/-- The choice with the default for one variable. -/
def reset (t : Variable) : Choices build where
  databaseUrl := c.databaseUrl
  chainUrl := c.chainUrl
  keyShare := c.keyShare
  value := Function.update c.value t (t.standard build)
  databaseUrl_visible := c.databaseUrl_visible
  chainUrl_visible := c.chainUrl_visible
  keyShare_visible := c.keyShare_visible
  maxRequestBytes_ne_zero := c.reset_ne_zero
  takesDays := c.reset_takesDays
  minBalance_lt := c.reset_minBalance_lt

theorem settings_reset (t : Variable) : (c.reset t).settings = t.reset build c.settings := by
  cases t with
  | retentionDays =>
      have hretention : Span.ofSeconds (30 * 86400) = .ofSeconds 2592000 := by decide
      show { c.settings with config.retention := .ofSeconds (30 * 86400) } = _
      rw [hretention]
      rfl
  | _ => rfl

theorem visible_none : ∀ share ∈ (none : Option String), Text.isAllBlank share = false := by simp

/-- The choice without a key share. -/
def withoutKeyShare : Choices build where
  databaseUrl := c.databaseUrl
  chainUrl := c.chainUrl
  keyShare := none
  value := c.value
  databaseUrl_visible := c.databaseUrl_visible
  chainUrl_visible := c.chainUrl_visible
  keyShare_visible := visible_none
  maxRequestBytes_ne_zero := c.maxRequestBytes_ne_zero
  takesDays := c.takesDays
  minBalance_lt := c.minBalance_lt

variable {c}

/-- **An environment that leaves a variable out gives the choice with its default.** -/
theorem AreGivenBy.reset (h : c.AreGivenBy env) (hagree : AgreeExcept t.name env env')
    (hunset : IsUnset env' t.name) : (c.reset t).AreGivenBy env' := by
  -- neither an endpoint nor the key share has the name of the variable that is left out
  have hnames : ∀ name ∈ ["DATABASE_URL", "CHAIN_RPC_URL", keyShareName], name ≠ t.name := by
    cases t <;> decide
  simp only [List.forall_mem_cons] at hnames
  obtain ⟨hdatabase, hchain, hshare, -⟩ := hnames
  constructor
  case databaseUrl => exact (hagree _ hdatabase).trans h.databaseUrl
  case chainUrl => exact (hagree _ hchain).trans h.chainUrl
  case keyShare =>
    rw [present?, hagree _ hshare]
    exact h.keyShare
  case value =>
    intro u
    by_cases hu : u = t
    · subst hu
      have hvalue : (c.reset u).value u = u.standard build := Function.update_self ..
      rw [hvalue]
      exact .standard hunset
    · -- nor has any other variable
      have hvalue : (c.reset t).value u = c.value u := Function.update_of_ne hu ..
      have hname : env' u.name = env u.name := hagree _ fun h => hu (Variable.name_injective h)
      rw [hvalue, Variable.gives_congr hname]
      exact h.value u

theorem AreGivenBy.withoutKeyShare (h : c.AreGivenBy env)
    (hagree : AgreeExcept keyShareName env env') (hunset : IsUnset env' keyShareName) :
    c.withoutKeyShare.AreGivenBy env' := by
  constructor
  case databaseUrl => exact (hagree _ (by decide)).trans h.databaseUrl
  case chainUrl => exact (hagree _ (by decide)).trans h.chainUrl
  case keyShare => exact isUnset_iff.1 hunset
  case value =>
    intro t
    have hname : t.name ≠ keyShareName := by cases t <;> decide
    rw [Variable.gives_congr (hagree _ hname)]
    exact h.value t

end Choices

/-! ## The texts of settings -/

/-- An environment whose retention does not overflow lacks settings for four reasons only. -/
theorem not_isComplete_iff (hretention : ∀ days : UInt64,
    Variable.retentionDays.Gives build env days → TakesDays build days) : ¬ IsComplete build env ↔
      (∃ t : Variable, t.IsUnreadable env) ∨ Variable.maxRequestBytes.Gives build env (0 : UInt64) ∨
        IsUnset env "DATABASE_URL" ∨ IsUnset env "CHAIN_RPC_URL" := by
  constructor
  · intro hincomplete
    by_contra hnone
    simp only [not_or, not_exists] at hnone
    obtain ⟨hreadable, hmax, hdatabase, hchain⟩ := hnone
    exact hincomplete ⟨hreadable, hmax, hretention, hdatabase, hchain⟩
  · rintro (⟨t, ht⟩ | hmax | hdatabase | hchain) h
    · exact h.readable t ht
    · exact h.maxRequestBytes hmax
    · exact h.databaseUrl hdatabase
    · exact h.chainUrl hchain

/-- **A choice is loaded from its texts; a variable that is left out takes its default and changes no
other setting; and where the retention does not overflow, nothing is loaded just if a variable is
unreadable, no request may have any bytes, or an endpoint is missing.** Builds differ in the default
of the window, and in a release no retention overflows. -/
theorem load_reads_choices (build : Build) :
    (∀ (c : Choices build) (env : Environment), c.AreWrittenIn env →
      loadFor build env = .ok c.settings) ∧
    (∀ (env : Environment) (s : Settings), loadFor build env = .ok s →
      (∀ (t : Variable) (env' : Environment), AgreeExcept t.name env env' →
        IsUnset env' t.name → loadFor build env' = .ok (t.reset build s)) ∧
      ∀ env' : Environment, AgreeExcept keyShareName env env' → IsUnset env' keyShareName →
        loadFor build env' = .ok { s with keyShare := none }) ∧
    ∀ env : Environment,
      (∀ days : UInt64, Variable.retentionDays.Gives build env days → TakesDays build days) →
      ((∃ fault, loadFor build env = .error fault) ↔
        (∃ t : Variable, t.IsUnreadable env) ∨
          Variable.maxRequestBytes.Gives build env (0 : UInt64) ∨
          IsUnset env "DATABASE_URL" ∨ IsUnset env "CHAIN_RPC_URL") := by
  refine ⟨fun c env hwritten => load_of_areGivenBy hwritten.areGivenBy, fun env s hload => ?_,
    fun env hretention => ?_⟩
  · obtain ⟨c, hc, rfl⟩ := load_eq_ok_iff.1 hload
    refine ⟨fun t env' hagree hunset => ?_, fun env' hagree hunset => ?_⟩
    · rw [← c.settings_reset]
      exact load_of_areGivenBy (hc.reset hagree hunset)
    · exact load_of_areGivenBy (hc.withoutKeyShare hagree hunset)
  · -- there is a fault just if there are no settings
    rw [← not_isComplete_iff hretention, ← exists_load_eq_ok_iff]
    cases loadFor build env with
    | error fault => simp
    | ok s => simp

def ofPairs (pairs : List (String × String)) : Environment := fun name => pairs.lookup name

/-- The endpoints on one machine. -/
def localEndpoints : List (String × String) :=
  [("DATABASE_URL", "postgres://localhost/signer"), ("CHAIN_RPC_URL", "http://localhost:8545")]

/-- The endpoints with a bind address, after a tabulator. -/
def localTexts : List (String × String) :=
  ("SIGNER_BIND_ADDR", "\t127.0.0.1:9000") :: localEndpoints

/-- The endpoints with a bind address and a base quota. -/
def localChoices (build : Build) : Choices build where
  databaseUrl := "postgres://localhost/signer"
  chainUrl := "http://localhost:8545"
  keyShare := none
  value
    | .bindAddress => .v4 ⟨127, 0, 0, 1⟩ 9000
    | .quotaBase => (-3 : Int64)
    | t => t.standard build
  databaseUrl_visible := by decide
  chainUrl_visible := by decide
  keyShare_visible := Choices.visible_none
  maxRequestBytes_ne_zero := Variable.standard_ne_zero build
  takesDays := Variable.takesDays_standard build
  minBalance_lt := Variable.standard_lt build

theorem localChoices_areWrittenIn (build : Build) :
    (localChoices build).AreWrittenIn (ofPairs (("QUOTA_BASE", "-3 ") :: localTexts)) := by
  constructor
  case databaseUrl => rfl
  case chainUrl => rfl
  case keyShare => exact .inl rfl
  case value =>
    intro t
    have htabulator : ∀ c ∈ "\t".toList, Text.isBlank c = true := Text.isAllBlank_iff.1 (by decide)
    have hspace : ∀ c ∈ " ".toList, Text.isBlank c = true := Text.isAllBlank_iff.1 (by decide)
    have hnone : ∀ c ∈ "".toList, Text.isBlank c = true := by simp
    have haddress : "\t127.0.0.1:9000" =
        "\t" ++ socketAddress.text (.v4 ⟨127, 0, 0, 1⟩ 9000) ++ "" := by decide
    have hquota : "-3 " = "" ++ int64.format.text (-3 : Int64) ++ " " := by decide
    cases t with
    | bindAddress => exact .text rfl ⟨"\t", "", haddress, htabulator, hnone⟩
    | quotaBase => exact .text rfl ⟨"", " ", hquota, hnone, hspace⟩
    | _ => exact .standard (isUnset_iff.2 rfl)

/-- The choice is loaded from its texts, without the quota it has the default, and without the
endpoints there is none. -/
theorem load_reads_localChoices :
    loadFor .release (ofPairs (("QUOTA_BASE", "-3 ") :: localTexts)) =
      .ok (localChoices .release).settings ∧
    loadFor .release (ofPairs localTexts) =
      .ok (Variable.quotaBase.reset .release (localChoices .release).settings) ∧
    ∃ fault, loadFor .development (ofPairs []) = .error fault := by
  have hload := (load_reads_choices .release).1 _ _ (localChoices_areWrittenIn .release)
  refine ⟨hload, ?_, ?_⟩
  · refine ((load_reads_choices .release).2.1 _ _ hload).1 .quotaBase _ ?_ (isUnset_iff.2 rfl)
    intro other hother
    have hne : (other == "QUOTA_BASE") = false := beq_false_of_ne hother
    unfold ofPairs
    rw [List.lookup_cons, hne]
  · refine ((load_reads_choices .development).2.2 _ ?_).2
      (.inr (.inr (.inl (isUnset_iff.2 rfl))))
    intro days hdays _
    obtain rfl : days = 30 := Variable.gives_unique hdays (.standard (isUnset_iff.2 rfl))
    decide

/-! ## The overflow -/

theorem bind_ne_overflow {α β : Type} {x : Except SettingsFault α}
    {f : α → Except SettingsFault β} (hx : x ≠ .error .retentionOverflow)
    (hf : ∀ a, f a ≠ .error .retentionOverflow) : x >>= f ≠ .error .retentionOverflow := by
  rw [ne_eq, bind_eq_error]
  rintro (h | ⟨a, _, h⟩)
  · exact hx h
  · exact hf a h

theorem Variable.read_ne_overflow (t : Variable) :
    t.read build env ≠ .error .retentionOverflow := by
  intro h
  obtain ⟨value, why, hfault⟩ := Variable.eq_unreadable_of_read h
  cases hfault

theorem requiredText_ne_overflow (name : String) :
    requiredText env name ≠ .error .retentionOverflow := by
  unfold requiredText
  cases present? env name with
  | none => simp
  | some value => simp

/-- Loading ends in an overflow just if the days are read and their seconds do not fit. -/
theorem load_eq_overflow_iff : loadFor build env = .error .retentionOverflow ↔
    ¬ Variable.maxRequestBytes.IsUnreadable env ∧ ¬ Variable.timestampWindow.IsUnreadable env ∧
      ∃ days : UInt64, Variable.retentionDays.Gives build env days ∧ ¬ TakesDays build days := by
  rw [← Variable.exists_gives_iff build, ← Variable.exists_gives_iff build,
    load_eq]
  simp only [← Variable.read_eq_ok_iff, ← retentionOf_eq_overflow_iff]
  constructor
  · intro h
    obtain ⟨maxRequestBytes, hmax, h⟩ :=
      (bind_eq_error.1 h).resolve_left (Variable.read_ne_overflow _)
    obtain ⟨windowSeconds, hwindow, h⟩ :=
      (bind_eq_error.1 h).resolve_left (Variable.read_ne_overflow _)
    obtain ⟨days, hdays, h⟩ := (bind_eq_error.1 h).resolve_left (Variable.read_ne_overflow _)
    refine ⟨⟨_, hmax⟩, ⟨_, hwindow⟩, days, hdays, (bind_eq_error.1 h).resolve_right ?_⟩
    -- what is loaded after the retention has faults of its own only
    rintro ⟨retention, _, h⟩
    by_cases hzero : maxRequestBytes = 0
    · rw [if_pos hzero] at h
      cases h
    · rw [if_neg hzero] at h
      refine absurd h (bind_ne_overflow (requiredText_ne_overflow _) fun databaseUrl => ?_)
      refine bind_ne_overflow (Variable.read_ne_overflow _) fun databaseMaxConnections => ?_
      refine bind_ne_overflow (requiredText_ne_overflow _) fun chainUrl => ?_
      refine bind_ne_overflow (Variable.read_ne_overflow _) fun chainTimeout => ?_
      refine bind_ne_overflow (Variable.read_ne_overflow _) fun bindAddress => ?_
      refine bind_ne_overflow (Variable.read_ne_overflow _) fun quotaBase => ?_
      refine bind_ne_overflow (Variable.read_ne_overflow _) fun perTransaction => ?_
      refine bind_ne_overflow (Variable.read_ne_overflow _) fun minBalance => ?_
      simp
  · rintro ⟨⟨_, hmax⟩, ⟨_, hwindow⟩, days, hdays, hoverflow⟩
    apply bind_eq_error.2 (.inr ⟨_, hmax, _⟩)
    apply bind_eq_error.2 (.inr ⟨_, hwindow, _⟩)
    apply bind_eq_error.2 (.inr ⟨_, hdays, _⟩)
    exact bind_eq_error.2 (.inl hoverflow)

/-- The retention that is loaded has the seconds of the days, exactly if they fit into 64 bits. -/
theorem retention_of_load {s : Settings} (h : loadFor build env = .ok s) :
    ∃ days : UInt64, Variable.retentionDays.Gives build env days ∧ TakesDays build days ∧
      s.config.retention.seconds.toNat = 86400 * days.toNat % UInt64.size ∧
      s.config.retention.nanos = 0 := by
  obtain ⟨c, hc, rfl⟩ := load_eq_ok_iff.1 h
  exact ⟨c.value .retentionDays, hc.value .retentionDays, c.takesDays, toNat_mul_day_mod _, rfl⟩

/-- **Loading overflows in development, just if the days are read and their seconds do not fit into
64 bits.** Whatever is loaded there keeps records for the days exactly. A release never overflows; it
keeps records for the low 64 bits of the seconds. -/
theorem load_overflow_iff (env : Environment) (build : Build) :
    (loadFor build env = .error .retentionOverflow ↔
      build = .development ∧
      ¬ Variable.maxRequestBytes.IsUnreadable env ∧ ¬ Variable.timestampWindow.IsUnreadable env ∧
        ∃ days : UInt64, Variable.retentionDays.Gives build env days ∧
          UInt64.size ≤ days.toNat * 86400) ∧
    ∀ s, loadFor build env = .ok s → ∃ days : UInt64, Variable.retentionDays.Gives build env days ∧
      (build = .development → s.config.retention.seconds.toNat = 86400 * days.toNat) ∧
      s.config.retention.seconds.toNat = 86400 * days.toNat % UInt64.size ∧
      s.config.retention.nanos = 0 := by
  constructor
  · simp only [load_eq_overflow_iff, TakesDays, Classical.not_imp, Nat.not_lt]
    constructor
    · rintro ⟨hmax, hwindow, days, hdays, hbuild, hle⟩
      exact ⟨hbuild, hmax, hwindow, days, hdays, hle⟩
    · rintro ⟨hbuild, hmax, hwindow, days, hdays, hle⟩
      exact ⟨hmax, hwindow, days, hdays, hbuild, hle⟩
  · intro s h
    obtain ⟨days, hdays, htakes, hseconds, hnanos⟩ := retention_of_load h
    refine ⟨days, hdays, fun hbuild => ?_, hseconds, hnanos⟩
    -- development took the days, so nothing was cut off
    have hlt := htakes hbuild
    rw [hseconds, Nat.mod_eq_of_lt (by omega)]

/-- The choice on one machine keeps records for thirty days. -/
theorem retention_localChoices : ∃ days : UInt64,
    Variable.retentionDays.Gives .development (ofPairs (("QUOTA_BASE", "-3 ") :: localTexts)) days ∧
      (localChoices .development).settings.config.retention.seconds.toNat = 86400 * days.toNat ∧
      (localChoices .development).settings.config.retention.nanos = 0 := by
  have hload := load_of_areGivenBy (localChoices_areWrittenIn .development).areGivenBy
  obtain ⟨days, hdays, hexact, -, hnanos⟩ := (load_overflow_iff _ .development).2 _ hload
  exact ⟨days, hdays, hexact rfl, hnanos⟩

/-- A number of days that has 64 bits, but whose seconds have not. A release takes it for less than
one day. -/
theorem overflow_of_many_days :
    let env := ofPairs (("SIGNER_REQUEST_RETENTION_DAYS", "213503982334602") :: localEndpoints)
    Variable.retentionDays.Gives .development env (213503982334602 : UInt64) ∧
    loadFor .development env = .error .retentionOverflow ∧
    (loadFor .release env).toOption.map (fun s => s.config.retention) = some (.ofSeconds 61184) := by
  intro env
  refine ⟨?_, by decide +kernel, by decide +kernel⟩
  apply Variable.read_eq_ok_iff.1
  rfl

end BlindSign.Settings

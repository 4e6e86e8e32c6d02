import BlindSign.Proofs.Formats

set_option autoImplicit false

/-! # Variables with a default

Nine variables have a default and a format (`Variable`). An environment gives a value to one of them
(`Variable.Gives`): the default if the variable is unset or blank, and otherwise the value that its
text denotes after trimming. A variable whose text denotes nothing is unreadable. One default depends
on how the service is built.

**A variable is read as a value just if the environment gives it this value**
(`Variable.read_eq_ok_iff`), which is never the case for two values, and for one just if the variable
is not unreadable (`Variable.exists_gives_iff`). What an environment gives to a variable does not
depend on the others (`Variable.gives_congr`).
-/

namespace BlindSign.Settings

variable {build : Build} {env env' : Environment}

/-! ## Unset variables -/

section

variable {name : String}

/-- A variable is unset, or has a blank value. -/
def IsUnset (env : Environment) (name : String) : Prop :=
  ∀ value ∈ env name, ∀ c ∈ value.toList, Text.isBlank c = true

theorem present?_eq_some_iff {value : String} : present? env name = some value ↔
    env name = some value ∧ Text.isAllBlank value = false := by
  rw [present?, Option.filter_eq_some_iff, Bool.not_eq_true']

theorem isUnset_iff : IsUnset env name ↔ present? env name = none := by
  rw [present?, Option.filter_eq_none_iff]
  refine forall₂_congr fun value _ => ?_
  rw [← Text.isAllBlank_iff]
  simp

theorem not_isUnset_iff :
    ¬ IsUnset env name ↔ ∃ value, env name = some value ∧ Text.isAllBlank value = false := by
  rw [isUnset_iff, ← ne_eq, Option.ne_none_iff_exists']
  exact exists_congr fun value => present?_eq_some_iff

end

/-! ## The variables -/

/-- A variable that has a default and a format. -/
inductive Variable
  | maxRequestBytes
  | timestampWindow
  | retentionDays
  | databaseMaxConnections
  | chainTimeout
  | bindAddress
  | quotaBase
  | perTransaction
  | minBalance
  deriving DecidableEq

namespace Variable

def name : Variable → String
  | maxRequestBytes => "SIGNER_MAX_REQUEST_BYTES"
  | timestampWindow => "SIGNER_TIMESTAMP_WINDOW_SECS"
  | retentionDays => "SIGNER_REQUEST_RETENTION_DAYS"
  | databaseMaxConnections => "DATABASE_MAX_CONNECTIONS"
  | chainTimeout => "CHAIN_RPC_TIMEOUT_MS"
  | bindAddress => "SIGNER_BIND_ADDR"
  | quotaBase => "QUOTA_BASE"
  | perTransaction => "QUOTA_PER_TRANSACTION"
  | minBalance => "QUOTA_MIN_BALANCE_WEI"

abbrev Value : Variable → Type
  | maxRequestBytes => UInt64
  | timestampWindow => UInt64
  | retentionDays => UInt64
  | databaseMaxConnections => UInt32
  | chainTimeout => UInt64
  | bindAddress => Net.SocketAddress
  | quotaBase => Int64
  | perTransaction => Int64
  | minBalance => Nat

def format : (t : Variable) → Format t.Value
  | maxRequestBytes => uint64.format
  | timestampWindow => uint64.format
  | retentionDays => uint64.format
  | databaseMaxConnections => uint32.format
  | chainTimeout => uint64.format
  | bindAddress => socketAddress
  | quotaBase => int64.format
  | perTransaction => int64.format
  | minBalance => amount.format

/-- The default of the window: an hour in development, and five minutes otherwise. -/
def standardWindow : Build → UInt64
  | .development => 3600
  | .release => 300

def standard (build : Build) : (t : Variable) → t.Value
  | maxRequestBytes => (4096 : UInt64)
  | timestampWindow => standardWindow build
  | retentionDays => (30 : UInt64)
  | databaseMaxConnections => (5 : UInt32)
  | chainTimeout => (5000 : UInt64)
  | bindAddress => .v4 ⟨0, 0, 0, 0⟩ 31113
  | quotaBase => (10 : Int64)
  | perTransaction => (10 : Int64)
  | minBalance => (0 : Nat)

variable {t u : Variable} {a b : t.Value}

theorem name_injective : Function.Injective name := by
  intro t u h
  cases t <;> cases u <;> first
    | rfl
    | exact absurd h (by decide)

def read (t : Variable) (build : Build) (env : Environment) : Except SettingsFault t.Value :=
  readOr env t.name t.format.read (t.standard build)

/-! ## What an environment gives -/

/-- An environment gives a variable a value: the default if it is unset, and otherwise the value that
the trimmed text denotes. -/
inductive Gives (build : Build) (env : Environment) (t : Variable) : t.Value → Prop
  | standard (h : IsUnset env t.name) : Gives build env t (t.standard build)
  | text {value : String} {a : t.Value} (hset : env t.name = some value)
      (hvisible : Text.isAllBlank value = false)
      (h : t.format.Denotes (Text.trim value).toList a) : Gives build env t a

/-- A variable has a text, but one that denotes no value. -/
def IsUnreadable (env : Environment) (t : Variable) : Prop :=
  ∃ value, env t.name = some value ∧ Text.isAllBlank value = false ∧
    ∀ a, ¬ t.format.Denotes (Text.trim value).toList a

/-- **A variable is read as a value just if the environment gives it this value.** -/
theorem read_eq_ok_iff : t.read build env = .ok a ↔ t.Gives build env a := by
  unfold read readOr
  -- an unset variable has no text to be read, and one with a text has no default
  cases hpresent : present? env t.name with
  | none =>
      have hunset := isUnset_iff.2 hpresent
      constructor
      · intro h
        cases h
        exact .standard hunset
      · intro h
        cases h with
        | standard _ => rfl
        | text hset hvisible _ => exact absurd hunset (not_isUnset_iff.2 ⟨_, hset, hvisible⟩)
  | some value =>
      obtain ⟨hset, hvisible⟩ := present?_eq_some_iff.1 hpresent
      have hgives : t.Gives build env a ↔ t.format.Denotes (Text.trim value).toList a := by
        constructor
        · intro h
          cases h with
          | standard hunset =>
              rw [isUnset_iff.1 hunset] at hpresent
              cases hpresent
          | text hset' _ h =>
              cases Option.some.inj (hset'.symm.trans hset)
              exact h
        · exact .text hset hvisible
      rw [hgives, ← t.format.read_eq_ok_iff]
      dsimp only
      -- only the faults of the two readings differ
      cases t.format.read (Text.trim value) with
      | ok b => rw [Except.ok.injEq, Except.ok.injEq]
      | error fault => simp

/-- Every default has a text. -/
theorem fits_standard (t : Variable) : t.format.Fits (t.standard build) := by
  cases build <;> cases t <;> first
    | exact trivial
    | exact Numeral.contains_iff.2 (by decide)

theorem Gives.fits (h : t.Gives build env a) : t.format.Fits a := by
  cases h with
  | standard _ => exact t.fits_standard
  | text _ _ h => exact t.format.fits h

theorem gives_unique (ha : t.Gives build env a) (hb : t.Gives build env b) : a = b :=
  Except.ok.inj ((read_eq_ok_iff.2 ha).symm.trans (read_eq_ok_iff.2 hb))

/-- An environment gives a variable some value just if the variable is not unreadable. -/
theorem exists_gives_iff (build : Build) :
    (∃ a, t.Gives build env a) ↔ ¬ t.IsUnreadable env := by
  constructor
  · rintro ⟨a, h⟩ ⟨value, hset, hvisible, hnone⟩
    cases h with
    | standard hunset => exact not_isUnset_iff.2 ⟨value, hset, hvisible⟩ hunset
    | text hset' _ h =>
        cases Option.some.inj (hset'.symm.trans hset)
        exact hnone _ h
  · intro hreadable
    by_cases hunset : IsUnset env t.name
    · exact ⟨_, .standard hunset⟩
    · obtain ⟨value, hset, hvisible⟩ := not_isUnset_iff.1 hunset
      by_contra hnone
      exact hreadable ⟨value, hset, hvisible, fun a ha => hnone ⟨a, .text hset hvisible ha⟩⟩

/-- The fault of a variable that is not read is its own. -/
theorem eq_unreadable_of_read {fault : SettingsFault} (h : t.read build env = .error fault) :
    ∃ value why, fault = .unreadable t.name value why := by
  unfold read readOr at h
  cases hpresent : present? env t.name with
  | none =>
      rw [hpresent] at h
      cases h
  | some value =>
      rw [hpresent] at h
      cases hread : t.format.read (Text.trim value) with
      | ok a =>
          simp only [hread] at h
          cases h
      | error why =>
          simp only [hread, Except.error.injEq] at h
          exact ⟨value, why, h.symm⟩

/-- What an environment gives to a variable does not depend on the others. -/
theorem gives_congr (h : env' t.name = env t.name) :
    t.Gives build env' a ↔ t.Gives build env a := by
  rw [← read_eq_ok_iff, ← read_eq_ok_iff]
  unfold read readOr present?
  rw [h]

/-- A value is written in an environment for a variable: between blank characters, or not at all if
it is the default. -/
inductive IsWrittenIn (build : Build) (env : Environment) (t : Variable) : t.Value → Prop
  | text {value : String} {a : t.Value} (hset : env t.name = some value)
      (hvalue : Text.IsPadded value (t.format.text a)) : IsWrittenIn build env t a
  | standard (h : IsUnset env t.name) : IsWrittenIn build env t (t.standard build)

/-- An environment gives a variable the value that is written in it. -/
theorem IsWrittenIn.gives (h : t.IsWrittenIn build env a) (hfits : t.format.Fits a) :
    t.Gives build env a := by
  cases h with
  | standard hunset => exact .standard hunset
  | text hset hvalue =>
      have htrim := t.format.trim_eq_text hfits hvalue
      refine .text hset ?_ ?_
      · rw [Text.isAllBlank, htrim]
        simpa using t.format.text_ne_empty hfits
      · rw [htrim]
        exact t.format.denotes_text hfits

end Variable

end BlindSign.Settings

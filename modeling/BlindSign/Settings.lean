import BlindSign.Config
import BlindSign.Net.Address
import BlindSign.Numeral
import BlindSign.Quota
import BlindSign.Text.Characters

set_option autoImplicit false

/-! # Settings

The settings of the service, read from named variables. A variable that is unset or blank takes its
default; two have none and must be set. A value is trimmed before it is read, and the first fault in
a fixed order is reported.
-/

namespace BlindSign

structure Settings where
  databaseUrl : String
  databaseMaxConnections : UInt32
  chainUrl : String
  /-- How long a call to the chain node may take, in milliseconds. -/
  chainTimeout : UInt64
  /-- The text of the key share, if one is configured. -/
  keyShare : Option String
  bindAddress : Net.SocketAddress
  config : Config
  policy : AllowancePolicy
  deriving Repr, DecidableEq

/-- The values of variables by name. -/
abbrev Environment := String → Option String

/-- What is wrong with the value of a variable. -/
inductive ValueFault
  | number (fault : Numeral.Fault)
  | address
  deriving Repr, DecidableEq

def ValueFault.message : ValueFault → String
  | .number fault => fault.message
  | .address => "invalid socket address syntax"

/-- Why there are no settings. -/
inductive SettingsFault
  /-- A variable that must be set is unset or blank. -/
  | unset (name : String)
  /-- The value of a variable cannot be read. -/
  | unreadable (name value : String) (fault : ValueFault)
  /-- The size that requests must stay below is zero. -/
  | noRequestBytes
  /-- The seconds of the retention do not fit into 64 bits. -/
  | retentionOverflow
  deriving Repr, DecidableEq

def SettingsFault.message : SettingsFault → String
  | .unset name => name ++ " must be set in environment"
  | .unreadable name value fault =>
    name ++ "=" ++ Text.Quoted.text value ++ " is invalid: " ++ fault.message
  | .noRequestBytes => "SIGNER_MAX_REQUEST_BYTES must be positive"
  | .retentionOverflow => "attempt to multiply with overflow"

namespace Settings

/-- The value of a variable that is set and not blank. -/
def present? (env : Environment) (name : String) : Option String :=
  (env name).filter fun value => !Text.isAllBlank value

def requiredText (env : Environment) (name : String) : Except SettingsFault String :=
  match present? env name with
  | some value => .ok value
  | none => .error (.unset name)

def readOr {α : Type} (env : Environment) (name : String) (read : String → Except ValueFault α)
    (default : α) : Except SettingsFault α :=
  match present? env name with
  | none => .ok default
  | some value =>
    match read (Text.trim value) with
    | .ok a => .ok a
    -- the message quotes the value as it was set, not as it was trimmed
    | .error fault => .error (.unreadable name value fault)

def readInteger (bounds : Numeral.Bounds) (s : String) : Except ValueFault Int :=
  (Numeral.readDecimal bounds s).mapError .number

def readUInt64 (s : String) : Except ValueFault UInt64 :=
  (readInteger (.unsigned 64) s).map fun n => UInt64.ofNat n.toNat

def readUInt32 (s : String) : Except ValueFault UInt32 :=
  (readInteger (.unsigned 32) s).map fun n => UInt32.ofNat n.toNat

def readInt64 (s : String) : Except ValueFault Int64 :=
  (readInteger (.signed 64) s).map Int64.ofInt

def readAmount (s : String) : Except ValueFault Nat :=
  (readInteger (.unsigned 128) s).map Int.toNat

def readAddress (s : String) : Except ValueFault Net.SocketAddress :=
  match Net.SocketAddress.ofText? s with
  | some a => .ok a
  | none => .error .address

/-- The retention of a number of days. Seconds that do not fit into 64 bits are noticed in
development; a release keeps their low 64 bits. -/
def retentionOf (build : Build) (days : UInt64) : Except SettingsFault Span :=
  match build with
  | .development =>
    match Span.ofDays? days with
    | some span => .ok span
    | none => .error .retentionOverflow
  | .release => .ok (.ofSeconds (days * 86400))

/-- All interfaces, port 31113. -/
def standardBindAddress : Net.SocketAddress := .v4 ⟨0, 0, 0, 0⟩ 31113

/-- The settings that an environment gives to a build of the service. -/
def loadFor (build : Build) (env : Environment) : Except SettingsFault Settings := do
  let base := Config.ofBuild build
  let maxRequestBytes ← readOr env "SIGNER_MAX_REQUEST_BYTES" readUInt64 base.maxRequestBytes
  let windowSeconds ←
    readOr env "SIGNER_TIMESTAMP_WINDOW_SECS" readUInt64 base.timestampWindow.seconds
  let days ←
    readOr env "SIGNER_REQUEST_RETENTION_DAYS" readUInt64 (base.retention.seconds / 86400)
  let retention ← retentionOf build days
  -- this check stands between two readings, so it decides which fault comes first
  if maxRequestBytes = 0 then .error .noRequestBytes
  else
    let databaseUrl ← requiredText env "DATABASE_URL"
    let databaseMaxConnections ← readOr env "DATABASE_MAX_CONNECTIONS" readUInt32 5
    let chainUrl ← requiredText env "CHAIN_RPC_URL"
    let chainTimeout ← readOr env "CHAIN_RPC_TIMEOUT_MS" readUInt64 5000
    let bindAddress ← readOr env "SIGNER_BIND_ADDR" readAddress standardBindAddress
    let quotaBase ← readOr env "QUOTA_BASE" readInt64 AllowancePolicy.standard.base
    let perTransaction ←
      readOr env "QUOTA_PER_TRANSACTION" readInt64 AllowancePolicy.standard.perTransaction
    let minBalance ←
      readOr env "QUOTA_MIN_BALANCE_WEI" readAmount AllowancePolicy.standard.minBalance
    .ok {
      databaseUrl
      databaseMaxConnections
      chainUrl
      chainTimeout
      keyShare := present? env "SIGNER_KEY_SHARE"
      bindAddress
      config := ⟨maxRequestBytes, .ofSeconds windowSeconds, retention⟩
      policy := ⟨quotaBase, perTransaction, minBalance⟩ }

/-- The settings in development. -/
def load : Environment → Except SettingsFault Settings := loadFor .development

end Settings

end BlindSign

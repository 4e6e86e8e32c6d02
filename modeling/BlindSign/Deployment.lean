import BlindSign.Curve.Ed25519
import BlindSign.Ledger.Database
import BlindSign.Service

set_option autoImplicit false

/-! # Deployments

A deployment puts the service together with collaborators and holds their state: the database of the
ledger, a way of checking callers, a source of allowances, an engine and a key share. It answers the
calls of a procedure, and keeps a log of the calls that it answered and of the events that were
noted.

Besides the live collaborators there are stand-ins for rehearsals: a check that accepts or refuses
every caller, an allowance and a height that are given, and an engine that hashes.
-/

namespace BlindSign

/-! ## Authorization by a signed body

A caller proves that an account is theirs by signing the body of the submission, byte for byte as it
is sent, with the key that the account has registered. The authorization is the signature in base64. -/

namespace Authorization

/-- The signature that an authorization spells: base64 of 64 bytes between blank characters. -/
def signature? (authorization : String) : Option (List UInt8) :=
  match Encoding.Base64.decode (Text.trim authorization) with
  | .ok bytes => if bytes.length = 64 then some bytes else none
  | .error _ => none

def verifies (key body signature : List UInt8) : Bool :=
  match Curve.Ed25519.PublicKey.ofBytes? key with
  | some key => key.verifies body signature
  | none => false

end Authorization

/-! ## Collaborators -/

/-- The collaborators whose calls are logged. -/
inductive Collaborator
  | callerCheck
  | keyRegister
  | quota
  | count
  | height
  | keyShare
  | engine
  | findRecord
  | addRecord
  | addCount
  deriving Repr, DecidableEq

inductive CallerCheck
  /-- Every caller is accepted. -/
  | acceptAll
  /-- Every caller is refused. -/
  | refuseAll
  /-- The body must be signed with the key that the account has registered. -/
  | signedBody
  deriving Repr, DecidableEq

/-- Where allowances and heights come from. -/
inductive ChainSource
  /-- They are given; an absent one cannot be read. -/
  | given (total height : Option Int64)
  /-- They are read from a node, allowances by a policy. -/
  | node (node : Rpc.Node) (policy : AllowancePolicy)

/-- A service with its collaborators and their state. -/
structure Deployment where
  config : Config
  site : Site
  callers : CallerCheck
  chain : ChainSource
  engine : Engine
  /-- The key share, if one is configured. -/
  share : Option KeyShare
  database : Database
  /-- The client for calls to the chain node. -/
  client : Rpc.Client
  /-- The present. -/
  clock : Instant
  /-- The calls answered, the last one first. -/
  calls : List Collaborator
  /-- The events noted, the last one first. -/
  metrics : Metrics

namespace Deployment

def tally (c : Collaborator) : StateM Deployment Unit :=
  modify fun d => { d with calls := c :: d.calls }

def record (m : Metric) : StateM Deployment Unit :=
  modify fun d => { d with metrics := m :: d.metrics }

def execute (s : Statement) : StateM Deployment (Except StoreFault s.Reply) := fun d =>
  let (reply, database) := d.database.execute s
  (reply, { d with database })

def readChain {α : Type} (read : StateM Rpc.Client α) : StateM Deployment α := fun d =>
  let (a, client) := read d.client
  (a, { d with client })

def chainDown : ChainFault := .outOfRange "down"

def givenOr (n : Option Int64) : Except ChainFault Int64 :=
  match n with
  | some n => .ok n
  | none => .error chainDown

/-- Check a caller by the signature of the body. The key is only looked up if the authorization
spells a signature. -/
def checkSignature (account : Account) (body : List UInt8) (authorization : Option String) :
    StateM Deployment Bool := do
  match authorization.bind Authorization.signature? with
  | none => return false
  | some signature =>
    tally .keyRegister
    match ← execute (.readKey account) with
    | .ok (some key) => return Authorization.verifies key body signature
    | _ => return false

def checkCaller (account : Account) (body : List UInt8) (authorization : Option String) :
    StateM Deployment Bool := do
  match (← get).callers with
  | .acceptAll => return true
  | .refuseAll => return false
  | .signedBody => checkSignature account body authorization

def allowance (account : Account) : StateM Deployment (Except ChainFault Int64) := do
  match (← get).chain with
  | .given total _ => return givenOr total
  | .node node policy => readChain (Chain.allowance node policy account)

def height : StateM Deployment (Except ChainFault Int64) := do
  match (← get).chain with
  | .given _ height => return givenOr height
  | .node node _ => readChain (Chain.height node)

def quota (account : Account) : StateM Deployment (Except QuotaFault Quota) := do
  tally .count
  let count ← execute (.readCount account)
  let total ← allowance account
  return Quota.combine count total

def recordOf (request : Admitted) (now : Instant) : Record where
  account := request.account.text
  blindedQuery := request.query.text
  sessionId := request.request.sessionId
  createdAt := now.stored

def answer : (call : Call) → StateM Deployment call.Reply
  | .authenticate request body authorization => do
    tally .callerCheck
    checkCaller request.account body authorization
  | .readQuota account _ => do
    tally .quota
    quota account
  | .readHeight => do
    tally .height
    height
  | .loadKey => do
    tally .keyShare
    match (← get).share with
    | some share => return .ok share
    | none => return .error .missing
  | .sign query share => do
    tally .engine
    return (← get).engine query share
  | .findRecord fingerprint => do
    tally .findRecord
    execute (.findRecord fingerprint)
  | .addRecord request => do
    tally .addRecord
    -- the time of the row is that of the database, not that of the request
    let record := recordOf request (← get).clock
    execute (.addRecord request.fingerprint record)
  | .addCount account => do
    tally .addCount
    execute (.addCount account)

def perform {α : Type} (p : Procedure α) : StateM Deployment α := p.run answer record

def service (d : Deployment) : Service :=
  ⟨d.config, d.site, some d.config.bodyLimit, d.clock.millis⟩

/-- Grant or refuse a submission that did not come over HTTP. -/
def submit (s : Submission) : StateM Deployment (Except Refusal Grant) := do
  let d ← get
  perform (Signing.procedure d.config.limits d.clock.millis s)

/-- Answer a request over HTTP. -/
def respond (r : Http.Request) : StateM Deployment Http.Response := do
  let d ← get
  perform (d.service.answer d.metrics r)

end Deployment

end BlindSign

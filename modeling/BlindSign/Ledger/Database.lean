import BlindSign.Ledger

set_option autoImplicit false

/-! # The database of the ledger

The ledger behind a connection. Each access is one statement, which either takes effect as a whole
or fails and changes nothing.
-/

namespace BlindSign

/-- Why a statement failed. -/
inductive StoreFault
  /-- The pool of connections is closed. -/
  | poolClosed
  /-- The database answered with an error. -/
  | rejected (reason : String)
  /-- The database cannot be reached. -/
  | unreachable
  deriving Repr, DecidableEq

def StoreFault.message : StoreFault → String
  | .poolClosed => "Database error: attempted to acquire a connection on a closed pool"
  | .rejected reason => "Database error: error returned from database: " ++ reason
  | .unreachable =>
    "Database error: error communicating with database: Network is unreachable (os error 101)"

/-- An access to the ledger. -/
inductive Statement
  /-- Look for the record of a request. -/
  | findRecord (fingerprint : Fingerprint)
  /-- Record a request. -/
  | addRecord (fingerprint : Fingerprint) (record : Record)
  /-- Read how many queries an account has made. -/
  | readCount (account : Account)
  /-- Count a query of an account. -/
  | addCount (account : Account)
  /-- Read the key of an account. -/
  | readKey (account : Account)
  /-- Remove the records made before an instant, as stored. -/
  | prune (cutoff : Int)
  deriving Repr, DecidableEq

inductive StatementKind
  | findRecord
  | addRecord
  | readCount
  | addCount
  | readKey
  | prune
  deriving Repr, DecidableEq

namespace Statement

def kind : Statement → StatementKind
  | findRecord _ => .findRecord
  | addRecord _ _ => .addRecord
  | readCount _ => .readCount
  | addCount _ => .addCount
  | readKey _ => .readKey
  | prune _ => .prune

/-- What a statement answers. -/
abbrev Reply : Statement → Type
  | findRecord _ => Bool
  | addRecord _ _ => Unit
  | readCount _ => Int64
  | addCount _ => Unit
  | readKey _ => Option (List UInt8)
  | prune _ => Nat

end Statement

def Ledger.execute (l : Ledger) : (s : Statement) → Except StoreFault s.Reply × Ledger
  | .findRecord f => (.ok (l.hasRecord f), l)
  | .addRecord f r => (.ok (), l.addRecord f r)
  | .readCount a => (.ok (l.count a), l)
  | .addCount a =>
    match l.increment? a with
    | some l' => (.ok (), l')
    | none => (.error (.rejected "bigint out of range"), l)
  | .readKey a => (.ok (l.registeredKey? a), l)
  | .prune cutoff => let (n, l') := l.prune cutoff; (.ok n, l')

/-- A ledger with the state of the connection to it. -/
structure Database where
  ledger : Ledger
  /-- Whether connections can be made. -/
  connected : Bool
  /-- The kinds of statement that fail at present. -/
  broken : List StatementKind
  /-- How they fail. -/
  fault : StoreFault

namespace Database

/-- The fault that keeps a statement from being carried out, if there is one. -/
def faultOf? (d : Database) (s : Statement) : Option StoreFault :=
  if !d.connected then some .unreachable
  else if s.kind ∈ d.broken then some d.fault
  else none

def execute (s : Statement) : StateM Database (Except StoreFault s.Reply) := fun d =>
  match d.faultOf? s with
  | some fault => (.error fault, d)
  | none => let (reply, l) := d.ledger.execute s; (reply, { d with ledger := l })

/-- Why records were not pruned. -/
inductive PruneFault
  /-- The instant before which records go has no date. -/
  | beforeCalendar
  /-- The statement failed. -/
  | store (fault : StoreFault)
  deriving Repr, DecidableEq

/-- Remove the records that are older than a retention. -/
def pruneOlder (now : Instant) (retention : Span) :
    StateM Database (Except PruneFault Nat) := do
  match Retention.cutoff? now retention with
  | none => return .error .beforeCalendar
  | some cutoff =>
    let reply ← execute (.prune cutoff.stored)
    return reply.mapError .store

end Database

end BlindSign

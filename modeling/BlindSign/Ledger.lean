import BlindSign.Values
import BlindSign.Request
import BlindSign.Table
import BlindSign.Time

set_option autoImplicit false

/-! # The ledger

What the service keeps: records of the requests it has granted, how many queries each account has
made, and the keys that accounts have registered. Records are pruned when they are old enough;
counts only grow.
-/

namespace BlindSign

/-- The record of a granted request. -/
structure Record where
  /-- The name of the account. -/
  account : String
  /-- The blinded query, as it was sent. -/
  blindedQuery : String
  sessionId : Option String
  /-- When the record was made, as stored. -/
  createdAt : Int
  deriving Repr, DecidableEq

/-- The tables of the service. -/
structure Ledger where
  /-- Records, by the text of the fingerprint. -/
  records : Table String Record
  /-- Numbers of queries made, by the name of the account. -/
  counts : Table String Int64
  /-- Registered keys, by the name of the account. -/
  keys : Table String (List UInt8)
  deriving DecidableEq

namespace Ledger

def empty : Ledger := ⟨.empty, .empty, .empty⟩

def hasRecord (l : Ledger) (f : Fingerprint) : Bool := l.records.contains f.text

/-- Record a request; one that is on record stays as it is. -/
def addRecord (l : Ledger) (f : Fingerprint) (r : Record) : Ledger :=
  { l with records := l.records.insertNew f.text r }

def count (l : Ledger) (a : Account) : Int64 := (l.counts.get? a.text).getD 0

/-- Count one more query of an account, unless the count is at its limit. -/
def increment? (l : Ledger) (a : Account) : Option Ledger :=
  let n := l.count a
  if n < Int64.maxValue then some { l with counts := l.counts.insert a.text (n + 1) } else none

/-- The key that an account has registered. One that is not 32 bytes long does not count. -/
def registeredKey? (l : Ledger) (a : Account) : Option (List UInt8) :=
  (l.keys.get? a.text).filter fun key => key.length = 32

/-- Remove the records made before an instant, both as stored, and tell how many there were. -/
def prune (l : Ledger) (cutoff : Int) : Nat × Ledger :=
  let kept := l.records.keep fun r => cutoff ≤ r.createdAt
  -- counted from the sizes: no key is there twice
  (l.records.size - kept.size, { l with records := kept })

end Ledger

/-! ## Retention -/

namespace Retention

/-- The longest retention that is taken as it is, in nanoseconds. -/
def longest : Nat := 9223372036854775807 * 1000000

/-- The retention that takes the place of a longer one: thirty days, in nanoseconds. -/
def fallback : Nat := 30 * 86400 * 1000000000

/-- A retention in nanoseconds, as it is applied. -/
def applied (retention : Span) : Nat :=
  if retention.totalNanos ≤ longest then retention.totalNanos else fallback

/-- The instant before which records are pruned, if the calendar has it. -/
def cutoff? (now : Instant) (retention : Span) : Option Instant :=
  now.earlier? (applied retention)

end Retention

end BlindSign

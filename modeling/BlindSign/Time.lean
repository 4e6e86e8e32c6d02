set_option autoImplicit false

/-! # Spans and instants

Spans of time in whole seconds and nanoseconds, as settings give them, and instants, counted in
nanoseconds from the start of 1970. The calendar begins with the year -262143; an instant before
that has no date.
-/

namespace BlindSign

/-- A span of time: whole seconds, and nanoseconds below a second. -/
structure Span where
  /-- Whole seconds. -/
  seconds : UInt64
  /-- The nanoseconds beyond them. -/
  nanos : Nat
  /-- They are less than a second. -/
  nanos_lt : nanos < 1000000000 := by decide
  deriving Repr, DecidableEq

namespace Span

def ofSeconds (seconds : UInt64) : Span := { seconds, nanos := 0 }

/-- A span of whole days, if its seconds fit into 64 bits. -/
def ofDays? (days : UInt64) : Option Span :=
  let seconds := days.toNat * 86400
  if seconds < UInt64.size then some (ofSeconds seconds.toUInt64) else none

/-- The span of the given seconds and nanoseconds, of which the latter may exceed a second; `none`
if the whole seconds do not fit into 64 bits. -/
def ofParts? (seconds : UInt64) (nanos : Nat) : Option Span :=
  let total := seconds.toNat + nanos / 1000000000
  if total < UInt64.size then
    some ⟨total.toUInt64, nanos % 1000000000, Nat.mod_lt _ (by decide)⟩
  else none

def totalNanos (s : Span) : Nat := s.seconds.toNat * 1000000000 + s.nanos

def millis (s : Span) : Nat := s.seconds.toNat * 1000 + s.nanos / 1000000

end Span

/-- An instant, in nanoseconds since the start of 1970. -/
structure Instant where
  nanos : Int
  deriving Repr, DecidableEq

namespace Instant

/-- Whole milliseconds since the start of 1970, the fraction dropped, in 64 bits. -/
def millis (t : Instant) : Int64 := Int64.ofInt (t.nanos / 1000000)

/-- The first instant of the calendar: the start of the year -262143. -/
def calendarStart : Instant := ⟨-8334601228800 * 1000000000⟩

/-- The instant that lies `nanos` nanoseconds earlier, if the calendar has it. -/
def earlier? (t : Instant) (nanos : Nat) : Option Instant :=
  let nanos := t.nanos - nanos
  if calendarStart.nanos ≤ nanos then some ⟨nanos⟩ else none

/-- The start of the year 2000, from which stored instants are counted. -/
def storageStart : Instant := ⟨946684800 * 1000000000⟩

/-- An instant as it is stored: in microseconds, rounded toward the start of the year 2000. -/
def stored (t : Instant) : Int := (t.nanos - storageStart.nanos).tdiv 1000

end Instant

end BlindSign

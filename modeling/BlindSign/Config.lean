import BlindSign.Admission
import BlindSign.Time

set_option autoImplicit false

/-! # Configuration of signing

What an operator may choose about signing: how large a request may be, how far its timestamp may be
off, and how long records of requests are kept. What is not chosen depends on how the service is
built.
-/

namespace BlindSign

/-- How the service is built. -/
inductive Build
  | development
  | release
  deriving Repr, DecidableEq

structure Config where
  /-- A request must have fewer bytes. -/
  maxRequestBytes : UInt64
  /-- How far a timestamp may lie from the present. -/
  timestampWindow : Span
  /-- How long records of requests are kept. -/
  retention : Span
  deriving Repr, DecidableEq

namespace Config

/-- 4096 bytes, five minutes and thirty days. -/
def standard : Config := ⟨4096, .ofSeconds 300, .ofSeconds 2592000⟩

/-- For development, a timestamp may be an hour off. -/
def development : Config := { standard with timestampWindow := .ofSeconds 3600 }

/-- What is configured where nothing is chosen. -/
def ofBuild : Build → Config
  | .development => development
  | .release => standard

/-- The window in whole milliseconds, of which the low 64 bits are kept. -/
def windowMillis (c : Config) : Int64 := Int64.ofNat c.timestampWindow.millis

def limits (c : Config) : Limits := ⟨c.maxRequestBytes, c.windowMillis⟩

/-- The longest body that is read at all: four times the size that a request must stay below, or
the greatest 64-bit number if that is less. -/
def bodyLimit (c : Config) : UInt64 :=
  if 4 * c.maxRequestBytes.toNat < UInt64.size then 4 * c.maxRequestBytes else 0xFFFFFFFFFFFFFFFF

end Config

end BlindSign

import BlindSign.Numeral

set_option autoImplicit false

/-! # Internet addresses

Addresses of both versions and socket addresses, with their text forms. A version 4 address is
written as four decimal octets; a version 6 address as eight hexadecimal groups, of which the
longest run of at least two zero groups, the first of equal ones, is written as `::`. An address
that embeds a version 4 address is written with that address at its end.
-/

namespace BlindSign.Net

/-- A version 4 address, by its octets. -/
structure V4Address where
  /-- The octets from the most significant one. -/
  (a b c d : UInt8)
  deriving Repr, DecidableEq

/-- A version 6 address, by its eight groups. -/
structure V6Address where
  /-- The groups from the most significant one. -/
  groups : List UInt16
  /-- There are eight groups. -/
  length_groups : groups.length = 8
  deriving Repr, DecidableEq

inductive Address
  | v4 (address : V4Address)
  | v6 (address : V6Address)
  deriving Repr, DecidableEq

/-- An address with a port, and for version 6 the number of the zone, zero meaning none. -/
inductive SocketAddress
  | v4 (address : V4Address) (port : UInt16)
  | v6 (address : V6Address) (port : UInt16) (zone : UInt32)
  deriving Repr, DecidableEq

def V6Address.ofGroups? (groups : List UInt16) : Option V6Address :=
  if h : groups.length = 8 then some ⟨groups, h⟩ else none

/-! ## Writing -/

def V4Address.chars (x : V4Address) : List Char :=
  Numeral.naturalChars x.a.toNat ++ '.' :: Numeral.naturalChars x.b.toNat ++
    '.' :: Numeral.naturalChars x.c.toNat ++ '.' :: Numeral.naturalChars x.d.toNat

/-- A group in lower-case hexadecimal without leading zeros. -/
def groupChars (g : UInt16) : List Char := Nat.toDigits 16 g.toNat

def joinGroups : List UInt16 → List Char
  | [] => []
  | [g] => groupChars g
  | g :: rest => groupChars g ++ ':' :: joinGroups rest

/-- A run of zero groups: where it starts and how long it is. -/
structure ZeroRun where
  start : Nat
  length : Nat
  deriving Repr, DecidableEq

/-- The longest run of zero groups, the first of equal ones. `index` groups lie before `groups`,
`current` is the run that ends just before them and `longest` the longest so far. -/
def longestZeroRun (index : Nat) (current longest : ZeroRun) : List UInt16 → ZeroRun
  | [] => longest
  | g :: rest =>
    if g = 0 then
      let start := if current.length = 0 then index else current.start
      let current : ZeroRun := ⟨start, current.length + 1⟩
      longestZeroRun (index + 1) current
        -- only a longer run takes over, so the first of equal ones stays
        (if longest.length < current.length then current else longest) rest
    else
      longestZeroRun (index + 1) ⟨0, 0⟩ longest rest

/-- The version 4 address that a mapped address `::ffff:a.b.c.d` embeds. -/
def V6Address.mapped? (x : V6Address) : Option V4Address :=
  match x.groups with
  | [0, 0, 0, 0, 0, 0xFFFF, g, h] =>
    some ⟨(g.toNat / 256).toUInt8, (g.toNat % 256).toUInt8, (h.toNat / 256).toUInt8,
      (h.toNat % 256).toUInt8⟩
  | _ => none

/-- The shortest form of a version 6 address. -/
def V6Address.chars (x : V6Address) : List Char :=
  match x.mapped? with
  | some y => "::ffff:".toList ++ y.chars
  | none =>
    let run := longestZeroRun 0 ⟨0, 0⟩ ⟨0, 0⟩ x.groups
    if run.length ≥ 2 then
      joinGroups (x.groups.take run.start) ++
        ':' :: ':' :: joinGroups (x.groups.drop (run.start + run.length))
    else joinGroups x.groups

def Address.chars : Address → List Char
  | .v4 x => x.chars
  | .v6 x => x.chars

def Address.text (x : Address) : String := String.ofList x.chars

/-- The text form of a socket address; a version 6 address stands in brackets. -/
def SocketAddress.chars : SocketAddress → List Char
  | .v4 x port => x.chars ++ ':' :: Numeral.naturalChars port.toNat
  | .v6 x port zone =>
    let zoneChars := if zone = 0 then [] else '%' :: Numeral.naturalChars zone.toNat
    '[' :: x.chars ++ zoneChars ++ ']' :: ':' :: Numeral.naturalChars port.toNat

def SocketAddress.text (x : SocketAddress) : String := String.ofList x.chars

/-! ## Reading -/

/-- Read a number below `bound` from the digits in front; `most` limits how many there may be, and
`leadingZero` says whether a number of several digits may begin with a zero. -/
def readNumber (radix bound : Nat) (most : Option Nat) (leadingZero : Bool) (cs : List Char) :
    Option (Nat × List Char) :=
  let digits := cs.takeWhile fun c => (Numeral.digit? radix c).isSome
  let rest := cs.drop digits.length
  let value := digits.foldl (fun n c => n * radix + (Numeral.digit? radix c).getD 0) 0
  let tooMany := match most with
    | some m => decide (m < digits.length)
    | none => false
  let badZero := !leadingZero && digits.head? == some '0' && decide (1 < digits.length)
  if digits.isEmpty || tooMany || badZero || decide (bound ≤ value) then none
  else some (value, rest)

/-- Read an octet: one to three digits, with no leading zero. -/
def readOctet (cs : List Char) : Option (UInt8 × List Char) :=
  (readNumber 10 256 (some 3) false cs).map fun (n, rest) => (n.toUInt8, rest)

def readChar (c : Char) : List Char → Option (List Char)
  | d :: rest => if d = c then some rest else none
  | [] => none

def readV4 (cs : List Char) : Option (V4Address × List Char) := do
  let (a, cs) ← readOctet cs
  let cs ← readChar '.' cs
  let (b, cs) ← readOctet cs
  let cs ← readChar '.' cs
  let (c, cs) ← readOctet cs
  let cs ← readChar '.' cs
  let (d, cs) ← readOctet cs
  some (⟨a, b, c, d⟩, cs)

def readGroup (cs : List Char) : Option (UInt16 × List Char) :=
  (readNumber 16 65536 (some 4) true cs).map fun (n, rest) => (n.toUInt16, rest)

/-- Read the colon in front of every group but the first. -/
def readSeparator (isFirst : Bool) (cs : List Char) : Option (List Char) :=
  if isFirst then some cs else readChar ':' cs

/-- A sequence of groups read from the front of a text. -/
structure GroupsRead where
  /-- The groups, in order. -/
  groups : List UInt16
  /-- Whether the last two of them were written as a version 4 address. -/
  endsInV4 : Bool
  /-- What follows. -/
  rest : List Char

/-- Read as many groups as there are, up to `room`. Where two or more have room left, a version 4
address may stand for the last two. -/
def readGroups : (room : Nat) → (isFirst : Bool) → List Char → GroupsRead
  | 0, _, cs => ⟨[], false, cs⟩
  | room + 1, isFirst, cs =>
    let embedded := if room = 0 then none else (readSeparator isFirst cs).bind readV4
    match embedded with
    | some (x, rest) =>
      ⟨[(x.a.toNat * 256 + x.b.toNat).toUInt16, (x.c.toNat * 256 + x.d.toNat).toUInt16], true,
        rest⟩
    | none =>
      -- a text may end here: the colon is given back when no group follows it
      match (readSeparator isFirst cs).bind readGroup with
      | some (g, rest) =>
        let tail := readGroups room false rest
        ⟨g :: tail.groups, tail.endsInV4, tail.rest⟩
      | none => ⟨[], false, cs⟩

/-- Read a version 6 address: eight groups, or fewer with one `::` for at least one zero group. A
version 4 address may only stand at the end. -/
def readV6 (cs : List Char) : Option (V6Address × List Char) := do
  let head := readGroups 8 true cs
  if head.groups.length = 8 then
    let x ← V6Address.ofGroups? head.groups
    some (x, head.rest)
  -- nothing may follow an embedded address, not even a `::`
  else if head.endsInV4 then none
  else
    let cs ← readChar ':' head.rest
    let cs ← readChar ':' cs
    -- one group is kept free, as `::` stands for at least one
    let tail := readGroups (7 - head.groups.length) true cs
    let zeros := List.replicate (8 - head.groups.length - tail.groups.length) 0
    let x ← V6Address.ofGroups? (head.groups ++ zeros ++ tail.groups)
    some (x, tail.rest)

/-- Keep what was read if nothing follows. -/
def whole {α : Type} : Option (α × List Char) → Option α
  | some (x, []) => some x
  | _ => none

def Address.ofChars? (cs : List Char) : Option Address :=
  match readV4 cs with
  | some (x, rest) => whole (some (.v4 x, rest))
  | none => whole ((readV6 cs).map fun (x, rest) => (.v6 x, rest))

def Address.ofText? (s : String) : Option Address := Address.ofChars? s.toList

/-- Read a colon and a port; leading zeros are allowed. -/
def readPort (cs : List Char) : Option (UInt16 × List Char) := do
  let cs ← readChar ':' cs
  let (n, cs) ← readNumber 10 65536 none true cs
  some (n.toUInt16, cs)

/-- Read the number of a zone after a percent sign, if one stands in front. -/
def readZone (cs : List Char) : UInt32 × List Char :=
  match (readChar '%' cs).bind (readNumber 10 UInt32.size none true) with
  | some (n, rest) => (n.toUInt32, rest)
  | none => (0, cs)

def readSocketV6 (cs : List Char) : Option (SocketAddress × List Char) := do
  let cs ← readChar '[' cs
  let (x, cs) ← readV6 cs
  let (zone, cs) := readZone cs
  let cs ← readChar ']' cs
  let (port, cs) ← readPort cs
  some (.v6 x port zone, cs)

def readSocketV4 (cs : List Char) : Option (SocketAddress × List Char) := do
  let (x, cs) ← readV4 cs
  let (port, cs) ← readPort cs
  some (.v4 x port, cs)

def SocketAddress.ofChars? (cs : List Char) : Option SocketAddress :=
  match readSocketV4 cs with
  | some r => whole (some r)
  | none => whole (readSocketV6 cs)

def SocketAddress.ofText? (s : String) : Option SocketAddress :=
  SocketAddress.ofChars? s.toList

end BlindSign.Net

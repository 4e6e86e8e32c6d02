import BlindSign.Text.Utf8

set_option autoImplicit false

/-! # Strings in JSON text

What stands between the quotes of a JSON string, as raw bytes. Writing escapes quotes, backslashes
and the characters below U+0020 and nothing else. Reading undoes any escape; it refuses surrogates
that do not pair up and bytes that are not UTF-8, which the grammar of strings alone lets pass.
-/

namespace BlindSign.Json

/-- The raw bytes between the quotes of a string. -/
abbrev RawText := List UInt8

namespace RawText

def hexDigit? (b : UInt8) : Option Nat :=
  let n := b.toNat
  if 0x30 ≤ n && n ≤ 0x39 then some (n - 0x30)
  else if 0x61 ≤ n && n ≤ 0x66 then some (n - 0x61 + 10)
  else if 0x41 ≤ n && n ≤ 0x46 then some (n - 0x41 + 10)
  else none

def unit? (a b c d : UInt8) : Option Nat := do
  some ((((← hexDigit? a) * 16 + (← hexDigit? b)) * 16 + (← hexDigit? c)) * 16 + (← hexDigit? d))

/-- The byte that a letter after a backslash stands for. -/
def escaped? (b : UInt8) : Option UInt8 :=
  if b = 0x22 then some 0x22
  else if b = 0x5C then some 0x5C
  else if b = 0x2F then some 0x2F
  else if b = 0x62 then some 0x08
  else if b = 0x66 then some 0x0C
  else if b = 0x6E then some 0x0A
  else if b = 0x72 then some 0x0D
  else if b = 0x74 then some 0x09
  else none

/-! ## Scanning -/

/-- What the next byte of a string belongs to. -/
inductive Phase
  /-- To the text itself. -/
  | text
  /-- To an escape of which the backslash was read. -/
  | escape
  /-- To the hexadecimal digits of an escape, of which `after` more follow. -/
  | digits (after : Nat)

/-- Find the end of a string: the bytes up to the closing quote and what follows it. `seen` holds
the bytes read so far, the last one first. Control characters and malformed escapes have no place
in a string. -/
def scanFrom : Phase → List UInt8 → List UInt8 → Option (RawText × List UInt8)
  | _, _, [] => none
  | .text, seen, b :: rest =>
    if b = 0x22 then some (seen.reverse, rest)
    else if b = 0x5C then scanFrom .escape (b :: seen) rest
    else if b.toNat < 0x20 then none
    else scanFrom .text (b :: seen) rest
  | .escape, seen, b :: rest =>
    if b = 0x75 then scanFrom (.digits 3) (b :: seen) rest
    else if (escaped? b).isSome then scanFrom .text (b :: seen) rest
    else none
  | .digits after, seen, b :: rest =>
    if (hexDigit? b).isSome then
      scanFrom (match after with
        | 0 => .text
        | after + 1 => .digits after) (b :: seen) rest
    else none

/-- The string whose opening quote has been read, and what follows its closing quote. -/
def scan? (bs : List UInt8) : Option (RawText × List UInt8) := scanFrom .text [] bs

/-! ## Reading -/

/-- Whether a 16-bit unit is the first of a surrogate pair. -/
def isLead (n : Nat) : Bool := 0xD800 ≤ n && n ≤ 0xDBFF

/-- Whether a 16-bit unit is the second of a surrogate pair. -/
def isTrail (n : Nat) : Bool := 0xDC00 ≤ n && n ≤ 0xDFFF

/-- The 16-bit unit that four digits spell, and what follows them. -/
def nextUnit? : List UInt8 → Option (Nat × List UInt8)
  | a :: b :: c :: d :: rest => (unit? a b c d).map (·, rest)
  | _ => none

/-- The character that the digits after `\u` begin, and what follows it. The first unit of a
surrogate pair needs the escape of the second one after it. -/
def nextUnicode? (bs : List UInt8) : Option (Char × List UInt8) := do
  let (lead, rest) ← nextUnit? bs
  -- a second unit alone, and a first one without a second, are no characters
  if isTrail lead then none
  else if isLead lead then
    match rest with
    | 0x5C :: 0x75 :: rest => do
      let (trail, rest) ← nextUnit? rest
      if isTrail trail then
        (Text.Utf8.charOfCode? (0x10000 + (lead - 0xD800) * 0x400 + (trail - 0xDC00))).map (·, rest)
      else none
    | _ => none
  else (Text.Utf8.charOfCode? lead).map (·, rest)

/-- The bytes that an escape stands for, of which the backslash was read, and what follows it. -/
def nextEscaped? : List UInt8 → Option (List UInt8 × List UInt8)
  | [] => none
  | b :: rest =>
    if b = 0x75 then (nextUnicode? rest).map fun (c, rest) => (Text.Utf8.encodeChar c, rest)
    else (escaped? b).map fun c => ([c], rest)

/-- Replace escapes by the bytes of what they stand for. Each round reads a byte or an escape, so
`fuel` rounds suffice for as many bytes; `seen` holds the bytes so far, the last one first. -/
def unescapeFrom : Nat → List UInt8 → RawText → Option (List UInt8)
  | _, seen, [] => some seen.reverse
  | 0, _, _ :: _ => none
  | fuel + 1, seen, b :: rest =>
    if b = 0x5C then
      match nextEscaped? rest with
      | some (bytes, rest) => unescapeFrom fuel (bytes.reverse ++ seen) rest
      | none => none
    else unescapeFrom fuel (b :: seen) rest

def unescape? (raw : RawText) : Option (List UInt8) := unescapeFrom raw.length [] raw

/-- The text that raw bytes denote. -/
def decode? (raw : RawText) : Option String := (unescape? raw).bind Text.Utf8.decode?

/-! ## Writing -/

/-- The lower-case hexadecimal digit with a value below sixteen. -/
def digitByte (n : Nat) : UInt8 := (if n < 10 then 0x30 + n else 0x61 + (n - 10)).toUInt8

/-- A character as it is written between quotes. -/
def encodeChar (c : Char) : RawText :=
  if c = '"' then [0x5C, 0x22]
  else if c = '\\' then [0x5C, 0x5C]
  else if c.toNat < 0x20 then
    if c.toNat = 0x08 then [0x5C, 0x62]
    else if c.toNat = 0x09 then [0x5C, 0x74]
    else if c.toNat = 0x0A then [0x5C, 0x6E]
    else if c.toNat = 0x0C then [0x5C, 0x66]
    else if c.toNat = 0x0D then [0x5C, 0x72]
    else [0x5C, 0x75, 0x30, 0x30, digitByte (c.toNat / 16), digitByte (c.toNat % 16)]
  else Text.Utf8.encodeChar c

def encode (s : String) : RawText := s.toList.flatMap encodeChar

end RawText

end BlindSign.Json

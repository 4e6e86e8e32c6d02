import BlindSign.Text.Utf8

set_option autoImplicit false

/-! # Base64

The standard alphabet with padding. Reading is strict: the last group is padded to four
characters, its unused low bits are zero, and nothing else may stand in the text; so every byte
string has exactly one spelling. A reader that fails says where.
-/

namespace BlindSign.Encoding.Base64

/-- Why a text is not the base64 form of any bytes. -/
inductive Fault
  /-- `byte`, at offset `offset`, may not stand there. -/
  | badSymbol (byte : UInt8) (offset : Nat)
  /-- The text ends after `length` bytes, within a group that holds no whole byte. -/
  | badLength (length : Nat)
  /-- The last group is not padded to four characters. -/
  | badPadding
  /-- The last symbol, `byte` at offset `offset`, has bits that belong to no byte. -/
  | looseBits (byte : UInt8) (offset : Nat)
  deriving Repr, DecidableEq

def Fault.message : Fault → String
  | .badSymbol byte offset =>
    "Invalid symbol " ++ toString byte.toNat ++ ", offset " ++ toString offset ++ "."
  | .badLength length => "Invalid input length: " ++ toString length
  | .badPadding => "Invalid padding"
  | .looseBits byte offset =>
    "Invalid last symbol " ++ toString byte.toNat ++ ", offset " ++ toString offset ++ "."

/-! ## The alphabet -/

def pad : UInt8 := 0x3D

/-- The character for a value below 64: upper case, lower case, digits, `+` and `/`. -/
def symbolOf (n : Nat) : Char :=
  if n < 26 then Char.ofNat (0x41 + n)
  else if n < 52 then Char.ofNat (0x61 + (n - 26))
  else if n < 62 then Char.ofNat (0x30 + (n - 52))
  else if n = 62 then '+' else '/'

def value? (b : UInt8) : Option Nat :=
  let n := b.toNat
  if 0x41 ≤ n && n ≤ 0x5A then some (n - 0x41)
  else if 0x61 ≤ n && n ≤ 0x7A then some (n - 0x61 + 26)
  else if 0x30 ≤ n && n ≤ 0x39 then some (n - 0x30 + 52)
  else if n = 0x2B then some 62
  else if n = 0x2F then some 63
  else none

/-! ## Writing -/

/-- The characters for `bytes`: four for three bytes, the last group padded. -/
def encodeChars : List UInt8 → List Char
  | [] => []
  | [a] => [symbolOf (a.toNat / 4), symbolOf (a.toNat % 4 * 16), '=', '=']
  | [a, b] =>
    [symbolOf (a.toNat / 4), symbolOf (a.toNat % 4 * 16 + b.toNat / 16),
      symbolOf (b.toNat % 16 * 4), '=']
  | a :: b :: c :: rest =>
    symbolOf (a.toNat / 4) :: symbolOf (a.toNat % 4 * 16 + b.toNat / 16) ::
      symbolOf (b.toNat % 16 * 4 + c.toNat / 64) :: symbolOf (c.toNat % 64) :: encodeChars rest

def encode (bytes : List UInt8) : String := String.ofList (encodeChars bytes)

/-! ## Reading -/

def valueAt (offset : Nat) (b : UInt8) : Except Fault Nat :=
  match value? b with
  | some v => .ok v
  | none => .error (.badSymbol b offset)

/-- The first byte that two symbols spell. -/
def firstByte (v w : Nat) : UInt8 := UInt8.ofNat (v * 4 + w / 16)

/-- The second byte of a group, from its second and third symbol. -/
def secondByte (w x : Nat) : UInt8 := UInt8.ofNat (w % 16 * 16 + x / 4)

/-- The third byte of a group, from its third and fourth symbol. -/
def thirdByte (x y : Nat) : UInt8 := UInt8.ofNat (x % 4 * 64 + y)

/-- The symbols of the last group, read from left to right. -/
structure LastGroup where
  /-- Values of the symbols before the padding. -/
  values : List Nat
  /-- The last of these symbols. -/
  last : UInt8
  /-- How many padding characters follow. -/
  padding : Nat

/-- Read the last group, which begins at offset `start`; `index` bytes of it have been read into
`group`. Padding may not begin before the third character, and only padding may follow it. -/
def readLast (start : Nat) : Nat → LastGroup → List UInt8 → Except Fault LastGroup
  | _, group, [] => .ok group
  | index, group, b :: rest =>
    if b = pad then
      if index < 2 then .error (.badSymbol b (start + index))
      else readLast start (index + 1) { group with padding := group.padding + 1 } rest
    -- the padding was in the wrong place: it is reported where it began
    else if group.padding > 0 then
      .error (.badSymbol pad (start + group.values.length))
    else do
      let v ← valueAt (start + index) b
      readLast start (index + 1) { group with values := group.values ++ [v], last := b } rest

def decodeLast (start : Nat) (bytes : List UInt8) : Except Fault (List UInt8) := do
  let group ← readLast start 0 ⟨[], 0, 0⟩ bytes
  let count := group.values.length
  if !bytes.isEmpty && count < 2 then .error (.badLength (start + count))
  else if (count + group.padding) % 4 ≠ 0 then .error .badPadding
  else
    match group.values with
    | [v, w, x, y] => .ok [firstByte v w, secondByte w x, thirdByte x y]
    | [v, w, x] =>
      if x % 4 = 0 then .ok [firstByte v w, secondByte w x]
      else .error (.looseBits group.last (start + 2))
    | [v, w] =>
      if w % 16 = 0 then .ok [firstByte v w] else .error (.looseBits group.last (start + 1))
    | _ => .ok []

/-- Read all groups, the first of them at offset `start`. All but the last are four symbols. -/
def decodeGroups : Nat → List UInt8 → Except Fault (List UInt8)
  | start, a :: b :: c :: d :: e :: rest => do
    let v ← valueAt start a
    let w ← valueAt (start + 1) b
    let x ← valueAt (start + 2) c
    let y ← valueAt (start + 3) d
    -- a fifth byte follows, so this group is not the last one and no padding may stand in it
    let tail ← decodeGroups (start + 4) (e :: rest)
    .ok (firstByte v w :: secondByte w x :: thirdByte x y :: tail)
  | start, bytes => decodeLast start bytes

/-- A lone byte after the last full group that could stand in no group at all. It is reported
before anything else. -/
def strayByte? (bytes : List UInt8) : Option UInt8 :=
  if bytes.length % 4 = 1 then
    match bytes.getLast? with
    | some b => if b ≠ pad && (value? b).isNone then some b else none
    | none => none
  else none

def decodeBytes (bytes : List UInt8) : Except Fault (List UInt8) :=
  match strayByte? bytes with
  | some b => .error (.badSymbol b (bytes.length - 1))
  | none => decodeGroups 0 bytes

def decode (s : String) : Except Fault (List UInt8) := decodeBytes (Text.Utf8.encode s)

end BlindSign.Encoding.Base64

set_option autoImplicit false

/-! # UTF-8

Texts as bytes and back. Encoding writes each character in its shortest form; decoding accepts
exactly the bytes that encoding writes: no overlong form, no surrogate, nothing above U+10FFFF.
-/

namespace BlindSign.Text.Utf8

def encodeChar (c : Char) : List UInt8 := String.utf8EncodeChar c

def encodeChars (cs : List Char) : List UInt8 := cs.flatMap encodeChar

def encode (s : String) : List UInt8 := encodeChars s.toList

/-- The character with code point `n`; surrogates and numbers above U+10FFFF have none. -/
def charOfCode? (n : Nat) : Option Char :=
  if h : n.isValidChar then some (Char.ofNatAux n h) else none

/-- The six bits that a continuation byte carries. -/
def tail? (b : UInt8) : Option Nat :=
  if b.toNat / 64 = 2 then some (b.toNat % 64) else none

/-- The character with code point `n`, if `n` is at least `least`: a smaller one would have been
written with fewer bytes. -/
def atLeast? (least n : Nat) : Option Char :=
  if least ≤ n then charOfCode? n else none

/-- The first character of `bytes` and what follows it. -/
def next? : List UInt8 → Option (Char × List UInt8)
  | [] => none
  | a :: rest =>
    let lead := a.toNat
    if lead < 0x80 then
      (charOfCode? lead).map (·, rest)
    -- the leading ones of the first byte tell how many bytes there are
    else if lead / 32 = 6 then
      match rest with
      | b :: rest => do
        let c ← atLeast? 0x80 (lead % 32 * 64 + (← tail? b))
        some (c, rest)
      | _ => none
    else if lead / 16 = 14 then
      match rest with
      | b :: c :: rest => do
        let c ← atLeast? 0x800 ((lead % 16 * 64 + (← tail? b)) * 64 + (← tail? c))
        some (c, rest)
      | _ => none
    else if lead / 8 = 30 then
      match rest with
      | b :: c :: d :: rest => do
        let c ← atLeast? 0x10000
          (((lead % 8 * 64 + (← tail? b)) * 64 + (← tail? c)) * 64 + (← tail? d))
        some (c, rest)
      | _ => none
    else
      none

/-- Decode with at most `fuel` characters still to read; `seen` holds those read so far, the
last one first. -/
def decodeFrom : Nat → List Char → List UInt8 → Option (List Char)
  | _, seen, [] => some seen.reverse
  -- a character takes at least one byte, so the length of the text is enough fuel
  | 0, _, _ :: _ => none
  | fuel + 1, seen, b :: rest =>
    match next? (b :: rest) with
    | some (c, rest) => decodeFrom fuel (c :: seen) rest
    | none => none

/-- The characters that `bytes` spell, if they are UTF-8. -/
def decodeChars? (bytes : List UInt8) : Option (List Char) :=
  decodeFrom bytes.length [] bytes

def decode? (bytes : List UInt8) : Option String :=
  (decodeChars? bytes).map String.ofList

end BlindSign.Text.Utf8

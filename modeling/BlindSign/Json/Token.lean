import BlindSign.Json.Number
import BlindSign.Json.StringText

set_option autoImplicit false

/-! # Tokens of JSON text

The smallest meaningful pieces of JSON text: brackets, separators, names, numbers and strings. White
space (space, tab, line feed, carriage return) may stand between any two of them.
-/

namespace BlindSign.Json

/-- A piece of JSON text. -/
inductive Token
  | openObject
  | closeObject
  | openArray
  | closeArray
  | colon
  | comma
  | null
  | bool (value : Bool)
  | number (spelling : NumberText)
  | text (raw : RawText)
  deriving Repr, DecidableEq

namespace Token

def isSpace (b : UInt8) : Bool := b = 0x20 || b = 0x09 || b = 0x0A || b = 0x0D

def bytes : Token → List UInt8
  | openObject => [0x7B]
  | closeObject => [0x7D]
  | openArray => [0x5B]
  | closeArray => [0x5D]
  | colon => [0x3A]
  | comma => [0x2C]
  | null => [0x6E, 0x75, 0x6C, 0x6C]
  | bool true => [0x74, 0x72, 0x75, 0x65]
  | bool false => [0x66, 0x61, 0x6C, 0x73, 0x65]
  | number spelling => spelling.bytes
  | text raw => 0x22 :: raw ++ [0x22]

/-- The token in front of `bs`, where no white space stands, and what follows it. -/
def next? (bs : List UInt8) : Option (Token × List UInt8) :=
  match bs with
  | 0x7B :: rest => some (openObject, rest)
  | 0x7D :: rest => some (closeObject, rest)
  | 0x5B :: rest => some (openArray, rest)
  | 0x5D :: rest => some (closeArray, rest)
  | 0x3A :: rest => some (colon, rest)
  | 0x2C :: rest => some (comma, rest)
  | 0x22 :: rest => (RawText.scan? rest).map fun (raw, rest) => (text raw, rest)
  | 0x6E :: 0x75 :: 0x6C :: 0x6C :: rest => some (null, rest)
  | 0x74 :: 0x72 :: 0x75 :: 0x65 :: rest => some (bool true, rest)
  | 0x66 :: 0x61 :: 0x6C :: 0x73 :: 0x65 :: rest => some (bool false, rest)
  | _ => (NumberText.next? bs).map fun (spelling, rest) => (number spelling, rest)

/-- Split a text into tokens. Each round reads a byte of white space or a token, so `fuel` rounds
suffice for as many bytes; `seen` holds the tokens so far, the last one first. -/
def scanFrom : Nat → List Token → List UInt8 → Option (List Token)
  | _, seen, [] => some seen.reverse
  | 0, _, _ :: _ => none
  | fuel + 1, seen, b :: rest =>
    if isSpace b then scanFrom fuel seen rest
    else
      match next? (b :: rest) with
      | some (token, rest) => scanFrom fuel (token :: seen) rest
      | none => none

def scan? (bs : List UInt8) : Option (List Token) := scanFrom bs.length [] bs

end Token

end BlindSign.Json

import BlindSign.Json.Token

set_option autoImplicit false

/-! # JSON text as a tree

The structure of a JSON text with its numbers and strings as they are spelled. Reading a tree checks
the grammar and nothing else: a number of any size, a string with any bytes and any depth of nesting
pass. What they denote is decided where a member is looked at.

A tree is put together from tokens one at a time, with the containers that are still open on a
stack, so that deeply nested text needs no deep recursion.
-/

namespace BlindSign.Json

/-- A JSON text, with numbers and strings as they are spelled. -/
inductive Tree
  | null
  | bool (value : Bool)
  | number (spelling : NumberText)
  | text (raw : RawText)
  | array (items : List Tree)
  | object (members : List (RawText × Tree))
  deriving Inhabited

namespace Tree

/-! ## Writing -/

mutual

def tokens : Tree → List Token
  | null => [.null]
  | bool value => [.bool value]
  | number spelling => [.number spelling]
  | text raw => [.text raw]
  | array items => .openArray :: itemTokens items ++ [.closeArray]
  | object members => .openObject :: memberTokens members ++ [.closeObject]

/-- The tokens of items, with commas between them. -/
def itemTokens : List Tree → List Token
  | [] => []
  | [item] => tokens item
  | item :: rest => tokens item ++ .comma :: itemTokens rest

/-- The tokens of members, with commas between them. -/
def memberTokens : List (RawText × Tree) → List Token
  | [] => []
  | [(key, value)] => .text key :: .colon :: tokens value
  | (key, value) :: rest => .text key :: .colon :: tokens value ++ .comma :: memberTokens rest

end

/-- The compact text of a tree, without white space between tokens. -/
def render (t : Tree) : List UInt8 := t.tokens.flatMap Token.bytes

/-! ## Reading -/

/-- A container that is open around the value being read. Its parts are held the last one first. -/
inductive Frame
  /-- An array with the items read so far. -/
  | array (items : List Tree)
  /-- An object with the members read so far, and the key of the value being read. -/
  | object (members : List (RawText × Tree)) (key : RawText)

/-- What has been read most recently, and so what may come next. -/
inductive Position
  /-- A value must come. -/
  | value
  /-- An array was opened: an item or the end must come. -/
  | firstItem
  /-- An object was opened: a key or the end must come. -/
  | firstKey
  /-- A comma was read in an object with these members: a key must come. -/
  | key (members : List (RawText × Tree))
  /-- A key was read: a colon must come. -/
  | colon (members : List (RawText × Tree)) (key : RawText)
  /-- A value was completed: a comma or the end of its container must come. -/
  | after (tree : Tree)

/-- The containers around the place that reading has reached, the innermost first, and the position
there. -/
structure Cursor where
  frames : List Frame
  position : Position

def Cursor.beginValue (frames : List Frame) : Token → Option Cursor
  | .null => some ⟨frames, .after .null⟩
  | .bool value => some ⟨frames, .after (.bool value)⟩
  | .number spelling => some ⟨frames, .after (.number spelling)⟩
  | .text raw => some ⟨frames, .after (.text raw)⟩
  | .openArray => some ⟨.array [] :: frames, .firstItem⟩
  | .openObject => some ⟨frames, .firstKey⟩
  | _ => none

def Cursor.afterValue (frames : List Frame) (tree : Tree) (token : Token) : Option Cursor :=
  match frames, token with
  | .array items :: outer, .comma => some ⟨.array (tree :: items) :: outer, .value⟩
  | .array items :: outer, .closeArray =>
    some ⟨outer, .after (.array (tree :: items).reverse)⟩
  | .object members key :: outer, .comma => some ⟨outer, .key ((key, tree) :: members)⟩
  | .object members key :: outer, .closeObject =>
    some ⟨outer, .after (.object ((key, tree) :: members).reverse)⟩
  | _, _ => none

def Cursor.step (c : Cursor) (token : Token) : Option Cursor :=
  match c.position with
  | .value => Cursor.beginValue c.frames token
  | .firstItem =>
    match c.frames, token with
    -- the frame was pushed when the array was opened, and is dropped here
    | .array [] :: outer, .closeArray => some ⟨outer, .after (.array [])⟩
    | _, _ => Cursor.beginValue c.frames token
  | .firstKey =>
    match token with
    | .closeObject => some ⟨c.frames, .after (.object [])⟩
    | .text key => some ⟨c.frames, .colon [] key⟩
    | _ => none
  | .key members =>
    match token with
    | .text key => some ⟨c.frames, .colon members key⟩
    | _ => none
  | .colon members key =>
    match token with
    | .colon => some ⟨.object members key :: c.frames, .value⟩
    | _ => none
  | .after tree => Cursor.afterValue c.frames tree token

/-- The tree that is complete when a text ends here. -/
def Cursor.finish (c : Cursor) : Option Tree :=
  match c.frames, c.position with
  | [], .after tree => some tree
  | _, _ => none

def ofTokens? (ts : List Token) : Option Tree :=
  (ts.foldlM Cursor.step ⟨[], .value⟩).bind Cursor.finish

def parse? (bs : List UInt8) : Option Tree := (Token.scan? bs).bind ofTokens?

end Tree

end BlindSign.Json

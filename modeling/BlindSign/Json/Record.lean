import BlindSign.Json.Tree

set_option autoImplicit false

/-! # Records in JSON text

Reading a record with known keys from a tree. A record is an object with each known key at most
once, in any order and among any other members, or an array of the members in the order of the
keys, of which the last ones may be missing. Members under other keys are not looked at; only their
keys must be texts.
-/

namespace BlindSign.Json

/-- The members of a record in the order of its keys, `none` for an absent one. -/
abbrev Slots := List (Option Tree)

namespace Slots

/-- Put a member into its slot. A slot takes one member; an unknown key has no slot. -/
def fill : List String → String → Tree → Slots → Option Slots
  | k :: keys, key, tree, slot :: slots =>
    if k = key then
      match slot with
      | none => some (some tree :: slots)
      -- a known key twice
      | some _ => none
    else (fill keys key tree slots).map (slot :: ·)
  | _, _, _, slots => some slots

def fillMember (keys : List String) (slots : Slots) (member : RawText × Tree) : Option Slots := do
  let key ← member.1.decode?
  fill keys key member.2 slots

/-- The members of a record with the given keys. -/
def ofTree? (keys : List String) : Tree → Option Slots
  | .object members => members.foldlM (fillMember keys) (keys.map fun _ => none)
  | .array items =>
    if items.length ≤ keys.length then
      some (items.map some ++ List.replicate (keys.length - items.length) none)
    else none
  | _ => none

end Slots

/-! ## Members -/

namespace Tree

def text? : Tree → Option String
  | .text raw => raw.decode?
  | _ => none

def int64? : Tree → Option Int64
  | .number spelling => spelling.int64?
  | _ => none

def bool? : Tree → Option Bool
  | .bool value => some value
  | _ => none

end Tree

/-- Read a member that must be present. -/
def required {α : Type} (read : Tree → Option α) (slot : Option Tree) : Option α :=
  slot.bind read

/-- Read a member that may be absent; `null` counts as absent. -/
def optional {α : Type} (read : Tree → Option α) : Option Tree → Option (Option α)
  | none => some none
  -- `null` stands for an absent member, whatever else could be read from it
  | some .null => some none
  | some tree => (read tree).map some

/-! ## Writing -/

def member (key : String) (tree : Tree) : RawText × Tree := (RawText.encode key, tree)

def Tree.ofText (s : String) : Tree := .text (RawText.encode s)

def Tree.ofInt64 (n : Int64) : Tree := .number (.ofInt n.toInt)

/-- The tree of an optional member, `null` if it is absent. -/
def Tree.orNull {α : Type} (write : α → Tree) : Option α → Tree
  | none => .null
  | some a => write a

/-- An optional member, left out if it is absent. -/
def optionalMember {α : Type} (key : String) (write : α → Tree) :
    Option α → List (RawText × Tree)
  | none => []
  | some a => [member key (write a)]

end BlindSign.Json

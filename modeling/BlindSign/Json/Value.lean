import BlindSign.Json.Tree
import BlindSign.Text.Characters

set_option autoImplicit false

/-! # JSON values

What a JSON text denotes when all of it is looked at: numbers are integers of 64 bits or binary64
numbers, strings are texts, and an object maps keys to values. The fields of an object are kept in
the order of their keys, so two objects with the same fields are equal.
-/

namespace BlindSign.Json

/-- A JSON value. The fields of an object are sorted by key, with no key repeated. -/
inductive Value
  | null
  | bool (value : Bool)
  | integer (value : Int)
  | float (value : Binary64)
  | text (value : String)
  | array (items : List Value)
  | object (fields : List (String × Value))
  deriving Inhabited

abbrev Fields := List (String × Value)

namespace Fields

/-- Set a field, replacing the one with the same key if there is one. -/
def insert (key : String) (value : Value) : Fields → Fields
  | [] => [(key, value)]
  | (k, v) :: rest =>
    if k < key then (k, v) :: insert key value rest
    else if k = key then (key, value) :: rest
    else (key, value) :: (k, v) :: rest

def get? (fields : Fields) (key : String) : Option Value := fields.lookup key

/-- The fields with the given entries set in order, so that the last entry of a key counts. -/
def ofList (entries : List (String × Value)) : Fields :=
  entries.foldl (fun fields e => insert e.1 e.2 fields) []

end Fields

namespace Value

/-! ## Reading -/

/-- The number that a spelling denotes: an integer if it is spelled as one and fits into 64 bits,
with or without a sign; a binary64 number otherwise, unless it is too great for one. -/
def ofNumber? (n : NumberText) : Option Value :=
  match n.integer? with
  | some value =>
    -- below zero 64 bits with a sign, from zero on 64 bits without
    if Int64.minValue.toInt ≤ value && value < UInt64.size then some (.integer value)
    else n.binary64?.map .float
  | none => n.binary64?.map .float

/-- The value that a tree denotes. At most `depth` containers may be open at once. A repeated key
counts with its last value. -/
def ofTree? : (depth : Nat) → Tree → Option Value
  | _, .null => some .null
  | _, .bool value => some (.bool value)
  | _, .number spelling => ofNumber? spelling
  | _, .text raw => raw.decode?.map .text
  | 0, .array _ => none
  | depth + 1, .array items => (items.mapM (ofTree? depth)).map .array
  | 0, .object _ => none
  | depth + 1, .object members =>
    (members.foldlM (fun (fields : Fields) (m : RawText × Tree) => do
      let key ← m.1.decode?
      let value ← ofTree? depth m.2
      some (Fields.insert key value fields)) []).map .object

/-- How many containers of a text may be open at once. -/
def depthLimit : Nat := 127

def parse? (bs : List UInt8) : Option Value := (Tree.parse? bs).bind (ofTree? depthLimit)

/-! ## Writing -/

mutual

/-- The tree of a value, with numbers and strings in their standard spelling. -/
def tree : Value → Tree
  | null => .null
  | bool value => .bool value
  | integer value => .number (.ofInt value)
  | float value => .number (.ofBinary64 value)
  | text value => .text (RawText.encode value)
  | array items => .array (itemTrees items)
  | object fields => .object (fieldTrees fields)

def itemTrees : List Value → List Tree
  | [] => []
  | item :: rest => tree item :: itemTrees rest

def fieldTrees : List (String × Value) → List (RawText × Tree)
  | [] => []
  | (key, value) :: rest => (RawText.encode key, tree value) :: fieldTrees rest

end

def render (v : Value) : List UInt8 := v.tree.render

/-- The field of an object; `null` counts as absent. -/
def field? (v : Value) (key : String) : Option Value :=
  match v with
  | .object fields =>
    match Fields.get? fields key with
    -- who writes `null` means that there is nothing
    | some .null => none
    | found => found
  | _ => none

end Value

/-! ## Inspecting

The form of a value that names its kind, as in `Object {"k": Number(1)}`, with strings quoted so
that every character can be told apart. -/

def NumberText.text (n : NumberText) : String :=
  String.ofList (n.bytes.map fun b => Char.ofNat b.toNat)

namespace Value

mutual

/-- A value with its kind. -/
def inspect : Value → String
  | null => "Null"
  | bool true => "Bool(true)"
  | bool false => "Bool(false)"
  | integer value => "Number(" ++ (NumberText.ofInt value).text ++ ")"
  | float value => "Number(" ++ (NumberText.ofBinary64 value).text ++ ")"
  | text value => "String(" ++ Text.Quoted.text value ++ ")"
  | array items => "Array [" ++ inspectItems items ++ "]"
  | object fields => "Object \x7b" ++ inspectFields fields ++ "\x7d"

def inspectItems : List Value → String
  | [] => ""
  | [item] => inspect item
  | item :: rest => inspect item ++ ", " ++ inspectItems rest

def inspectFields : List (String × Value) → String
  | [] => ""
  | [(key, value)] => Text.Quoted.text key ++ ": " ++ inspect value
  | (key, value) :: rest =>
    Text.Quoted.text key ++ ": " ++ inspect value ++ ", " ++ inspectFields rest

end

end Value

end BlindSign.Json

import BlindSign.Json.Value
import BlindSign.Json.Record
import BlindSign.Numeral
import BlindSign.Text.Utf8

set_option autoImplicit false

/-! # Remote calls to a chain node

Calls in JSON-RPC over HTTP. A call fails in transport if there is no answer, if its status reports
an error, or if its body is no response object; it fails at the node if the response carries an
error; and it is malformed if the result is absent or not of the kind that was asked for.
-/

namespace BlindSign.Rpc

structure Call where
  /-- The number of the call, from one for each client. -/
  id : Nat
  method : String
  params : Json.Value

def Call.body (c : Call) : List UInt8 :=
  Json.Tree.render (.object [Json.member "jsonrpc" (.ofText "2.0"),
    Json.member "id" (.number (.ofInt c.id)), Json.member "method" (.ofText c.method),
    Json.member "params" c.params.tree])

/-- What comes back for a call. -/
inductive Reply
  /-- No connection was made, so nothing was sent. -/
  | unreachable
  /-- The connection was closed without an answer. -/
  | dropped
  /-- An answer with a status and a body. -/
  | answered (status : Nat) (body : List UInt8)
  deriving Repr, DecidableEq

/-- A node, as seen by its callers: what comes back for each call. -/
abbrev Node := Call → Reply

/-- A node that no connection reaches. -/
def Node.unreachable : Node := fun _ => .unreachable

/-- Why a call has no result. -/
inductive Fault
  /-- There is no usable answer. -/
  | transport
  /-- The node reports an error. -/
  | node (code : Int64) (message : String)
  /-- The result is not what was asked for. -/
  | malformed (reason : String)
  deriving Repr, DecidableEq

def Fault.message : Fault → String
  | .transport => "RPC transport error"
  | .node code message =>
    "RPC error " ++ String.ofList (Numeral.integerChars code.toInt) ++ ": " ++ message
  | .malformed reason => "Malformed RPC response: " ++ reason

/-! ## Responses -/

structure NodeError where
  code : Int64
  message : String
  deriving Repr, DecidableEq

structure Response where
  result : Option Json.Value
  error : Option NodeError

def NodeError.ofTree? (tree : Json.Tree) : Option NodeError := do
  match ← Json.Slots.ofTree? ["code", "message"] tree with
  | [code, message] =>
    some ⟨← Json.required Json.Tree.int64? code, ← Json.required Json.Tree.text? message⟩
  | _ => none

/-- The response that a tree denotes. The container of the response counts toward the depth of the
result. -/
def Response.ofTree? (tree : Json.Tree) : Option Response := do
  match ← Json.Slots.ofTree? ["result", "error"] tree with
  | [result, error] =>
    some ⟨← Json.optional (Json.Value.ofTree? (Json.Value.depthLimit - 1)) result,
      ← Json.optional NodeError.ofTree? error⟩
  | _ => none

def Response.ofBody? (body : List UInt8) : Option Response :=
  (Json.Tree.parse? body).bind Response.ofTree?

def reportsError (status : Nat) : Bool := 400 ≤ status && status < 600

/-- Whether an answer with a status has a body: one that is informational, or tells that there is
no content or no change, has none. -/
def carriesBody (status : Nat) : Bool := 200 ≤ status && status ≠ 204 && status ≠ 304

/-- The response that an answer carries, unless its status reports an error. -/
def Reply.response? : Reply → Option Response
  | .answered status body =>
    if reportsError status || !carriesBody status then none else Response.ofBody? body
  | _ => none

/-- The result of a call, from what came back for it. An error wins over a result. -/
def Reply.result (method : String) (reply : Reply) : Except Fault Json.Value :=
  match reply.response? with
  | none => .error .transport
  | some ⟨_, some e⟩ => .error (.node e.code e.message)
  | some ⟨none, none⟩ => .error (.malformed (method ++ ": missing result"))
  | some ⟨some value, none⟩ => .ok value

/-- The kind of a value, with the value itself if it is short. -/
def kindOf : Json.Value → String
  | .null => "null"
  | .bool value => "boolean `" ++ toString value ++ "`"
  | .integer value => "integer `" ++ String.ofList (Numeral.integerChars value) ++ "`"
  | .float value => "floating point `" ++ (Json.NumberText.ofBinary64 value).text ++ "`"
  | .text _ => "string"
  | .array _ => "sequence"
  | .object _ => "map"

/-- The text that a value must be. -/
def expectText (method : String) : Json.Value → Except Fault String
  | .text s => .ok s
  | value =>
    .error (.malformed (method ++ ": invalid type: " ++ kindOf value ++ ", expected a string"))

/-! ## Clients -/

/-- A client of a node: the number of its next call, and the calls that were sent, the last one
first. -/
structure Client where
  nextId : Nat
  sent : List Call

def Client.fresh : Client := ⟨1, []⟩

def call (node : Node) (method : String) (params : Json.Value) :
    StateM Client (Except Fault Json.Value) := fun client =>
  let c : Call := ⟨client.nextId, method, params⟩
  let reply := node c
  -- a call that was not sent takes a number all the same
  let sent := if reply = .unreachable then client.sent else c :: client.sent
  (reply.result method, ⟨client.nextId + 1, sent⟩)

/-- Make a call whose result must be a text. -/
def callText (node : Node) (method : String) (params : Json.Value) :
    StateM Client (Except Fault String) := do
  let result ← call node method params
  -- the number of the call was used up, also if it failed
  return result.bind (expectText method)

/-! ## Quantities -/

/-- The number that a quantity spells: `0x` and hexadecimal digits, below `2 ^ 128`. A plus sign
may stand before the digits. -/
def parseQuantity (s : String) : Except Fault Nat :=
  match s.toList with
  | '0' :: 'x' :: digits =>
    if digits.isEmpty then .error (.malformed "empty quantity")
    else
      match Numeral.read 16 (.unsigned 128) digits with
      | .ok n => .ok n.toNat
      | .error fault => .error (.malformed ("bad quantity " ++ s ++ ": " ++ fault.message))
  | _ => .error (.malformed ("quantity without 0x prefix: " ++ s))

end BlindSign.Rpc

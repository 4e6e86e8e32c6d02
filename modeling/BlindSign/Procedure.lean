import BlindSign.Admission
import BlindSign.Chain
import BlindSign.Engine
import BlindSign.Metrics

set_option autoImplicit false

/-! # Procedures

What the service does with a request is a procedure: a tree whose nodes put a question to a
collaborator and go on with the reply. The tree says which questions are put, in which order, and
what becomes of the replies; who answers, and from which state, is left open. One procedure can so
be run against a live service, against fixed replies, or step by step among others.

Two questions may be put at once; then either reply may come first.
-/

namespace BlindSign

/-- A question or an order to a collaborator of the service. -/
inductive Call
  /-- Does the authorization prove that the caller owns the account? -/
  | authenticate (request : Admitted) (body : List UInt8) (authorization : Option String)
  /-- What is the quota of an account? -/
  | readQuota (account : Account) (phoneHash : Option PhoneHash)
  /-- What is the height of the chain? -/
  | readHeight
  /-- What is the key share? -/
  | loadKey
  /-- Sign a blinded query with a key share. -/
  | sign (query : BlindedQuery) (share : KeyShare)
  /-- Is a request on record? -/
  | findRecord (fingerprint : Fingerprint)
  /-- Record a request. -/
  | addRecord (request : Admitted)
  /-- Count a query of an account. -/
  | addCount (account : Account)

abbrev Call.Reply : Call → Type
  | authenticate _ _ _ => Bool
  | readQuota _ _ => Except QuotaFault Quota
  | readHeight => Except ChainFault Int64
  | loadKey => Except KeyFault KeyShare
  | sign _ _ => Except EngineFault PartialSignature
  | findRecord _ => Except StoreFault Bool
  | addRecord _ => Except StoreFault Unit
  | addCount _ => Except StoreFault Unit

/-- A course of calls and notes that ends with a result. -/
inductive Procedure (α : Type) : Type
  /-- End with a result. -/
  | finish (result : α)
  /-- Note an event for the metrics. -/
  | note (event : Metric) (next : Procedure α)
  /-- Make a call and go on with the reply. -/
  | ask (call : Call) (next : call.Reply → Procedure α)
  /-- Make two calls at once and go on with both replies. -/
  | askBoth (first second : Call) (next : first.Reply → second.Reply → Procedure α)

namespace Procedure

variable {α β : Type}

/-- Go on after a procedure with what its result asks for. -/
def andThen : Procedure α → (α → Procedure β) → Procedure β
  | finish result, f => f result
  | note event next, f => note event (next.andThen f)
  | ask call next, f => ask call fun reply => (next reply).andThen f
  | askBoth first second next, f => askBoth first second fun x y => (next x y).andThen f

instance : Monad Procedure where
  pure := finish
  bind := andThen

def noting (event : Metric) : Procedure Unit := note event (finish ())

def asking (call : Call) : Procedure call.Reply := ask call finish

def askingBoth (first second : Call) : Procedure (first.Reply × second.Reply) :=
  askBoth first second fun x y => finish (x, y)

/-- Pass a stage: carry out a procedure and note that the stage was left. -/
def timed (stage : Stage) (p : Procedure α) : Procedure α := do
  let result ← p
  noting (.stage stage)
  return result

/-! ## Running -/

/-- Run a procedure to its end. Of two calls made at once the first is answered first. -/
def run {m : Type → Type} [Monad m] (answer : (call : Call) → m call.Reply)
    (record : Metric → m Unit) : Procedure α → m α
  | finish result => pure result
  | note event next => do
    record event
    run answer record next
  | ask call next => do
    let reply ← answer call
    run answer record (next reply)
  | askBoth first second next => do
    -- the order is fixed here alone; what is proved of a procedure holds for both orders
    let x ← answer first
    let y ← answer second
    run answer record (next x y)

/-- The course that a procedure takes with fixed replies: the calls it makes, the events it notes,
and its result. -/
structure Course (α : Type) where
  calls : List Call
  events : List Metric
  result : α

def course (replies : (call : Call) → call.Reply) : Procedure α → Course α
  | finish result => ⟨[], [], result⟩
  | note event next =>
    let c := course replies next
    { c with events := event :: c.events }
  | ask call next =>
    let c := course replies (next (replies call))
    { c with calls := call :: c.calls }
  | askBoth first second next =>
    let c := course replies (next (replies first) (replies second))
    { c with calls := first :: second :: c.calls }

/-! ## Small laws -/

theorem andThen_finish (p : Procedure α) : p.andThen finish = p := by
  induction p with
  | finish result => rfl
  | note event next ih => simp only [andThen, ih]
  | ask call next ih => simp only [andThen, ih]
  | askBoth first second next ih => simp only [andThen, ih]

theorem andThen_assoc {γ : Type} (p : Procedure α) (f : α → Procedure β) (g : β → Procedure γ) :
    (p.andThen f).andThen g = p.andThen fun a => (f a).andThen g := by
  induction p with
  | finish result => rfl
  | note event next ih => simp only [andThen, ih]
  | ask call next ih => simp only [andThen, ih]
  | askBoth first second next ih => simp only [andThen, ih]

/-- Going on after a procedure is associative, and to finish with its result changes nothing. -/
instance : LawfulMonad Procedure :=
  LawfulMonad.mk' Procedure andThen_finish (fun _ _ => rfl) andThen_assoc

end Procedure

end BlindSign

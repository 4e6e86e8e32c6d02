import BlindSign.Curve.Bls12381
import BlindSign.Hash.Sha256
import BlindSign.Values

set_option autoImplicit false

/-! # Signature engines

An engine turns a blinded query and a key share into a partial signature. The engine of the service
multiplies the point of the query by the scalar of the share; a second one, for rehearsals, hashes
both.

A key share is configured as hexadecimal text and never shown.
-/

namespace BlindSign

/-! ## Key shares

The secret with which the service signs: a scalar below the order of the signature group, in 32
bytes. -/

/-- The bytes of a key share, the most significant one first. -/
structure KeyShare where
  /-- The bytes. -/
  bytes : List UInt8
  /-- There are 32 of them. -/
  length_bytes : bytes.length = 32
  deriving DecidableEq

/-- What is wrong with the text of a key share. -/
inductive KeyDefect
  /-- It is not hexadecimal. -/
  | notHex (fault : Encoding.Hex.Fault)
  /-- It has `count` bytes. -/
  | wrongLength (count : Nat)
  /-- Its value is not below the order of the group. -/
  | notScalar
  /-- It is refused with the given wording. -/
  | described (reason : String)
  deriving Repr, DecidableEq

/-- Why there is no key share. -/
inductive KeyFault
  /-- None is configured. -/
  | missing
  /-- The one configured is unusable. -/
  | malformed (defect : KeyDefect)
  deriving Repr, DecidableEq

def KeyDefect.message : KeyDefect → String
  | .notHex fault => fault.message
  | .wrongLength count => "expected 32 bytes, got " ++ toString count
  | .notScalar => "Invalid"
  | .described reason => reason

def KeyFault.message : KeyFault → String
  | .missing => "Key share is not configured"
  | .malformed defect => "Key share is malformed: " ++ defect.message

namespace KeyShare

def ofBytes? (bytes : List UInt8) : Option KeyShare :=
  if h : bytes.length = 32 then some ⟨bytes, h⟩ else none

/-- The scalar of a key share, if it is below the order of the group. -/
def scalar? (share : KeyShare) : Option Nat := Curve.Bls12381.scalar? share.bytes

/-- The key share that a text configures: between blank characters, 64 hexadecimal digits after at
most one mark, with a value below the order of the group. -/
def load (raw : String) : Except KeyFault KeyShare :=
  let trimmed := Text.trim raw
  if trimmed.isEmpty then .error .missing
  else
    match Encoding.Hex.decode trimmed with
    | .error fault => .error (.malformed (.notHex fault))
    | .ok bytes =>
      if h : bytes.length = 32 then
        let share : KeyShare := ⟨bytes, h⟩
        -- the zero scalar is below the order, and loads
        if share.scalar?.isSome then .ok share else .error (.malformed .notScalar)
      else .error (.malformed (.wrongLength bytes.length))

/-- The form in which a key share appears in logs, which does not depend on its bytes. -/
def inspect (_ : KeyShare) : String := "KeyShare(\"[REDACTED]\")"

end KeyShare

/-! ## Engines -/

/-- A partial signature, as base64. -/
structure PartialSignature where
  text : String
  deriving Repr, DecidableEq

/-- Why an engine produced no signature. -/
inductive EngineFault
  /-- The blinded query encodes no point of the group. -/
  | notPoint
  /-- The key share is not below the order of the group. -/
  | notScalar
  /-- Signing failed for the given reason. -/
  | failed (reason : String)
  deriving Repr, DecidableEq

def EngineFault.message : EngineFault → String
  | .notPoint => "blinded query is not a valid curve point"
  | .notScalar => "key share is not a valid scalar"
  | .failed reason => "Signing failed: " ++ reason

/-- A way of producing partial signatures. -/
abbrev Engine := BlindedQuery → KeyShare → Except EngineFault PartialSignature

def PartialSignature.ofBytes (bytes : List UInt8) : PartialSignature :=
  ⟨Encoding.Base64.encode bytes⟩

namespace Engine

/-- The engine of the service: the multiple of the query's point by the share's scalar. The point
is looked at before the scalar. -/
def bls : Engine := fun query share =>
  match Curve.Bls12381.decode? query.bytes with
  | none => .error .notPoint
  | some point =>
    match share.scalar? with
    | none => .error .notScalar
    | some n => .ok (.ofBytes (Curve.Bls12381.encode (point.multiple n)))

/-- An engine for rehearsals: the hash of the query's bytes and the share's bytes. -/
def digest : Engine := fun query share =>
  .ok (.ofBytes (Hash.Sha256.hash (query.bytes ++ share.bytes)))

end Engine

end BlindSign

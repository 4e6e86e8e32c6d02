import BlindSign.Config
import BlindSign.Procedure
import BlindSign.Refusal

set_option autoImplicit false

/-! # Signing

The procedure that grants or refuses a request. A request that is admitted and authenticated is
refused only if its quota was read and is exhausted, if there is no key share, or if the engine
fails; whatever else goes wrong is a warning on the grant.

A request that is on record is granted again but neither recorded nor counted. Between the reading
of the quota and the counting of the query other requests of the account may be granted.
-/

namespace BlindSign

/-- A request with what is needed to prove who sent it. -/
structure Submission where
  request : Request
  /-- The body as it was received. -/
  body : List UInt8
  /-- The authorization that came with it. -/
  authorization : Option String

namespace Signing

/-- What the chain and the ledger tell about an account, as far as they could be read. -/
structure Standing where
  /-- The quota, if it was read. -/
  quota : Option Quota
  /-- The height of the chain, or the number that stands for an unknown one. -/
  height : Int64
  /-- Whether both were read. -/
  isComplete : Bool

/-- What the replies about quota and height amount to. -/
def Standing.ofReplies (quota : Except QuotaFault Quota) (height : Except ChainFault Int64) :
    Standing :=
  ⟨quota.toOption, height.toOption.getD unknown, quota.isOk && height.isOk⟩

/-- The warnings that an incomplete reading leaves. -/
def Standing.warnings (s : Standing) : List Warning :=
  if s.isComplete then [] else [.chainUnread]

/-- Read quota and height. A failure is counted once, even if both fail. -/
def readStanding (request : Admitted) : Procedure Standing := do
  let standing ← Procedure.timed .quotaResolution do
    let (quota, height) ←
      Procedure.askingBoth (.readQuota request.account request.phoneHash) .readHeight
    return Standing.ofReplies quota height
  if !standing.isComplete then
    Procedure.noting .chainError
  return standing

/-- The quota that leaves no query, if it was read. -/
def Standing.exhausted? (s : Standing) : Option Quota := s.quota.filter Quota.isExhausted

/-- Load the key share and sign with it. -/
def produceSignature (query : BlindedQuery) : Procedure (Except Refusal PartialSignature) :=
  Procedure.timed .signature do
    match ← Procedure.asking .loadKey with
    | .error fault => return .error (.keyUnavailable fault)
    | .ok share =>
      match ← Procedure.asking (.sign query share) with
      | .error fault => return .error (.unsigned fault)
      | .ok signature => return .ok signature

/-- What became of the record and the count of a request. -/
structure Entry where
  warnings : List Warning
  /-- Whether the query was counted. -/
  isCounted : Bool

/-- Record a request and count its query. Both are tried, whatever becomes of the other. -/
def enter (request : Admitted) : Procedure Entry := do
  let (recorded, counted) ← Procedure.timed .persistence
    (Procedure.askingBoth (.addRecord request) (.addCount request.account))
  let warnings :=
    (if recorded.isOk then [] else [Warning.notRecorded]) ++
      (if counted.isOk then [] else [Warning.notCounted])
  return ⟨warnings, counted.isOk⟩

/-- Enter a request unless it is on record. If that cannot be told, it counts as new. -/
def enterOnce (request : Admitted) : Procedure Entry := do
  let found ← Procedure.asking (.findRecord request.fingerprint)
  -- a lookup that failed counts as one that found nothing
  if found.toOption.getD false then
    Procedure.noting .duplicate
    return ⟨[.duplicate], false⟩
  else
    enter request

/-- The quota that a grant reports: the one read, with this query added if it was counted. -/
def reportedQuota (quota : Option Quota) (isCounted : Bool) : Quota :=
  match quota with
  | none => .unread
  | some q => if isCounted then { q with performed := q.performed + 1 } else q

/-- What is done with a request that is admitted and authenticated. -/
def grant (request : Admitted) : Procedure (Except Refusal Grant) := do
  let standing ← readStanding request
  match standing.exhausted? with
  | some quota => return .error (.exhausted quota standing.height)
  | none =>
    -- an unread quota does not stop a request: only one that was read and is exhausted does
    match ← produceSignature request.query with
    | .error refusal => return .error refusal
    | .ok signature =>
      let entry ← enterOnce request
      return .ok {
        signature
        quota := reportedQuota standing.quota entry.isCounted
        height := standing.height
        warnings := standing.warnings ++ entry.warnings }

/-- What is done with a submission at the instant `now`, in milliseconds. -/
def procedure (limits : Limits) (now : Int64) (s : Submission) :
    Procedure (Except Refusal Grant) := do
  if s.request.sessionId.isNone then
    Procedure.noting .missingSession
  match Admitted.ofRequest limits now s.body.length s.request with
  | .error fault => return .error (.invalid fault)
  | .ok request =>
    let authentic ← Procedure.timed .authentication
      (Procedure.asking (.authenticate request s.body s.authorization))
    if authentic then grant request else return .error .unauthenticated

end Signing

end BlindSign

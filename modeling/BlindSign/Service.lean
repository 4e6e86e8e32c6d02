import BlindSign.Client
import BlindSign.Signing

set_option autoImplicit false

/-! # The service

The resources that the service answers for, and how it answers: submissions of requests, a sign of
life, and the page of metrics. A path is compared as it stands: case, doubled slashes and a slash at
the end count. A resource that is only read also answers to `HEAD`, with an empty body.
-/

namespace BlindSign

/-- A resource of the service. -/
inductive Resource
  | sign
  | status
  | metrics
  deriving Repr, DecidableEq

/-- The resources of a service by their paths. -/
abbrev Site := List (String × Resource)

/-- All resources, at the root. -/
def Site.standalone : Site := [("/sign", .sign), ("/status", .status), ("/metrics", .metrics)]

/-- The resources of signing, below the path of a larger service. -/
def Site.mounted : Site := [("/api/signer/sign", .sign), ("/api/signer/status", .status)]

def Resource.allow : Resource → String
  | .sign => "POST"
  | .status => "GET,HEAD"
  | .metrics => "GET,HEAD"

def Resource.admits (r : Resource) (method : String) : Bool :=
  match r with
  | .sign => method == "POST"
  | .status => method == "GET" || method == "HEAD"
  | .metrics => method == "GET" || method == "HEAD"

/-- What the service knows when it answers. -/
structure Service where
  config : Config
  site : Site
  /-- The longest body that is read; none if bodies of any length are. -/
  bodyLimit : Option UInt64
  /-- The instant of the request, in milliseconds since the start of 1970. -/
  now : Int64

namespace Service

/-- The length that the headers announce for the body. -/
def announcedLength (headers : Http.Headers) : Option Nat :=
  (headers.text? "content-length").bind fun s =>
    (Numeral.readDecimal (.unsigned 64) s).toOption.map Int.toNat

/-- Whether a body may be read. -/
def admitsLength (limit : Option UInt64) (length : Nat) : Bool :=
  limit.all fun limit => length ≤ limit.toNat

def readBody (limit : Option UInt64) (r : Http.Request) : Except RequestFault (List UInt8) :=
  match r.body with
  | .broken => .error .malformedBody
  | .complete bytes =>
    if admitsLength limit bytes.length then .ok bytes
    else .error (.tooLarge (limit.getD 0) ((announcedLength r.headers).getD 0))

/-- The submission that a request holds. -/
def readSubmission (limit : Option UInt64) (r : Http.Request) :
    Except RequestFault Submission := do
  let body ← readBody limit r
  match Request.ofBody? body with
  | some request => .ok ⟨request, body, (Client.ofHeaders r.headers none).authorization⟩
  | none => .error .malformedBody

def refusalResponse (r : Refusal) : Http.Response := .json r.kind.status r.failure.body

def outcomeResponse : Except Refusal Grant → Http.Response
  | .ok grant => .json 200 grant.answer.body
  | .error refusal => refusalResponse refusal

def outcome (s : Service) (r : Http.Request) : Procedure (Except Refusal Grant) :=
  match readSubmission s.bodyLimit r with
  | .ok submission => Signing.procedure s.config.limits s.now submission
  | .error fault => return .error (.invalid fault)

/-- Answer a submission. Each one is counted, and so is each answer by its status. -/
def answerSubmission (s : Service) (r : Http.Request) : Procedure Http.Response := do
  Procedure.noting .submission
  -- whatever happens, a submission ends in one response
  let response := outcomeResponse (← s.outcome r)
  Procedure.noting (.response response.status)
  return response

def statusResponse : Http.Response := .json 200 statusTree.render

def metricsResponse (log : Metrics) : Http.Response :=
  ⟨200, some "text/plain; version=0.0.4", none, Text.Utf8.encode log.page⟩

def wrongMethodResponse (r : Resource) : Http.Response := ⟨405, none, some r.allow, []⟩

def resource? (s : Service) (r : Http.Request) : Option Resource :=
  r.path?.bind fun path => s.site.lookup path

def unknownPathResponse : Http.Response := ⟨404, none, none, []⟩

/-- A response as it is sent for a method: none has a body for `HEAD`. -/
def trimBody (method : String) (r : Http.Response) : Http.Response :=
  if method = "HEAD" then { r with body := [] } else r

/-- Answer a request; `log` holds the events noted before it. -/
def answer (s : Service) (log : Metrics) (r : Http.Request) : Procedure Http.Response :=
  match s.resource? r with
  | none => return unknownPathResponse
  | some resource =>
    if resource.admits r.method then
      match resource with
      | .sign => s.answerSubmission r
      | .status => return trimBody r.method statusResponse
      | .metrics => return trimBody r.method (metricsResponse log)
    else return wrongMethodResponse resource

end Service

end BlindSign

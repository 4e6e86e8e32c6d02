set_option autoImplicit false

/-! # HTTP messages

Requests and responses as far as the service looks at them. Header names do not depend on case, and
of several headers with one name the first counts. A header is read as text only if all of it is
visible ASCII, spaces and tabs included.

A target has one of four forms: a path (`/status?a=b`), the absolute form that is sent to a proxy
(`http://host/status?a=b`), a bare authority (`host:80`), or `*`. The first two name a path, which
is the same in both: scheme, authority, query and fragment do not belong to it.
-/

namespace BlindSign.Http

/-- Headers in the order in which they were sent. -/
abbrev Headers := List (String × List UInt8)

inductive Body
  /-- All of it arrived. -/
  | complete (bytes : List UInt8)
  /-- It broke off. -/
  | broken
  deriving Repr, DecidableEq

structure Request where
  method : String
  /-- The target, as it stands in the request. -/
  target : String
  headers : Headers
  body : Body
  deriving Repr, DecidableEq

structure Response where
  status : Nat
  contentType : Option String
  /-- The methods that a resource knows, if the request had another one. -/
  allow : Option String
  body : List UInt8
  deriving Repr, DecidableEq

/-- Whether a byte may stand in a header that is read as text. -/
def isVisible (b : UInt8) : Bool := b.toNat = 0x09 || (0x20 ≤ b.toNat && b.toNat ≤ 0x7E)

/-- A name in lower case. Header names are ASCII. -/
def foldCase (name : String) : String := String.ofList (name.toList.map Char.toLower)

def Headers.first? (headers : Headers) (name : String) : Option (List UInt8) :=
  (headers.find? fun h => foldCase h.1 == foldCase name).map Prod.snd

/-- The text of the first header with a name, if it is visible. -/
def Headers.text? (headers : Headers) (name : String) : Option String :=
  (headers.first? name).bind fun value =>
    if value.all isVisible then
      some (String.ofList (value.map fun b => Char.ofNat b.toNat))
    else none

def endsPath (c : Char) : Bool := c == '?' || c == '#'

def endsAuthority (c : Char) : Bool := c == '/' || endsPath c

/-- What follows the scheme of a target in absolute form. -/
def afterScheme? (target : List Char) : Option (List Char) :=
  match target.dropWhile (· != ':') with
  | ':' :: '/' :: '/' :: rest => some rest
  | _ => none

/-- The path of a target in absolute form. An empty one is the root. -/
def absolutePath? (target : List Char) : Option (List Char) :=
  (afterScheme? target).map fun rest =>
    -- the authority goes up to the first slash, query or fragment
    match (rest.dropWhile (!endsAuthority ·)).takeWhile (!endsPath ·) with
    | [] => ['/']
    | path => path

/-- The path that a target names. A target that starts with a slash is not in absolute form,
whatever follows. -/
def targetPath? : List Char → Option (List Char)
  -- the first slash is kept, even where a fragment or a query follows at once
  | '/' :: rest => some ('/' :: rest.takeWhile (!endsPath ·))
  | target => absolutePath? target

def Request.path? (r : Request) : Option String :=
  (targetPath? r.target.toList).map String.ofList

def Response.json (status : Nat) (body : List UInt8) : Response :=
  ⟨status, some "application/json", none, body⟩

end BlindSign.Http

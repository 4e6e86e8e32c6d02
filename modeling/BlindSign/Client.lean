import BlindSign.Http
import BlindSign.Net.Address
import BlindSign.Text.Characters

set_option autoImplicit false

/-! # Clients

What the headers of a request tell about its client: the address, as a proxy forwards it or as the
connection has it, the authorization and the program.
-/

namespace BlindSign

/-- A client, as the headers of its request describe it. -/
structure Client where
  /-- The address. -/
  address : Option Net.Address
  /-- The authorization, without blank characters around it. -/
  authorization : Option String
  /-- The program, as it names itself. -/
  program : Option String
  deriving Repr, DecidableEq

namespace Client

def firstHop? (hops : String) : Option Net.Address :=
  Net.Address.ofChars? (Text.trimChars (hops.toList.takeWhile (· != ',')))

/-- The address of a client: the first hop if it is readable, or the address `direct` of the
connection. -/
def addressOf (headers : Http.Headers) (direct : Option Net.Address) : Option Net.Address :=
  match (headers.text? "x-forwarded-for").bind firstHop? with
  | some address => some address
  | none => direct

/-- The authorization that headers carry, unless it is blank. -/
def authorizationOf (headers : Http.Headers) : Option String :=
  ((headers.text? "authorization").map Text.trim).filter fun s => !s.isEmpty

def ofHeaders (headers : Http.Headers) (direct : Option Net.Address) : Client where
  address := addressOf headers direct
  authorization := authorizationOf headers
  program := headers.text? "user-agent"

def addressText (client : Client) : Option String := client.address.map Net.Address.text

end Client

end BlindSign

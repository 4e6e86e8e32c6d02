import BlindSign.Values
import BlindSign.Ledger.Database
import BlindSign.Quota
import BlindSign.Rpc

set_option autoImplicit false

/-! # Reading the chain

The three numbers that the service reads from a chain node: the height of the chain, and the
transactions and the balance of an account. A number is taken exactly or not at all.
-/

namespace BlindSign

/-- Why a number could not be read from the chain. -/
inductive ChainFault
  /-- The call failed. -/
  | rpc (fault : Rpc.Fault)
  /-- The number does not fit where it is needed. -/
  | outOfRange (what : String)
  deriving Repr, DecidableEq

def ChainFault.message : ChainFault → String
  | .rpc fault => fault.message
  | .outOfRange what => "Value out of range: " ++ what

/-- Why a quota could not be read. -/
inductive QuotaFault
  | ledger (fault : StoreFault)
  | chain (fault : ChainFault)
  deriving Repr, DecidableEq

def QuotaFault.message : QuotaFault → String
  | .ledger fault => "Ledger read failed: " ++ fault.message
  | .chain fault => "Chain read failed: " ++ fault.message

/-- The quota made of a count and an allowance. A fault of the ledger wins. -/
def Quota.combine (count : Except StoreFault Int64) (allowance : Except ChainFault Int64) :
    Except QuotaFault Quota :=
  match count, allowance with
  | .error fault, _ => .error (.ledger fault)
  | .ok _, .error fault => .error (.chain fault)
  | .ok performed, .ok total => .ok ⟨performed, total⟩

namespace Chain

def quantity (node : Rpc.Node) (method : String) (params : List Json.Value) :
    StateM Rpc.Client (Except ChainFault Nat) := do
  let result ← Rpc.callText node method (.array params)
  return (result.bind Rpc.parseQuantity).mapError .rpc

/-- The parameters of a call about the present state of an account. -/
def latest (a : Account) : List Json.Value := [.text a.text, .text "latest"]

/-- A height that fits into 64 bits with a sign. -/
def heightOf (n : Nat) : Except ChainFault Int64 :=
  if n ≤ Int64.maxValue.toInt then .ok (Int64.ofNat n)
  else .error (.outOfRange ("block number " ++ toString n))

def transactionsOf (n : Nat) : Except ChainFault UInt64 :=
  if n < UInt64.size then .ok (UInt64.ofNat n)
  else .error (.outOfRange ("transaction count " ++ toString n))

def height (node : Rpc.Node) : StateM Rpc.Client (Except ChainFault Int64) := do
  let n ← quantity node "eth_blockNumber" []
  return n.bind heightOf

def transactions (node : Rpc.Node) (a : Account) :
    StateM Rpc.Client (Except ChainFault UInt64) := do
  let n ← quantity node "eth_getTransactionCount" (latest a)
  return n.bind transactionsOf

def balance (node : Rpc.Node) (a : Account) : StateM Rpc.Client (Except ChainFault Nat) :=
  quantity node "eth_getBalance" (latest a)

/-- How many queries an account may make by a policy. Both numbers are asked for; if both fail, the
fault of the first counts. -/
def allowance (node : Rpc.Node) (policy : AllowancePolicy) (a : Account) :
    StateM Rpc.Client (Except ChainFault Int64) := do
  let sent ← transactions node a
  -- asked for even if the transactions could not be read
  let held ← balance node a
  return sent.bind fun sent => held.map fun held => policy.total sent held

end Chain

end BlindSign

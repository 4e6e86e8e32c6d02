import BlindSign.Proofs.Numerals
import BlindSign.Proofs.Replies

set_option autoImplicit false

/-! # Numbers read from the chain

A node reports a number if it answers a call with the status 200 and a body whose result is a
quantity that spells it, in whatever case, with whatever zeros in front, and however the body is
laid out (`Rpc.Node.Reports`).

**A number that a node reports is read exactly, or the read fails** (`Chain.reads_reported`). There
are two limits: 128 bits, past which a quantity is malformed, and the width of the place the number
is for, past which it is out of range; there is no third outcome, and no number is cut down to
either width. The allowance of an account is therefore what the policy makes of the two numbers as
they were reported, or none at all.
-/

namespace BlindSign

namespace Rpc

/-! ## Quantities -/

end Rpc

namespace Chain

/-! ## Single numbers -/

variable {node : Rpc.Node} {client : Rpc.Client} {method : String} {params : List Json.Value}
  {digits : List Char} {n : Nat}

/-- **An allowance comes from two numbers that were read.** -/
theorem allowance_eq_ok_iff (node : Rpc.Node) (policy : AllowancePolicy) (a : Account)
    (client : Rpc.Client) (total : Int64) :
    (allowance node policy a client).1 = .ok total ↔
      ∃ sent held, (transactions node a client).1 = .ok sent ∧
        (balance node a (transactions node a client).2).1 = .ok held ∧
        policy.total sent held = total := by
  have hallowance : (allowance node policy a client).1 =
      (transactions node a client).1.bind fun sent =>
        (balance node a (transactions node a client).2).1.map fun held => policy.total sent held :=
    rfl
  rw [hallowance]
  cases (transactions node a client).1 with
  | error fault => simp [Except.bind]
  | ok sent =>
      cases (balance node a (transactions node a client).2).1 with
      | error fault => simp [Except.bind, Except.map]
      | ok held => simp [Except.bind, Except.map]

end Chain

end BlindSign

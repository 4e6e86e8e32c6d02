set_option autoImplicit false

/-! # Quotas

How many queries an account has made and how many it may make. The number it may make follows from
its activity on the chain by a policy; sums and products that leave the range of 64 bits stop at its
ends.
-/

namespace BlindSign

/-- The number that stands for an unknown count or height. -/
def unknown : Int64 := -1

/-- How many queries an account has made and how many it may make. -/
structure Quota where
  performed : Int64
  total : Int64
  deriving Repr, DecidableEq

namespace Quota

/-- The quota that stands for one that could not be read. -/
def unread : Quota := ⟨unknown, unknown⟩

def isExhausted (q : Quota) : Bool := q.total ≤ q.performed

end Quota

/-- The 64-bit integer nearest to an integer. -/
def saturate (n : Int) : Int64 :=
  Int64.ofInt (max Int64.minValue.toInt (min Int64.maxValue.toInt n))

/-- How many queries an account may make, given its activity on the chain. -/
structure AllowancePolicy where
  /-- Queries that every account may make. -/
  base : Int64
  /-- Queries for each transaction sent. -/
  perTransaction : Int64
  /-- The balance below which an account may make none. -/
  minBalance : Nat
  deriving Repr, DecidableEq

namespace AllowancePolicy

/-- Ten queries, and ten for each transaction, whatever the balance. -/
def standard : AllowancePolicy := ⟨10, 10, 0⟩

/-- The number of queries allowed after `transactions` transactions with the given balance. -/
def total (p : AllowancePolicy) (transactions : UInt64) (balance : Nat) : Int64 :=
  if balance < p.minBalance then 0
  else
    -- each step stops at the ends of the range for itself
    let counted := saturate transactions.toNat
    let earned := saturate (counted.toInt * p.perTransaction.toInt)
    saturate (p.base.toInt + earned.toInt)

end AllowancePolicy

end BlindSign

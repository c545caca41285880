/-!
# Counts of 64 bits

Counts are words of 64 bits. Where a sum, a difference or a product has to be right, `Count.add`,
`Count.sub` and `Count.mul` refuse the result that does not fit instead of wrapping around.
-/

namespace LoadGenerator

/-- An operation whose result does not fit into 64 bits. -/
inductive Overflow where
  | add
  | subtract
  deriving DecidableEq, Repr

namespace Overflow

def message : Overflow → String
  | .add => "attempt to add with overflow"
  | .subtract => "attempt to subtract with overflow"

end Overflow

namespace Count

def max : UInt64 := UInt64.ofNat (UInt64.size - 1)

/-- The sum of two counts, if it fits. -/
def add (a b : UInt64) : Except Overflow UInt64 :=
  if a.toNat + b.toNat < UInt64.size then .ok (a + b) else .error .add

/-- The difference of two counts, if there is one. -/
def sub (a b : UInt64) : Except Overflow UInt64 :=
  if b ≤ a then .ok (a - b) else .error .subtract

/-- The product of two counts, if it fits. -/
def mul (a b : UInt64) : Option UInt64 :=
  if a.toNat * b.toNat < UInt64.size then some (a * b) else none

/-- The product of two counts, or the largest count where the product exceeds it. -/
def mulCapped (a b : UInt64) : UInt64 :=
  (mul a b).getD max

end Count

end LoadGenerator

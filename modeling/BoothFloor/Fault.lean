/-!
# Faults in the arithmetic

The words of a machine hold numbers up to a bound, and a sum or a product beyond it is a fault, at which the program
comes to an end. The operations here give the result or name the fault.
-/

namespace BoothFloor

/-- What can go wrong in a machine's arithmetic. -/
inductive Fault where
  | overflow
  | underflow
  | zeroDivisor
  | outOfRange
  deriving DecidableEq, Repr, Inhabited

namespace Fault

def reason : Fault → String
  | overflow => "a number does not fit its word"
  | underflow => "a difference is below zero"
  | zeroDivisor => "a number is divided by zero"
  | outOfRange => "a place is not there"

/-- What has gone wrong in a computation, if anything. -/
def of? {α : Type} : Except Fault α → Option Fault
  | .ok _ => none
  | .error fault => some fault

end Fault

namespace Checked

/-- The sum of two numbers in a word of `bits` bits. -/
def add (bits a b : Nat) : Except Fault Nat :=
  if a + b < Nat.pow 2 bits then .ok (a + b) else .error .overflow

/-- The product of two numbers in a word of `bits` bits. -/
def mul (bits a b : Nat) : Except Fault Nat :=
  if a * b < Nat.pow 2 bits then .ok (a * b) else .error .overflow

/-- After a result the computation goes on with it. -/
@[simp]
theorem ok_bind {α β : Type} (a : α) (next : α → Except Fault β) : (Except.ok a >>= next) = next a := rfl

end Checked

end BoothFloor

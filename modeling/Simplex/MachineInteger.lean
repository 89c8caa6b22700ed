/-!
# Machine integers

Integers have any size here, but positions in a list and doubles read as integers
are confined to a signed word of sixty-four bits.
-/

namespace Simplex.MachineInteger

/-- One more than the greatest machine integer; its negation is the least. -/
def bound : Nat := Nat.pow 2 63

/-- Whether an integer is a machine integer. -/
def holds (number : Int) : Bool := -(bound : Int) ≤ number ∧ number < bound

/-- The wording of the refusal of a position or a length that is no machine
integer. -/
def refusal : String := "cannot fit 'int' into an index-sized integer"

end Simplex.MachineInteger

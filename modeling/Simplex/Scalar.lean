import Simplex.Decimal.Nearest

/-!
# Scalars

The numbers a tableau is computed in. `Scalar` names operations and assumes no
law of them, so every algorithm stated over it runs unchanged in exact rational
arithmetic and in binary floating point, where sums are rounded, comparisons
can all fail, and the running minimum of a scan starts from infinity.
-/

namespace Simplex

/-- Arithmetic with decidable comparisons, an interpretation of decimal
numerals, and positive infinity where the scalars have one. -/
class Scalar (α : Type) extends Zero α, One α, Neg α, Add α, Sub α, Mul α, Div α, LT α,
    LE α where
  decideLT : DecidableLT α
  decideLE : DecidableLE α
  /-- The scalar that stands for a numeral, rounded if need be. -/
  ofDecimal : Decimal → α
  /-- The value above all finite ones, if the scalars have such a value. -/
  infinity : Option α

namespace Scalar

variable {α : Type} [Scalar α]

instance : DecidableLT α := Scalar.decideLT

instance : DecidableLE α := Scalar.decideLE

/-- The absolute value, up to the sign of a zero. -/
def magnitude (value : α) : α := if value < 0 then -value else value

/-- A value is unordered when it does not even compare with itself. -/
def Unordered (value : α) : Prop := ¬ value ≤ value

instance (value : α) : Decidable (Unordered value) :=
  inferInstanceAs (Decidable (¬ value ≤ value))

/-- The value lies below infinity. Where there is no infinity every value does. -/
def BelowInfinity (value : α) : Prop :=
  ∀ bound ∈ infinity (α := α), value < bound

instance (value : α) : Decidable (BelowInfinity value) :=
  match found : infinity (α := α) with
  | none => .isTrue (by simp [BelowInfinity, found])
  | some bound => decidable_of_iff (value < bound) (by simp [BelowInfinity, found])

/-- The value is a number and not infinite in either direction. -/
def Finite (value : α) : Prop := BelowInfinity (magnitude value)

instance (value : α) : Decidable (Finite value) :=
  inferInstanceAs (Decidable (BelowInfinity (magnitude value)))

/-- The value is smaller than the best one met so far in a scan that starts from
infinity. -/
def Improves (value : α) : Option α → Prop
  | none => BelowInfinity value
  | some best => value < best

instance (value : α) : (best : Option α) → Decidable (Improves value best)
  | none => inferInstanceAs (Decidable (BelowInfinity value))
  | some best => inferInstanceAs (Decidable (value < best))

/-- The scalar of a natural number. -/
def ofNat (number : Nat) : α := ofDecimal (.ofNat number)

end Scalar

instance : Scalar Rat where
  zero := 0
  one := 1
  decideLT := inferInstance
  decideLE := inferInstance
  ofDecimal := Decimal.toRat
  infinity := none

instance : Scalar Float where
  zero := 0
  one := 1
  decideLT := inferInstance
  decideLE := inferInstance
  ofDecimal := Decimal.toFloat
  infinity := some (Double.ofMagnitudeBits false Double.infinityBits)

end Simplex

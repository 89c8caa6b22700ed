import Mathlib
import Simplex.Scalar

/-!
# Ordered scalars

The values that compare with themselves form a linear preorder, in exact and in binary floating
point arithmetic alike. `OrderedScalar` says so, and what a scan for the least value needs of the
comparisons is taken from it. Doubles are ordered by `Double.rank`, a lexicographic key under
which the two zeros share one place. Where the scalars have an infinity it is ordered too, which
`BoundedScalar` adds, and no value that lies below it is greater than one that does not.
-/

namespace Simplex

open Scalar

/-- The values that compare with themselves form a linear preorder. -/
class OrderedScalar (α : Type) [Scalar α] : Prop where
  le_total {first second : α} : ¬ Unordered first → ¬ Unordered second →
    first ≤ second ∨ second ≤ first
  le_trans {first second third : α} : first ≤ second → second ≤ third → first ≤ third
  lt_iff_not_le {first second : α} : ¬ Unordered first → ¬ Unordered second →
    (first < second ↔ ¬ second ≤ first)

/-- Every rational number compares with itself. -/
theorem not_unordered (value : Rat) : ¬ Unordered value := not_not.2 (le_refl value)

instance : OrderedScalar Rat where
  le_total _ _ := Rat.le_total
  le_trans := Rat.le_trans
  lt_iff_not_le _ _ := lt_iff_not_ge

namespace Double

open Float.Model

/-- The place of an unpacked double among all of them: by its sign first, and within a sign by
its exponent and its significand. -/
def unpackedRank : UnpackedFloat → ℤ ×ₗ ℤ ×ₗ ℤ
  | .infinity .negative => toLex (-2, toLex (0, 0))
  | .finite .negative mantissa exponent _ => toLex (-1, toLex (-exponent, -mantissa))
  | .zero _ | .notANumber => toLex (0, toLex (0, 0))
  | .finite .positive mantissa exponent _ => toLex (1, toLex (exponent, mantissa))
  | .infinity .positive => toLex (2, toLex (0, 0))

theorem compare_neg_neg (first second : ℤ) :
    compare (-first) (-second) = (compare first second).swap := by
  have decreasing : StrictAnti fun value : ℤ => -value := fun _ _ => neg_lt_neg
  rw [← cmp_eq_compare, ← cmp_eq_compare, cmp_swap]
  exact decreasing.cmp_map_eq first second

theorem compare_natCast (first second : ℕ) :
    compare (first : ℤ) (second : ℤ) = compare first second := by
  rw [← cmp_eq_compare, ← cmp_eq_compare]
  exact Nat.strictMono_cast.cmp_map_eq first second

/-- Numbers compare like their places. Only two finite numbers of one sign take an argument. -/
theorem compare_unpacked {first second : UnpackedFloat} (firstNumber : first ≠ .notANumber)
    (secondNumber : second ≠ .notANumber) :
    first.compare second = some (compare (unpackedRank first) (unpackedRank second)) := by
  rcases first with (_ | _) | _ | (_ | _) | ⟨_ | _, _, _, _⟩ <;>
    rcases second with (_ | _) | _ | (_ | _) | ⟨_ | _, _, _, _⟩ <;>
      try first | contradiction | rfl
  case finite.negative.finite.negative =>
    simp [UnpackedFloat.compare, unpackedRank, Prod.Lex.compare_def, compareLex, compareOn,
      compare_neg_neg, compare_natCast, Ordering.swap_then]
  case finite.positive.finite.positive =>
    simp [UnpackedFloat.compare, unpackedRank, Prod.Lex.compare_def, compareLex, compareOn,
      compare_natCast]

/-- What is not a number compares with nothing. -/
theorem compare_eq_none {first second : UnpackedFloat}
    (undefined : first = .notANumber ∨ second = .notANumber) : first.compare second = none := by
  rcases undefined with rfl | rfl
  · rfl
  · rcases first with (_ | _) | _ | (_ | _) | ⟨_ | _, _, _, _⟩ <;> rfl

/-- The double is a number. -/
def IsNumber (value : Float) : Prop := value.toModel.unpack ≠ .notANumber

/-- The place of a double among all of them. -/
def rank (value : Float) : ℤ ×ₗ ℤ ×ₗ ℤ := unpackedRank value.toModel.unpack

variable {first second : Float}

theorem compare_eq_some_iff {order : Ordering} :
    first.toModel.unpack.compare second.toModel.unpack = some order ↔
      IsNumber first ∧ IsNumber second ∧ compare (rank first) (rank second) = order := by
  by_cases numbers : IsNumber first ∧ IsNumber second
  · rw [compare_unpacked numbers.1 numbers.2]
    simp [numbers, rank]
  · rw [compare_eq_none (by simpa [IsNumber, ← not_or, imp_iff_not_or] using numbers)]
    simpa using fun first second => absurd ⟨first, second⟩ numbers

theorem le_iff :
    first ≤ second ↔ IsNumber first ∧ IsNumber second ∧ rank first ≤ rank second := by
  have compared : first ≤ second ↔ first.toModel.unpack.le second.toModel.unpack = true :=
    decide_eq_true_iff
  simp only [compared, UnpackedFloat.le, Option.any_eq_true, compare_eq_some_iff,
    ← Ordering.ne_gt_iff_isLE]
  constructor
  · rintro ⟨order, ⟨firstNumber, secondNumber, rfl⟩, below⟩
    exact ⟨firstNumber, secondNumber, compare_le_iff_le.1 below⟩
  · rintro ⟨firstNumber, secondNumber, below⟩
    exact ⟨_, ⟨firstNumber, secondNumber, rfl⟩, compare_le_iff_le.2 below⟩

theorem lt_iff :
    first < second ↔ IsNumber first ∧ IsNumber second ∧ rank first < rank second := by
  have compared : first < second ↔ first.toModel.unpack.lt second.toModel.unpack = true :=
    decide_eq_true_iff
  rw [compared, UnpackedFloat.lt, beq_iff_eq, compare_eq_some_iff, compare_lt_iff_lt]

/-- A double compares with itself exactly when it is a number. -/
theorem not_unordered_iff {value : Float} : ¬ Unordered value ↔ IsNumber value := by
  simp [Unordered, le_iff]

end Double

instance : OrderedScalar Float where
  le_total := by
    intro first second firstOrdered secondOrdered
    rw [Double.not_unordered_iff] at firstOrdered secondOrdered
    simp only [Double.le_iff, firstOrdered, secondOrdered, true_and]
    exact le_total _ _
  le_trans := by
    intro first second third
    simp only [Double.le_iff]
    rintro ⟨firstNumber, -, below⟩ ⟨-, thirdNumber, above⟩
    exact ⟨firstNumber, thirdNumber, below.trans above⟩
  lt_iff_not_le := by
    intro first second firstOrdered secondOrdered
    rw [Double.not_unordered_iff] at firstOrdered secondOrdered
    simp [Double.le_iff, Double.lt_iff, firstOrdered, secondOrdered]

/-- The scalars are ordered, and so is their infinity, if they have one. -/
class BoundedScalar (α : Type) [Scalar α] : Prop extends OrderedScalar α where
  infinity_ordered : ∀ bound ∈ infinity (α := α), ¬ Unordered bound

instance : BoundedScalar Rat where
  infinity_ordered bound _ := not_unordered bound

instance : BoundedScalar Float where
  infinity_ordered := by
    intro bound infinite
    rw [← Option.some.inj infinite]
    decide +kernel

section Bounded

variable {α : Type} [Scalar α] [BoundedScalar α] {first second : α}

/-- A value below infinity is smaller than one that is not. -/
theorem lt_of_belowInfinity (firstOrdered : ¬ Unordered first) (secondOrdered : ¬ Unordered second)
    (below : BelowInfinity first) (above : ¬ BelowInfinity second) : first < second := by
  simp only [BelowInfinity, not_forall] at above
  obtain ⟨bound, infinite, reaches⟩ := above
  have boundOrdered := BoundedScalar.infinity_ordered bound infinite
  have smaller := below bound infinite
  rw [OrderedScalar.lt_iff_not_le secondOrdered boundOrdered, not_not] at reaches
  rw [OrderedScalar.lt_iff_not_le firstOrdered boundOrdered] at smaller
  rw [OrderedScalar.lt_iff_not_le firstOrdered secondOrdered]
  exact fun le => smaller (OrderedScalar.le_trans reaches le)

/-- What is smaller than a value below infinity lies below infinity. -/
theorem belowInfinity_of_lt (firstOrdered : ¬ Unordered first) (secondOrdered : ¬ Unordered second)
    (smaller : first < second) (below : BelowInfinity second) : BelowInfinity first := by
  by_contra above
  have greater := lt_of_belowInfinity secondOrdered firstOrdered below above
  rw [OrderedScalar.lt_iff_not_le secondOrdered firstOrdered] at greater
  rw [OrderedScalar.lt_iff_not_le firstOrdered secondOrdered] at smaller
  exact (OrderedScalar.le_total firstOrdered secondOrdered).elim greater smaller

end Bounded

end Simplex

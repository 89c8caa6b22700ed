import Simplex.Instance.Random
import Simplex.Proofs.ExactValue

/-!
# Points of an interval of doubles

A point is found by two rounded operations: a step in the ratio of a fraction, and its sum with the
lower end. Neither rounding passes a double, so where doubles stand for the ends and the width of
the interval the point stays between the ends: `Spans.between_bounds`.
-/

namespace Simplex

open Double

section Intervals

variable {value low high fraction : Float} {least most number : Rat}

/-- The double is finite and stands for a number. -/
structure StandsFor (value : Float) (number : Rat) : Prop where
  finite : Scalar.Finite value
  toRat_eq : Double.toRat value = number

/-- The double is finite and stands for a number of an interval. -/
structure LiesIn (least most : Rat) (value : Float) : Prop where
  finite : Scalar.Finite value
  least_le : least ≤ Double.toRat value
  le_most : Double.toRat value ≤ most

/-- A double between two others stands for a number between theirs. -/
theorem StandsFor.liesIn (lowest : StandsFor low least) (highest : StandsFor high most)
    (above : low ≤ value) (below : value ≤ high) : LiesIn least most value := by
  have finite := finite_of_between lowest.finite highest.finite above below
  exact ⟨finite, lowest.toRat_eq ▸ toRat_le_toRat lowest.finite finite above,
    highest.toRat_eq ▸ toRat_le_toRat finite highest.finite below⟩

theorem standsFor_zero : StandsFor 0 0 := ⟨by decide +kernel, rfl⟩

theorem standsFor_one : StandsFor 1 1 := by
  have form : (1 : Float).toModel.unpack = .finite .positive (2 ^ 52) (-52) (by decide) := rfl
  refine ⟨by decide +kernel, ?_⟩
  rw [Double.toRat, form, formValue_positive]
  norm_num

/-- Rounding a number that a double stands for gives this double. -/
theorem StandsFor.nearest_eq (stands : StandsFor value number) (positive : 0 < number) :
    nearest number = value := by
  have same := stands.toRat_eq
  subst same
  exact nearest_toRat positive

theorem standsFor_nearest {mantissa : Nat} {exponent : Int} (positive : 0 < mantissa)
    (small : mantissa < 2 ^ 53) (least : -1074 ≤ exponent) (bounded : exponent ≤ greatestExponent) :
    StandsFor (nearest (mantissa * 2 ^ exponent)) (mantissa * 2 ^ exponent) :=
  ⟨(toRat_nearest positive small least bounded).1, (toRat_nearest positive small least bounded).2⟩

/-- A double stands for every natural number of 53 binary digits. -/
theorem standsFor_natCast {count : Nat} (positive : 0 < count) (small : count < 2 ^ 53) :
    StandsFor (nearest count) count := by
  have stands := standsFor_nearest positive small (show -1074 ≤ 0 by decide) (by decide)
  rwa [zpow_zero, mul_one] at stands

theorem standsFor_numeral {count : Nat} (positive : 0 < count) (small : count < 2 ^ 53) :
    StandsFor (Decimal.toFloat ⟨false, count, 0⟩) count := by
  have numeral : Decimal.toFloat ⟨false, count, 0⟩ = nearest ((count : Rat) / 10 ^ 0) :=
    toFloat_eq_nearest count (by decide) (Nat.zero_le 300)
  rw [pow_zero, div_one] at numeral
  rw [numeral]
  exact standsFor_natCast positive small

/-- A double stands for twice the number of another one, unless that is too great. -/
theorem StandsFor.double {bound : Float} (stands : StandsFor value number) (positive : 0 < number)
    (below : 2 * number ≤ Double.toRat bound) :
    StandsFor (nearest (2 * number)) (2 * number) := by
  have same := stands.toRat_eq
  subst same
  obtain ⟨mantissa, exponent, nonzero, -, canonical, same⟩ := exists_form positive
  obtain ⟨most, power, mostPositive, -, greatest, bounded⟩ :=
    exists_form ((mul_pos two_pos positive).trans_le below)
  obtain ⟨small, least, leading, -⟩ := canonical.digits
  obtain ⟨mostSmall, -, -, powerBounded⟩ := greatest.digits
  have doubled : 2 * (mantissa * 2 ^ exponent : Rat) = mantissa * 2 ^ (exponent + 1) := by
    rw [zpow_add_one₀ two_ne_zero]
    ring
  rw [same, doubled] at below ⊢
  refine standsFor_nearest nonzero small (by omega) ?_
  -- The greatest exponent would take the number beyond all doubles.
  by_contra great
  rw [greatestExponent] at *
  have leadingDigit : ((2 ^ 52 : Nat) : Rat) ≤ mantissa := by exact_mod_cast leading (by omega)
  have digits : (most : Rat) < (2 ^ 53 : Nat) := by exact_mod_cast mostSmall
  have low : ((2 ^ 52 : Nat) : Rat) * 2 ^ (972 : Int) ≤ mantissa * 2 ^ (exponent + 1) :=
    mul_le_mul leadingDigit (zpow_le_zpow_right₀ one_le_two (by omega)) (two_zpow_pos _).le
      (by positivity)
  have high : (most : Rat) * 2 ^ power < (2 ^ 53 : Nat) * 2 ^ (971 : Int) :=
    mul_lt_mul digits (zpow_le_zpow_right₀ one_le_two powerBounded) (two_zpow_pos _) (by positivity)
  have ends : ((2 ^ 52 : Nat) : Rat) * 2 ^ (972 : Int) = (2 ^ 53 : Nat) * 2 ^ (971 : Int) := by
    rw [show (972 : Int) = 971 + 1 from rfl, zpow_add_one₀ two_ne_zero, Nat.pow_succ 2 52]
    generalize (2 : Rat) ^ (971 : Int) = unit
    push_cast
    ring
  rw [bounded] at below
  linarith

/-- The ends of an interval of doubles and its width stand for the numbers meant. -/
structure Spans (low high : Float) (least most : Rat) : Prop where
  lower : StandsFor low least
  upper : StandsFor high most
  width : StandsFor (high - low) (most - least)
  positive : 0 < least
  ordered : least < most

/-- An interval is spanned by doubles that stand for its ends, if a double stands for its width. -/
theorem Spans.of_ends (lower : StandsFor low least) (upper : StandsFor high most)
    (positive : 0 < least) (ordered : least < most)
    (width : StandsFor (nearest (most - least)) (most - least)) : Spans low high least most where
  lower := lower
  upper := upper
  width := by
    have lowPositive : 0 < Double.toRat low := lower.toRat_eq.symm ▸ positive
    have ends : Double.toRat low ≤ Double.toRat high := by
      rw [lower.toRat_eq, upper.toRat_eq]
      exact ordered.le
    rwa [sub_eq_nearest lowPositive ends, lower.toRat_eq, upper.toRat_eq]
  positive := positive
  ordered := ordered

/-- A point of an interval stays between its ends. -/
theorem Spans.between_bounds (spans : Spans low high least most) (finite : Scalar.Finite fraction)
    (nonnegative : 0 ≤ Double.toRat fraction) (small : Double.toRat fraction ≤ 1) :
    low ≤ Sampler.between low high fraction ∧ Sampler.between low high fraction ≤ high := by
  have width := spans.width.toRat_eq
  have widthPositive : 0 < Double.toRat (high - low) := width ▸ sub_pos.2 spans.ordered
  -- The step from the lower end is rounded to at most the width of the interval.
  have step := mul_le_of_le_one_right widthPositive.le small
  obtain ⟨stepFinite, stepNonneg, stepBounded⟩ := nearest_bounded spans.width.finite
    (mul_nonneg widthPositive.le nonnegative) step
  obtain ⟨productFinite, product⟩ := toRat_mul widthPositive finite nonnegative stepFinite
  rw [← product] at stepNonneg stepBounded
  have lowPositive : 0 < Double.toRat low := spans.lower.toRat_eq.symm ▸ spans.positive
  rw [Sampler.between, add_eq_nearest lowPositive productFinite stepNonneg, spans.lower.toRat_eq]
  rw [width] at stepBounded
  generalize Double.toRat ((high - low) * fraction) = step at stepNonneg stepBounded
  have above : nearest least ≤ nearest (least + step) := nearest_le_nearest (by linarith)
  have below : nearest (least + step) ≤ nearest most := nearest_le_nearest (by linarith)
  rw [spans.lower.nearest_eq spans.positive] at above
  rw [spans.upper.nearest_eq (spans.positive.trans spans.ordered)] at below
  exact ⟨above, below⟩

end Intervals

end Simplex

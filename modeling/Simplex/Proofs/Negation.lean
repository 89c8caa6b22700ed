import Mathlib
import Simplex.Scalar

/-!
# Negation by a factor

The objective row of a maximum is multiplied by minus one in one tableau and negated in the
other. Both give the same values where `NegatingScalar` holds, which rational numbers and doubles
both satisfy. For doubles the product is rounded: it is exact because a significand of 53 bits
times `2 ^ 52` is shifted back to itself, so that no bit is lost and the exponent stays.
-/

namespace Simplex

/-- A factor of minus one negates, the sign of a zero included. -/
class NegatingScalar (α : Type) [Scalar α] : Prop where
  neg_one_mul (value : α) : -1 * value = -value

instance : NegatingScalar Rat where
  neg_one_mul value := neg_one_mul value

namespace Double

open Float.Model Float.Model.UnpackedFloat

/-- Shifting out zeros loses nothing. -/
theorem shiftRight_extendedMantissa (count mantissa : Nat) :
    (⟨2 ^ count * mantissa, false, false⟩ : ExtendedMantissa) >>> count =
      ⟨mantissa, false, false⟩ := by
  induction count generalizing mantissa with
  | zero => simp [HShiftRight.hShiftRight, Nat.repeat]
  | succ count ih =>
    have inner := ih (2 * mantissa)
    rw [← Nat.mul_assoc, ← Nat.pow_succ] at inner
    calc (⟨2 ^ (count + 1) * mantissa, false, false⟩ : ExtendedMantissa) >>> (count + 1) =
          ((⟨2 ^ (count + 1) * mantissa, false, false⟩ : ExtendedMantissa) >>>
            count).shiftRightOne := rfl
      _ = ⟨mantissa, false, false⟩ := by
        rw [inner]
        simp [ExtendedMantissa.shiftRightOne]

theorem log2_two_pow_mul (count : Nat) {mantissa : Nat} (positive : 0 < mantissa) :
    (2 ^ count * mantissa).log2 = count + mantissa.log2 := by
  have nonzero : mantissa ≠ 0 := positive.ne'
  rw [Nat.log2_eq_iff (by positivity), Nat.add_assoc, Nat.pow_add, Nat.pow_add]
  constructor
  · exact Nat.mul_le_mul_left _ (Nat.log2_self_le nonzero)
  · exact Nat.mul_lt_mul_of_pos_left Nat.lt_log2_self (by positivity)

/-- The exponent that a significand is rounded to: the one that leaves it 53 bits, or the least
one there is. -/
theorem targetExponent_eq (mantissa : Nat) (exponent : Int) :
    Format.binary64.targetExponent (totalExponent mantissa exponent) =
      max (mantissa.log2 + exponent - 52) (-1074) := by
  simp only [Format.targetExponent, totalExponent, Format.mantissaBits, Format.minExponent]
  norm_num
  omega

/-- The significand of a normal double is its leading one and the packed digits. -/
theorem toNat_append_one (digits : BitVec 52) : (1#1 ++ digits).toNat = 2 ^ 52 + digits.toNat := by
  rw [BitVec.toNat_append, ← Nat.shiftLeft_add_eq_or_of_lt digits.isLt, Nat.shiftLeft_eq]
  rfl

/-- With its leading one a significand has 53 bits. -/
theorem log2_one_append (digits : BitVec 52) : (1#1 ++ digits).toNat.log2 = 52 := by
  have bound := digits.isLt
  rw [toNat_append_one, Nat.log2_eq_iff (by omega)]
  omega

/-- The bias of exponents, counted from the last digit of the significand. -/
theorem exponentBias_add :
    ((Format.binary64.exponentBias : Int) + (52 : Nat)) = 1075 := rfl

/-- A double that is unpacked has the exponent it would be rounded to. -/
theorem targetExponent_of_unpack {value : Float.Model} {sign : Sign} {mantissa : Nat}
    {exponent : Int} {positive : 0 < mantissa}
    (unpacked : value.unpack = .finite sign mantissa exponent positive) :
    Format.binary64.targetExponent (totalExponent mantissa exponent) = exponent := by
  rw [targetExponent_eq]
  unfold Float.Model.unpack UnpackedFloat.unpack at unpacked
  simp only at unpacked
  split_ifs at unpacked with special undefined low zero
  · -- A subnormal significand has no leading one and the least exponent.
    simp only [finite.injEq, low, BitVec.toNat_zero, Nat.cast_zero, exponentBias_add] at unpacked
    obtain ⟨-, rfl, rfl⟩ := unpacked
    have below := (Nat.log2_lt positive.ne').2 (BitVec.isLt _)
    change _ < 52 at below
    omega
  · simp only [finite.injEq, exponentBias_add] at unpacked
    obtain ⟨-, rfl, rfl⟩ := unpacked
    have log := log2_one_append (@unpackMantissa Format.binary64 value.toBits.toBitVec)
    have raised : (@unpackExponent Format.binary64 value.toBits.toBitVec).toNat ≠ 0 :=
      fun zero => low (BitVec.eq_of_toNat_eq zero)
    rw [log]
    omega

/-- A significand times `2 ^ 52` at an exponent smaller by 52 is rounded to itself, if the
exponent is the one it would be rounded to. -/
theorem roundWithAccuracy_two_pow_mul (sign : Sign) {mantissa : Nat} {exponent : Int}
    (positive : 0 < mantissa)
    (fits : Format.binary64.targetExponent (totalExponent mantissa exponent) = exponent) :
    roundWithAccuracy Format.binary64 sign (2 ^ 52 * mantissa) (-52 + exponent) .exact =
      .finite sign mantissa exponent positive := by
  have shifted : shiftToTargetExponent Format.binary64 (2 ^ 52 * mantissa) (-52 + exponent)
      .exact = (⟨mantissa, false, false⟩, exponent) := by
    have total : totalExponent (2 ^ 52 * mantissa) (-52 + exponent) =
        totalExponent mantissa exponent := by
      rw [totalExponent, totalExponent, log2_two_pow_mul 52 positive]
      push_cast
      ring
    have amount : (exponent - (-52 + exponent)).toNat = 52 := by omega
    rw [shiftToTargetExponent, total, fits, shiftToExponent, amount]
    simp only [ExtendedMantissa.ofMantissaAndAccuracy, shiftRight_extendedMantissa]
    simp
  have kept : shiftToTargetExponent Format.binary64 mantissa exponent .exact =
      (⟨mantissa, false, false⟩, exponent) := by
    rw [shiftToTargetExponent, fits, shiftToExponent]
    simp [ExtendedMantissa.ofMantissaAndAccuracy, HShiftRight.hShiftRight, Nat.repeat]
  have rounded : (⟨mantissa, false, false⟩ : ExtendedMantissa).roundedMantissa = mantissa := rfl
  simp only [roundWithAccuracy, shifted, rounded, kept, positive.ne', dite_false]

/-- A double times minus one is its negation. What is not a number has one form only, which
both operations give. -/
theorem neg_one_mul (value : Float) : -1 * value = -value := by
  have minusOne : (-1 : Float).toModel.unpack =
      .finite .negative (2 ^ 52) (-52) (by decide) := rfl
  have product : (-1 : Float) * value =
      ⟨Float.Model.pack (UnpackedFloat.mul Format.binary64 (-1 : Float).toModel.unpack
        value.toModel.unpack)⟩ := rfl
  have negation : -value = ⟨Float.Model.pack value.toModel.unpack.neg⟩ := rfl
  rw [product, negation, minusOne]
  cases unpacked : value.toModel.unpack with
  | notANumber => rfl
  | infinity sign => cases sign <;> rfl
  | zero sign => cases sign <;> rfl
  | finite sign mantissa exponent positive =>
    have rounded := roundWithAccuracy_two_pow_mul (.negative * sign) positive
      (targetExponent_of_unpack unpacked)
    simp only [UnpackedFloat.mul, rounded, UnpackedFloat.neg]
    cases sign <;> rfl

end Double

instance : NegatingScalar Float where
  neg_one_mul := Double.neg_one_mul

end Simplex

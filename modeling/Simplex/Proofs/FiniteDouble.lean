import Simplex.Proofs.Negation
import Simplex.Proofs.Quotient

/-!
# Finite doubles

An unpacked double is in canonical form when its exponent is the one its significand is rounded to.
Packing loses nothing of a canonical form (`unpack_pack`), so operations on doubles whose results
are canonical are those on the forms: `unpack_neg`. A sum is finite only if both of its terms are
(`finite_of_add`), and a sum with zero is the other term, except that a negative zero loses its
sign (`zero_add_eq_or`).
-/

namespace Simplex.Double

open Float.Model Float.Model.UnpackedFloat

/-- The exponent of the greatest doubles, as the significand is read as a natural number. -/
def greatestExponent : Int := 971

/-- The form of an unpacked double. A finite one has the exponent that its significand is rounded
to, and one that is small enough to be packed. -/
inductive Canonical : UnpackedFloat → Prop
  | notANumber : Canonical .notANumber
  | infinity (sign : Sign) : Canonical (.infinity sign)
  | zero (sign : Sign) : Canonical (.zero sign)
  | finite {sign : Sign} {mantissa : Nat} {exponent : Int} (positive : 0 < mantissa)
      (fits : Format.binary64.targetExponent (totalExponent mantissa exponent) = exponent)
      (bounded : exponent ≤ greatestExponent) : Canonical (.finite sign mantissa exponent positive)

section Packing

theorem unpack_pack_infinity (sign : Sign) :
    UnpackedFloat.unpack Format.binary64 (UnpackedFloat.pack Format.binary64 (.infinity sign)) =
      .infinity sign := by
  cases sign <;> rfl

theorem toNat_append_one_ofNat {mantissa : Nat} (normal : mantissa.log2 = 52) :
    (1#1 ++ BitVec.ofNat 52 mantissa).toNat = mantissa := by
  have nonzero : mantissa ≠ 0 := by
    rintro rfl
    simp at normal
  obtain ⟨low, high⟩ := (Nat.log2_eq_iff nonzero).1 normal
  rw [toNat_append_one, BitVec.toNat_ofNat]
  omega

/-- Packing a canonical form loses nothing of it. -/
theorem unpack_pack {value : UnpackedFloat} (canonical : Canonical value) :
    (Float.Model.pack value).unpack = value := by
  change UnpackedFloat.unpack Format.binary64 (UnpackedFloat.pack Format.binary64 value) = value
  cases canonical with
  | notANumber => exact unpack_packedNaN
  | infinity sign => exact unpack_pack_infinity sign
  | zero sign => exact unpack_packedZero
  | @finite sign mantissa exponent positive fits bounded =>
    rw [targetExponent_eq] at fits
    rw [greatestExponent] at bounded
    have biased : (exponent + (Format.binary64.exponentBias : Int) + (52 : Nat)).toNat =
        (exponent + 1075).toNat := by
      rw [add_assoc, exponentBias_add]
    have fitsField : ¬ 2 ^ 11 ≤ (exponent + 1075).toNat + 1 := by omega
    have small : (exponent + 1075).toNat < 2 ^ 11 := by omega
    unfold UnpackedFloat.pack
    simp only [biased, if_neg fitsField]
    by_cases normal : mantissa.log2 + 1 = Format.binary64.mantissaBits
    · have log : mantissa.log2 = 52 := by simpa [Format.mantissaBits] using normal
      have field : (BitVec.ofNat 11 (exponent + 1075).toNat).toNat = (exponent + 1075).toNat :=
        Nat.mod_eq_of_lt small
      have notGreatest : BitVec.ofNat 11 (exponent + 1075).toNat ≠ -1#11 := by
        intro greatest
        have value := congrArg BitVec.toNat greatest
        rw [field, BitVec.neg_one_eq_allOnes, BitVec.toNat_allOnes] at value
        omega
      have notLeast : BitVec.ofNat 11 (exponent + 1075).toNat ≠ 0#11 := by
        intro least
        have value := congrArg BitVec.toNat least
        rw [field, BitVec.toNat_zero] at value
        omega
      simp only [if_pos normal, UnpackedFloat.unpack, unpackExponent_packComponents,
        unpackMantissa_packComponents, unpackSign_packComponents, Sign.ofBitVec_toBitVec,
        if_neg notGreatest, if_neg notLeast, toNat_append_one_ofNat log, exponentBias_add, field]
      congr 1
      omega
    · have below : mantissa.log2 < 52 := by
        simp only [Format.mantissaBits] at normal
        omega
      have inside : mantissa < 2 ^ 52 := (Nat.log2_lt positive.ne').1 below
      have digits : (BitVec.ofNat 52 mantissa).toNat = mantissa := Nat.mod_eq_of_lt inside
      have nonzero : BitVec.ofNat 52 mantissa ≠ 0#52 := by
        intro empty
        rw [empty, BitVec.toNat_zero] at digits
        omega
      have low : (0#11 : BitVec 11) ≠ -1#11 := by decide
      simp only [if_neg normal, UnpackedFloat.unpack, unpackExponent_packComponents,
        unpackMantissa_packComponents, unpackSign_packComponents, Sign.ofBitVec_toBitVec,
        if_neg low, if_true, dif_neg nonzero, exponentBias_add, digits, BitVec.toNat_zero]
      congr 1
      omega

/-- A double is unpacked to a canonical form. -/
theorem canonical_unpack (value : Float.Model) : Canonical value.unpack := by
  cases unpacked : value.unpack with
  | notANumber => exact .notANumber
  | infinity sign => exact .infinity sign
  | zero sign => exact .zero sign
  | finite sign mantissa exponent positive =>
    refine .finite positive (targetExponent_of_unpack unpacked) ?_
    unfold Float.Model.unpack UnpackedFloat.unpack at unpacked
    simp only at unpacked
    have field := (@unpackExponent Format.binary64 value.toBits.toBitVec).isLt
    split_ifs at unpacked with greatest zero low empty
    · simp only [finite.injEq, low, BitVec.toNat_zero, exponentBias_add] at unpacked
      obtain ⟨-, -, rfl⟩ := unpacked
      decide
    · simp only [finite.injEq, exponentBias_add] at unpacked
      obtain ⟨-, -, rfl⟩ := unpacked
      have notGreatest : (@unpackExponent Format.binary64 value.toBits.toBitVec).toNat ≠ 2047 :=
        fun same => greatest (BitVec.eq_of_toNat_eq same)
      rw [greatestExponent]
      change _ < 2 ^ 11 at field
      omega

end Packing

section Finiteness

variable {value : Float}

theorem hasFiniteForm_iff {unpacked : UnpackedFloat} :
    HasFiniteForm unpacked ↔ unpacked.isFinite = true := by
  constructor
  · rintro (_ | _) <;> rfl
  · intro finite
    cases unpacked with
    | zero sign => exact .zero sign
    | finite sign mantissa exponent positive => exact .finite sign mantissa exponent positive
    | notANumber => cases finite
    | infinity sign => cases finite

theorem Canonical.neg {unpacked : UnpackedFloat} (canonical : Canonical unpacked) :
    Canonical unpacked.neg := by
  cases canonical with
  | notANumber => exact .notANumber
  | infinity sign => exact .infinity (-sign)
  | zero sign => exact .zero (-sign)
  | finite positive fits bounded => exact .finite positive fits bounded

theorem HasFiniteForm.neg {unpacked : UnpackedFloat} (form : HasFiniteForm unpacked) :
    HasFiniteForm unpacked.neg := by
  cases form with
  | zero sign => exact .zero (-sign)
  | finite sign mantissa exponent positive => exact .finite (-sign) mantissa exponent positive

/-- Negation changes the sign of the form and nothing else. -/
theorem unpack_neg (value : Float) : (-value).toModel.unpack = value.toModel.unpack.neg :=
  unpack_pack (canonical_unpack value.toModel).neg

/-- A double is finite when its form is. -/
theorem finite_iff_hasFiniteForm : Scalar.Finite value ↔ HasFiniteForm value.toModel.unpack := by
  refine ⟨hasFiniteForm_of_finite, fun form => ?_⟩
  have below {value : Float} (form : HasFiniteForm value.toModel.unpack) :
      Scalar.BelowInfinity value := by
    intro bound infinite
    obtain rfl := Option.some.inj infinite
    refine lt_iff.2 ⟨?_, by simp [IsNumber, unpack_infinity], ?_⟩
    · rw [IsNumber]
      generalize value.toModel.unpack = unpacked at form
      cases form <;> simp
    · rw [rank, rank, unpack_infinity]
      generalize value.toModel.unpack = unpacked at form
      cases form with
      | zero sign => exact Prod.Lex.toLex_lt_toLex.2 (.inl (by norm_num))
      | finite sign mantissa exponent positive =>
        cases sign <;> exact Prod.Lex.toLex_lt_toLex.2 (.inl (by norm_num))
  rw [Scalar.Finite, Scalar.magnitude]
  split_ifs
  · exact below (unpack_neg value ▸ form.neg)
  · exact below form

theorem finite_iff_isFinite : Scalar.Finite value ↔ value.isFinite = true :=
  finite_iff_hasFiniteForm.trans hasFiniteForm_iff

theorem finite_neg_iff : Scalar.Finite (-value) ↔ Scalar.Finite value := by
  rw [finite_iff_hasFiniteForm, finite_iff_hasFiniteForm, unpack_neg, hasFiniteForm_iff,
    hasFiniteForm_iff]
  cases value.toModel.unpack <;> rfl

/-- A double times one is the same double. -/
theorem one_mul (value : Float) : 1 * value = value := by
  have one : (1 : Float).toModel.unpack =
      .finite .positive (2 ^ 52) (-52) (by decide) := rfl
  have product : ((1 : Float) * value).toModel =
      Float.Model.pack (UnpackedFloat.mul Format.binary64 (1 : Float).toModel.unpack
        value.toModel.unpack) := rfl
  apply eq_of_unpack_eq
  rw [product, one]
  have canonical := canonical_unpack value.toModel
  generalize value.toModel.unpack = unpacked at canonical ⊢
  suffices same : UnpackedFloat.mul Format.binary64
      (.finite .positive (2 ^ 52) (-52) (by decide)) unpacked = unpacked by
    rw [same, unpack_pack canonical]
  cases canonical with
  | notANumber => rfl
  | infinity sign => cases sign <;> rfl
  | zero sign => cases sign <;> rfl
  | @finite sign mantissa exponent positive fits bounded =>
    rw [UnpackedFloat.mul, roundWithAccuracy_two_pow_mul _ positive fits]
    cases sign <;> rfl

end Finiteness

section Sums

variable {first second : Float}

theorem toModel_add (first second : Float) : (first + second).toModel =
    Float.Model.pack (UnpackedFloat.add Format.binary64 first.toModel.unpack
      second.toModel.unpack) := rfl

/-- What is not finite stays so, whatever is added to it. -/
theorem add_of_not_hasFiniteForm {left right : UnpackedFloat}
    (infinite : ¬ HasFiniteForm left ∨ ¬ HasFiniteForm right) :
    UnpackedFloat.add Format.binary64 left right = .notANumber ∨
      ∃ sign, UnpackedFloat.add Format.binary64 left right = .infinity sign := by
  simp only [hasFiniteForm_iff] at infinite
  rcases left with (_ | _) | _ | _ | _ <;> rcases right with (_ | _) | _ | _ | _ <;>
    simp [UnpackedFloat.add, UnpackedFloat.isFinite] at infinite ⊢

/-- A sum is finite only if both of its terms are. -/
theorem finite_of_add (finite : Scalar.Finite (first + second)) :
    Scalar.Finite first ∧ Scalar.Finite second := by
  rw [finite_iff_hasFiniteForm, toModel_add] at finite
  rw [finite_iff_hasFiniteForm, finite_iff_hasFiniteForm]
  by_contra infinite
  rcases add_of_not_hasFiniteForm (not_and_or.1 infinite) with undefined | ⟨sign, unbounded⟩
  · rw [undefined, unpack_pack .notANumber] at finite
    cases finite
  · rw [unbounded, unpack_pack (.infinity sign)] at finite
    cases finite

/-- Adding to zero gives what is added, or zero again. -/
theorem zero_add_eq_or (value : Float) : 0 + value = value ∨ 0 + value = 0 := by
  have zero : (0 : Float).toModel.unpack = .zero .positive := rfl
  cases unpacked : value.toModel.unpack with
  | zero sign =>
    right
    apply eq_of_unpack_eq
    rw [toModel_add, zero, unpacked]
    cases sign <;> rfl
  | _ =>
    left
    apply eq_of_unpack_eq
    have canonical := canonical_unpack value.toModel
    rw [toModel_add, zero]
    rw [unpacked] at canonical ⊢
    exact unpack_pack canonical

end Sums

section Bits

/-- Any bits are unpacked to a canonical form. -/
theorem canonical_unpack_bits (bits : BitVec 64) :
    Canonical (UnpackedFloat.unpack Format.binary64 bits) := by
  by_cases number : UnpackedFloat.unpack Format.binary64 bits = .notANumber
  · rw [number]
    exact .notANumber
  · have valid : Format.binary64.Valid bits :=
      ⟨fun greatest nonzero => absurd (by simp [UnpackedFloat.unpack, greatest, nonzero]) number⟩
    exact canonical_unpack ⟨UInt64.ofBitVec bits, valid⟩

theorem unpack_ofBits (bits : UInt64) :
    (Float.ofBits bits).toModel.unpack =
      UnpackedFloat.unpack Format.binary64 bits.toBitVec :=
  unpack_pack (canonical_unpack_bits bits.toBitVec)

variable {number : Nat}

theorem toNat_unpackMantissa (number : Nat) :
    (@unpackMantissa Format.binary64 (BitVec.ofNat 64 number)).toNat = number % 2 ^ 52 := by
  rw [unpackMantissa_def, BitVec.extractLsb'_toNat]
  change number % 2 ^ 64 % 2 ^ 52 = _
  omega

theorem toNat_unpackExponent (number : Nat) :
    (@unpackExponent Format.binary64 (BitVec.ofNat 64 number)).toNat =
      number / 2 ^ 52 % 2 ^ 11 := by
  rw [unpackExponent_def, BitVec.extractLsb'_toNat, Nat.shiftRight_eq_div_pow]
  change number % 2 ^ 64 / 2 ^ 52 % 2 ^ 11 = _
  omega

theorem toNat_unpackSign (number : Nat) :
    (@unpackSign Format.binary64 (BitVec.ofNat 64 number)).toNat = number / 2 ^ 63 % 2 := by
  rw [unpackSign_def, BitVec.extractLsb'_toNat, Nat.shiftRight_eq_div_pow]
  change number % 2 ^ 64 / 2 ^ 63 % 2 ^ 1 = _
  omega

/-- Setting the bit of the sign negates. -/
theorem ofMagnitudeBits_true (small : number < signBit) :
    ofMagnitudeBits true number = -ofMagnitudeBits false number := by
  rw [signBit] at small
  have mantissa : @unpackMantissa Format.binary64 (BitVec.ofNat 64 (signBit + number)) =
      @unpackMantissa Format.binary64 (BitVec.ofNat 64 number) := by
    apply BitVec.eq_of_toNat_eq
    rw [toNat_unpackMantissa, toNat_unpackMantissa, signBit]
    omega
  have exponent : @unpackExponent Format.binary64 (BitVec.ofNat 64 (signBit + number)) =
      @unpackExponent Format.binary64 (BitVec.ofNat 64 number) := by
    apply BitVec.eq_of_toNat_eq
    rw [toNat_unpackExponent, toNat_unpackExponent, signBit]
    omega
  have negative : @unpackSign Format.binary64 (BitVec.ofNat 64 (signBit + number)) = 1#1 := by
    apply BitVec.eq_of_toNat_eq
    rw [toNat_unpackSign, signBit]
    change _ = 1
    omega
  have positive : @unpackSign Format.binary64 (BitVec.ofNat 64 number) = 0#1 := by
    apply BitVec.eq_of_toNat_eq
    rw [toNat_unpackSign]
    change _ = 0
    omega
  apply eq_of_unpack_eq
  rw [unpack_neg, ofMagnitudeBits, ofMagnitudeBits, unpack_ofBits, unpack_ofBits]
  change UnpackedFloat.unpack Format.binary64 (BitVec.ofNat 64 (signBit + number)) =
    (UnpackedFloat.unpack Format.binary64 (BitVec.ofNat 64 number)).neg
  simp only [UnpackedFloat.unpack, mantissa, exponent, negative, positive]
  split_ifs <;> rfl

theorem nearestBits_le (num den : Nat) : nearestBits num den ≤ infinityBits := Nat.min_le_right _ _

/-- A numeral after a minus denotes the negated double. -/
theorem toFloat_negative (mantissa : Nat) (exponent : Int) :
    Decimal.toFloat ⟨true, mantissa, exponent⟩ = -Decimal.toFloat ⟨false, mantissa, exponent⟩ := by
  have bounded : Decimal.magnitudeBits ⟨false, mantissa, exponent⟩ ≤ infinityBits := by
    unfold Decimal.magnitudeBits
    split_ifs
    · exact Nat.zero_le _
    · exact le_refl _
    · exact Nat.zero_le _
    · exact nearestBits_le _ _
  exact ofMagnitudeBits_true (lt_of_le_of_lt bounded (by decide))

end Bits

end Simplex.Double

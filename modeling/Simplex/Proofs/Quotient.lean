import Simplex.Proofs.Ordering

/-!
# Quotients of doubles

Which doubles a division gives. Packing never makes a number undefined, and a finite value divided
by one with a significand is a zero or has a significand again, however it is rounded. A finite
double divided by a positive finite one is therefore a number, possibly infinite: `isNumber_div`.
-/

namespace Simplex.Double

open Float.Model Float.Model.UnpackedFloat

/-- A double is determined by what it unpacks to. -/
theorem eq_of_unpack_eq {first second : Float}
    (same : first.toModel.unpack = second.toModel.unpack) : first = second := by
  have bits := (unpack_inj_of_valid first.toModel.valid second.toModel.valid).1 same
  exact Float.toBits_inj.1 (UInt64.toBitVec_inj.1 bits)

/-- Bits whose fraction is zero under the greatest exponent are those of a number. -/
theorem unpack_ne_notANumber {format : Format} {bits : BitVec format.numBits}
    (fraction : unpackExponent bits = -1#_ → unpackMantissa bits = 0#_) :
    UnpackedFloat.unpack format bits ≠ .notANumber := by
  fun_cases UnpackedFloat.unpack format bits with
  | case2 mantissaBits exponentBits greatest nonzero => exact absurd (fraction greatest) nonzero
  | _ => simp

/-- Packing a number gives the bits of a number. -/
theorem unpack_pack_ne_notANumber {format : Format} {value : UnpackedFloat}
    (number : value ≠ .notANumber) :
    UnpackedFloat.unpack format (UnpackedFloat.pack format value) ≠ .notANumber := by
  apply unpack_ne_notANumber
  fun_cases UnpackedFloat.pack format value with
  | case1 => exact absurd rfl number
  | case2 sign => simp [packedInfinity]
  | case3 sign => simp [packedZero]
  | case4 => simp [packedInfinity]
  | case5 sign mantissa exponent positive bitCount biased fits normal =>
    -- The biased exponent stays below the greatest one.
    rw [unpackExponent_packComponents]
    intro greatest
    have field := congrArg BitVec.toNat greatest
    rw [BitVec.neg_one_eq_allOnes, BitVec.toNat_allOnes, BitVec.toNat_ofNat,
      Nat.mod_eq_of_lt (by omega)] at field
    omega
  | case6 sign mantissa exponent positive bitCount biased fits subnormal =>
    rw [unpackExponent_packComponents, BitVec.zero_eq_neg_one_iff]
    intro empty
    exact absurd empty format.he.ne'

theorem isNumber_pack {value : UnpackedFloat} (number : value ≠ .notANumber) :
    IsNumber ⟨Float.Model.pack value⟩ := unpack_pack_ne_notANumber number

theorem unpack_infinity :
    (ofMagnitudeBits false infinityBits).toModel.unpack = .infinity .positive := by rfl

/-- The only number that does not lie below infinity is infinity itself. -/
theorem not_belowInfinity_iff {value : Float} (number : IsNumber value) :
    ¬ Scalar.BelowInfinity value ↔ Scalar.infinity = some value := by
  constructor
  · refine fun above => congrArg some (eq_of_unpack_eq ?_)
    by_contra different
    refine above fun bound infinite => ?_
    obtain rfl := Option.some.inj infinite
    refine lt_iff.2 ⟨number, by simp [IsNumber, unpack_infinity], ?_⟩
    rw [IsNumber] at number
    rw [unpack_infinity] at different
    rw [rank, rank, unpack_infinity]
    generalize value.toModel.unpack = unpacked at number different ⊢
    rcases unpacked with (_ | _) | _ | (_ | _) | ⟨_ | _, _, _, _⟩ <;>
      first | contradiction | exact Prod.Lex.toLex_lt_toLex.2 (.inl (by norm_num))
  · intro infinite below
    exact absurd (lt_iff.1 (below value infinite)).2.2 (lt_irrefl _)

/-- A zero, or a value with a significand. -/
inductive HasFiniteForm : UnpackedFloat → Prop
  | zero (sign : Sign) : HasFiniteForm (.zero sign)
  | finite (sign : Sign) (mantissa : Nat) (exponent : Int) (positive : 0 < mantissa) :
      HasFiniteForm (.finite sign mantissa exponent positive)

variable {value divisor : Float}

theorem hasFiniteForm_of_finite (finite : Scalar.Finite value) :
    HasFiniteForm value.toModel.unpack := by
  cases unpacked : value.toModel.unpack with
  | zero sign => exact .zero sign
  | finite sign mantissa exponent positive => exact .finite sign mantissa exponent positive
  | notANumber =>
    obtain rfl : value = 0 / 0 := eq_of_unpack_eq unpacked
    exact absurd finite (by decide +kernel)
  | infinity sign =>
    cases sign with
    | positive =>
      obtain rfl : value = 1 / 0 := eq_of_unpack_eq unpacked
      exact absurd finite (by decide +kernel)
    | negative =>
      obtain rfl : value = -1 / 0 := eq_of_unpack_eq unpacked
      exact absurd finite (by decide +kernel)

/-- A finite value divided by one with a significand is a number. -/
theorem div_ne_notANumber {dividend : UnpackedFloat} (form : HasFiniteForm dividend)
    (sign : Sign) (mantissa : Nat) (exponent : Int) (positive : 0 < mantissa) :
    UnpackedFloat.div Format.binary64 dividend (.finite sign mantissa exponent positive) ≠
      .notANumber := by
  cases form with
  | zero => simp [UnpackedFloat.div]
  | finite =>
    simp only [UnpackedFloat.div, roundWithAccuracy]
    split <;> simp

/-- A finite double divided by a positive finite one is a number. -/
theorem isNumber_div (finite : Scalar.Finite value) (divisorFinite : Scalar.Finite divisor)
    (positive : 0 < divisor) : IsNumber (value / divisor) := by
  have quotient : value / divisor = ⟨Float.Model.pack (UnpackedFloat.div Format.binary64
      value.toModel.unpack divisor.toModel.unpack)⟩ := rfl
  have form := hasFiniteForm_of_finite divisorFinite
  have above := (lt_iff.1 positive).2.2
  rw [rank, rank] at above
  rw [quotient]
  apply isNumber_pack
  generalize divisor.toModel.unpack = unpacked at form above ⊢
  cases form with
  | zero sign => exact absurd above (lt_irrefl _)
  | finite sign mantissa exponent significand =>
    exact div_ne_notANumber (hasFiniteForm_of_finite finite) sign mantissa exponent significand

end Simplex.Double

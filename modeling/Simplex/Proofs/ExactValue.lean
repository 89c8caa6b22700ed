import Simplex.Proofs.NearestDouble

/-!
# Exact values of doubles

Finite doubles are ordered like the rational numbers they stand for (`toRat_le_toRat`), and every
number of 53 binary digits is one of these (`toRat_nearest`). Sums, differences and products of
positive doubles are the doubles nearest to the exact results, and so is what rounding to decimal
places gives, which rounds the exact value first: `roundToPlaces_eq_nearest`.
-/

namespace Simplex.Double

open Float.Model Float.Model.UnpackedFloat

section Values

/-- The rational number that a form stands for; zero where it stands for none. -/
def formValue : UnpackedFloat → Rat
  | .finite sign mantissa exponent _ => (sign.apply mantissa : Int) * 2 ^ exponent
  | _ => 0

/-- The rational number that a finite double stands for. -/
def toRat (value : Float) : Rat := formValue value.toModel.unpack

variable {mantissa other : Nat} {exponent place : Int} {sign otherSign : Sign}

@[simp] theorem formValue_zero (sign : Sign) : formValue (.zero sign) = 0 := rfl

@[simp] theorem formValue_positive (positive : 0 < mantissa) :
    formValue (.finite .positive mantissa exponent positive) = mantissa * 2 ^ exponent := by
  simp [formValue, Sign.apply]

@[simp] theorem formValue_negative (positive : 0 < mantissa) :
    formValue (.finite .negative mantissa exponent positive) = -(mantissa * 2 ^ exponent) := by
  simp [formValue, Sign.apply]

theorem value_pos (positive : 0 < mantissa) (exponent : Int) :
    (0 : Rat) < mantissa * 2 ^ exponent :=
  mul_pos (by exact_mod_cast positive) (two_zpow_pos _)

/-- The digits of a canonical significand. -/
theorem Canonical.digits {positive : 0 < mantissa}
    (canonical : Canonical (.finite sign mantissa exponent positive)) :
    mantissa < 2 ^ 53 ∧ -1074 ≤ exponent ∧ (exponent ≠ -1074 → 2 ^ 52 ≤ mantissa) ∧
      exponent ≤ greatestExponent := by
  cases canonical with
  | finite positive fits bounded =>
    rw [targetExponent_eq] at fits
    refine ⟨(Nat.log2_lt positive.ne').1 (by omega), by omega, fun above => ?_, bounded⟩
    exact (Nat.le_log2 positive.ne').1 (by omega)

/-- Canonical forms are ordered by their exponents first. -/
theorem value_le_of_toLex_le {positive : 0 < mantissa} {otherPositive : 0 < other}
    (canonical : Canonical (.finite sign mantissa exponent positive))
    (otherCanonical : Canonical (.finite otherSign other place otherPositive))
    (below : toLex (exponent, (mantissa : Int)) ≤ toLex (place, (other : Int))) :
    (mantissa * 2 ^ exponent : Rat) ≤ other * 2 ^ place := by
  rcases Prod.Lex.toLex_le_toLex.1 below with less | ⟨rfl, le⟩
  · have small := canonical.digits.1
    have least := canonical.digits.2.1
    have large := otherCanonical.digits.2.2.1 (by simp only at less; omega)
    calc (mantissa * 2 ^ exponent : Rat) ≤ (2 ^ 53 : Nat) * 2 ^ exponent :=
          mul_le_mul_of_nonneg_right (by exact_mod_cast small.le) (two_zpow_pos _).le
      _ = (2 ^ 52 : Nat) * 2 ^ (exponent + 1) := by
          rw [zpow_add_one₀ two_ne_zero]
          push_cast
          ring
      _ ≤ other * 2 ^ place := by
          refine mul_le_mul (by exact_mod_cast large) (zpow_le_zpow_right₀ one_le_two less)
            (two_zpow_pos _).le (by positivity)
  · have significands : mantissa ≤ other := Int.ofNat_le.1 le
    exact mul_le_mul_of_nonneg_right (by exact_mod_cast significands) (two_zpow_pos _).le

variable {first second : Float}

/-- Finite doubles are ordered like their exact values. -/
theorem toRat_le_toRat (firstFinite : Scalar.Finite first) (secondFinite : Scalar.Finite second)
    (below : first ≤ second) : toRat first ≤ toRat second := by
  have ranks := (le_iff.1 below).2.2
  rw [finite_iff_hasFiniteForm] at firstFinite secondFinite
  have firstCanonical := canonical_unpack first.toModel
  have secondCanonical := canonical_unpack second.toModel
  rw [rank, rank] at ranks
  rw [toRat, toRat]
  generalize first.toModel.unpack = left at *
  generalize second.toModel.unpack = right at *
  cases firstFinite with
  | zero =>
    cases secondFinite with
    | zero => simp
    | finite sign mantissa exponent positive =>
      cases sign with
      | positive => simpa using (value_pos positive exponent).le
      | negative => simp [unpackedRank, Prod.Lex.toLex_le_toLex] at ranks
  | finite sign mantissa exponent positive =>
    cases secondFinite with
    | zero =>
      cases sign with
      | positive => simp [unpackedRank, Prod.Lex.toLex_le_toLex] at ranks
      | negative => simpa using (value_pos positive exponent).le
    | finite otherSign other place otherPositive =>
      have otherValue := value_pos otherPositive place
      have value := value_pos positive exponent
      rcases sign with _ | _ <;> rcases otherSign with _ | _ <;>
        simp only [formValue_positive, formValue_negative]
      case negative.negative =>
        -- Among negative numbers the order of the magnitudes is the opposite one.
        refine neg_le_neg (value_le_of_toLex_le secondCanonical firstCanonical ?_)
        simp only [unpackedRank, Prod.Lex.toLex_le_toLex, lt_self_iff_false, false_or, true_and,
          neg_lt_neg_iff, neg_inj, neg_le_neg_iff] at ranks ⊢
        exact ranks.imp_right fun ranked => ⟨ranked.1.symm, ranked.2⟩
      case negative.positive => linarith
      case positive.negative =>
        simp [unpackedRank, Prod.Lex.toLex_le_toLex] at ranks
      case positive.positive =>
        refine value_le_of_toLex_le firstCanonical secondCanonical ?_
        simpa only [unpackedRank, Prod.Lex.toLex_le_toLex, lt_self_iff_false, false_or,
          true_and] using ranks

protected theorem le_of_lt (less : first < second) : first ≤ second := by
  obtain ⟨firstNumber, secondNumber, ranks⟩ := lt_iff.1 less
  exact le_iff.2 ⟨firstNumber, secondNumber, ranks.le⟩

theorem lt_of_toRat_lt (firstFinite : Scalar.Finite first)
    (secondFinite : Scalar.Finite second) (less : toRat first < toRat second) :
    first < second := by
  have number {value : Float} (finite : Scalar.Finite value) : ¬ Scalar.Unordered value := by
    have form := hasFiniteForm_of_finite finite
    rw [not_unordered_iff, IsNumber]
    generalize value.toModel.unpack = unpacked at form ⊢
    cases form <;> simp
  rw [OrderedScalar.lt_iff_not_le (number firstFinite) (number secondFinite)]
  exact fun above => less.not_ge (toRat_le_toRat secondFinite firstFinite above)

/-- A double between finite ones is finite. -/
theorem finite_of_between {value : Float} (firstFinite : Scalar.Finite first)
    (secondFinite : Scalar.Finite second) (above : first ≤ value) (below : value ≤ second) :
    Scalar.Finite value := by
  obtain ⟨-, number, low⟩ := le_iff.1 above
  have high := (le_iff.1 below).2.2
  rw [finite_iff_hasFiniteForm] at firstFinite secondFinite ⊢
  rw [IsNumber] at number
  rw [rank, rank] at low high
  generalize first.toModel.unpack = left at *
  generalize second.toModel.unpack = right at *
  generalize value.toModel.unpack = middle at *
  cases middle with
  | notANumber => exact absurd rfl number
  | zero sign => exact .zero sign
  | finite sign mantissa exponent positive => exact .finite sign mantissa exponent positive
  | infinity sign =>
    cases sign with
    | negative =>
      rcases firstFinite with _ | ⟨_ | _, _, _, _⟩ <;>
        simp [unpackedRank, Prod.Lex.toLex_le_toLex] at low
    | positive =>
      rcases secondFinite with _ | ⟨_ | _, _, _, _⟩ <;>
        simp [unpackedRank, Prod.Lex.toLex_le_toLex] at high

/-- A double with a positive exact value has a canonical form. -/
theorem exists_form (positive : 0 < toRat first) : ∃ mantissa exponent nonzero,
    first.toModel.unpack = .finite .positive mantissa exponent nonzero ∧
      Canonical (.finite .positive mantissa exponent nonzero) ∧
        toRat first = mantissa * 2 ^ exponent := by
  have canonical := canonical_unpack first.toModel
  rw [toRat] at positive ⊢
  generalize first.toModel.unpack = form at *
  cases form with
  | notANumber => exact absurd positive (lt_irrefl _)
  | infinity => exact absurd positive (lt_irrefl _)
  | zero => exact absurd positive (lt_irrefl _)
  | finite sign mantissa exponent nonzero =>
    cases sign with
    | positive => exact ⟨mantissa, exponent, nonzero, rfl, canonical, formValue_positive nonzero⟩
    | negative =>
      rw [formValue_negative] at positive
      exact absurd (value_pos nonzero exponent) (not_lt.2 (neg_pos.1 positive).le)

end Values

section Representable

variable {mantissa extra : Nat} {exponent : Int} {value : Float}

/-- A number whose digits fit is not changed by rounding. -/
theorem unpack_nearest (positive : 0 < mantissa)
    (sum : lastPlace (mantissa * 2 ^ exponent) + extra = exponent)
    (small : mantissa * 2 ^ extra < 2 ^ 53) (bounded : exponent - extra ≤ greatestExponent) :
    (nearest (mantissa * 2 ^ exponent)).toModel.unpack =
      .finite .positive (mantissa * 2 ^ extra) (exponent - extra) (by positivity) := by
  have place : lastPlace (mantissa * 2 ^ exponent) = exponent - extra := by omega
  have least : -1074 ≤ lastPlace (mantissa * 2 ^ exponent) := le_max_right _ _
  have leading := le_roundedSignificand (value_pos positive exponent)
  have digits : roundedSignificand (mantissa * 2 ^ exponent) = mantissa * 2 ^ extra := by
    have quotient : (mantissa * 2 ^ exponent : Rat) / 2 ^ (exponent - extra) =
        (mantissa * 2 ^ extra : Nat) := by
      rw [zpow_sub₀ two_ne_zero, zpow_natCast]
      push_cast
      field_simp
    rw [roundedSignificand, place, quotient, roundEven_natCast]
  have rounded : Rounded .positive (lastPlace (mantissa * 2 ^ exponent))
      (roundedSignificand (mantissa * 2 ^ exponent))
      (.finite .positive (mantissa * 2 ^ extra) (exponent - extra) (by positivity)) := by
    rw [digits, place]
    exact .kept (by positivity) small
  rw [← unpack_pack_of_rounded (value_pos positive exponent) rounded]
  rw [digits, place] at leading
  exact unpack_pack (canonical_of_leading (by positivity) small (place ▸ least) leading bounded _)

/-- Rounding an exact value gives the double itself. -/
theorem nearest_toRat (positive : 0 < toRat value) : nearest (toRat value) = value := by
  obtain ⟨mantissa, exponent, nonzero, form, canonical, same⟩ := exists_form positive
  apply eq_of_unpack_eq
  cases canonical with
  | finite nonzero fits bounded =>
    rw [targetExponent_eq] at fits
    have small := (Nat.log2_lt nonzero.ne').1 (show mantissa.log2 < 53 by omega)
    have place : lastPlace (mantissa * 2 ^ exponent) + (0 : Nat) = exponent := by
      rw [lastPlace, log_mul_two_zpow nonzero]
      omega
    rw [same, form, unpack_nearest nonzero place (by omega) (by omega)]
    simp

/-- Numbers of 53 binary digits are exact values. -/
theorem toRat_nearest (positive : 0 < mantissa) (small : mantissa < 2 ^ 53)
    (least : -1074 ≤ exponent) (bounded : exponent ≤ greatestExponent) :
    Scalar.Finite (nearest (mantissa * 2 ^ exponent)) ∧
      toRat (nearest (mantissa * 2 ^ exponent)) = mantissa * 2 ^ exponent := by
  have digits := (Nat.log2_lt positive.ne').2 small
  have place : lastPlace (mantissa * 2 ^ exponent) =
      max (mantissa.log2 + exponent - 52) (-1074) := by
    rw [lastPlace, log_mul_two_zpow positive]
  obtain ⟨extra, sum⟩ : ∃ extra : Nat, lastPlace (mantissa * 2 ^ exponent) + extra = exponent :=
    ⟨(exponent - lastPlace (mantissa * 2 ^ exponent)).toNat, by omega⟩
  have fits : mantissa * 2 ^ extra < 2 ^ 53 := by
    have length : mantissa.log2 + 1 + extra ≤ 53 := by omega
    calc mantissa * 2 ^ extra < 2 ^ (mantissa.log2 + 1) * 2 ^ extra :=
          Nat.mul_lt_mul_of_pos_right Nat.lt_log2_self (Nat.two_pow_pos _)
      _ = 2 ^ (mantissa.log2 + 1 + extra) := (Nat.pow_add ..).symm
      _ ≤ 2 ^ 53 := Nat.pow_le_pow_right two_pos length
  have form := unpack_nearest positive sum fits (by omega)
  refine ⟨finite_iff_hasFiniteForm.2 (form ▸ .finite ..), ?_⟩
  rw [toRat, form, formValue_positive, zpow_sub₀ two_ne_zero, zpow_natCast]
  push_cast
  field_simp

end Representable

section Operations

variable {mantissa : Nat} {exponent : Int} {first second : Float}

/-- Digits that are put behind a significand do not change what it is rounded to. -/
theorem rounded_round (positive : 0 < mantissa) :
    Rounded .positive (lastPlace (mantissa * 2 ^ exponent))
      (roundedSignificand (mantissa * 2 ^ exponent))
      (UnpackedFloat.round Format.binary64 .positive mantissa exponent) := by
  have target : Format.binary64.targetExponent (totalExponent mantissa exponent) =
      lastPlace (mantissa * 2 ^ exponent) := by
    rw [targetExponent_eq, lastPlace, log_mul_two_zpow positive]
  obtain ⟨digits, amount⟩ : ∃ digits : Nat,
      (exponent - lastPlace (mantissa * 2 ^ exponent)).toNat = digits := ⟨_, rfl⟩
  have same : (mantissa * 2 ^ exponent : Rat) =
      (mantissa <<< digits : Nat) * 2 ^ (exponent - digits) := by
    rw [Nat.shiftLeft_eq, zpow_sub₀ two_ne_zero, zpow_natCast]
    push_cast
    field_simp
  simp only [UnpackedFloat.round, decreaseExponent, target, amount]
  rw [same]
  refine rounded_roundWithAccuracy (by rw [Nat.shiftLeft_eq]; positivity) ?_
  rw [← same]
  omega

/-- Packing an exact result gives the nearest double. -/
theorem unpack_pack_normalize {result : Int} (exponent : Int) (nonnegative : 0 ≤ result) :
    (Float.Model.pack
        (UnpackedFloat.normalize Format.binary64 result exponent .positive)).unpack =
      (nearest (result * 2 ^ exponent)).toModel.unpack := by
  obtain ⟨mantissa, rfl⟩ := Int.eq_ofNat_of_zero_le nonnegative
  rcases Nat.eq_zero_or_pos mantissa with rfl | positive
  · have zero : nearest (((0 : Nat) : Int) * 2 ^ exponent) = nearest 0 := by simp
    rw [zero]
    rfl
  · have above : compare (mantissa : Int) 0 = .gt :=
      compare_gt_iff_gt.2 (Int.natCast_pos.2 positive)
    simp only [UnpackedFloat.normalize, above, Int.toNat_natCast, Int.cast_natCast]
    exact unpack_pack_of_rounded (value_pos positive exponent) (rounded_round positive)

theorem shiftLeft_mul_two_zpow {least : Int} (smaller : least ≤ exponent) :
    ((mantissa <<< (exponent - least).toNat : Nat) : Rat) * 2 ^ least =
      mantissa * 2 ^ exponent := by
  obtain ⟨digits, rfl⟩ := Int.le.dest smaller
  have amount : (least + digits - least).toNat = digits := by omega
  rw [amount, Nat.shiftLeft_eq, zpow_add₀ two_ne_zero, zpow_natCast]
  push_cast
  ring

/-- A sum of positive doubles is the double nearest to the exact sum. -/
theorem add_eq_nearest_of_pos (firstPositive : 0 < toRat first)
    (secondPositive : 0 < toRat second) : first + second = nearest (toRat first + toRat second) := by
  obtain ⟨mantissa, exponent, nonzero, form, -, value⟩ := exists_form firstPositive
  obtain ⟨addend, place, otherNonzero, otherForm, -, otherValue⟩ := exists_form secondPositive
  apply eq_of_unpack_eq
  rw [toModel_add, form, otherForm, value, otherValue,
    ← shiftLeft_mul_two_zpow (min_le_left exponent place),
    ← shiftLeft_mul_two_zpow (min_le_right exponent place), ← add_mul]
  have sum := unpack_pack_normalize (min exponent place)
    (Int.natCast_nonneg (mantissa <<< (exponent - min exponent place).toNat +
      addend <<< (place - min exponent place).toNat))
  rw [Int.cast_natCast, Nat.cast_add, Nat.cast_add] at sum
  exact sum

/-- A difference of positive doubles is the double nearest to the exact difference. -/
theorem sub_eq_nearest (secondPositive : 0 < toRat second) (less : toRat second ≤ toRat first) :
    first - second = nearest (toRat first - toRat second) := by
  obtain ⟨mantissa, exponent, nonzero, form, -, value⟩ :=
    exists_form (secondPositive.trans_le less)
  obtain ⟨subtrahend, place, otherNonzero, otherForm, -, otherValue⟩ := exists_form secondPositive
  apply eq_of_unpack_eq
  have difference : (first - second).toModel = Float.Model.pack (UnpackedFloat.sub Format.binary64
      first.toModel.unpack second.toModel.unpack) := rfl
  rw [value, otherValue, ← shiftLeft_mul_two_zpow (min_le_left exponent place),
    ← shiftLeft_mul_two_zpow (min_le_right exponent place)] at less
  rw [difference, form, otherForm, value, otherValue,
    ← shiftLeft_mul_two_zpow (min_le_left exponent place),
    ← shiftLeft_mul_two_zpow (min_le_right exponent place), ← sub_mul]
  have ordered : ((subtrahend <<< (place - min exponent place).toNat : Nat) : Int) ≤
      (mantissa <<< (exponent - min exponent place).toNat : Nat) := by
    exact_mod_cast le_of_mul_le_mul_right less (two_zpow_pos _)
  have result := unpack_pack_normalize (min exponent place) (Int.sub_nonneg.2 ordered)
  rw [Int.cast_sub, Int.cast_natCast, Int.cast_natCast] at result
  exact result

/-- The product of canonical significands has more digits than are kept. -/
theorem Canonical.add_le_lastPlace {other : Nat} {place : Int} {sign otherSign : Sign}
    {positive : 0 < mantissa} {otherPositive : 0 < other}
    (canonical : Canonical (.finite sign mantissa exponent positive))
    (otherCanonical : Canonical (.finite otherSign other place otherPositive)) :
    exponent + place ≤ lastPlace ((mantissa * other : Nat) * 2 ^ (exponent + place)) := by
  obtain ⟨-, -, leading, -⟩ := canonical.digits
  obtain ⟨-, -, otherLeading, -⟩ := otherCanonical.digits
  have product : mantissa * other ≠ 0 := (Nat.mul_pos positive otherPositive).ne'
  rw [lastPlace, log_mul_two_zpow (Nat.pos_of_ne_zero product)]
  by_cases lowest : exponent = -1074
  · by_cases otherLowest : place = -1074
    · omega
    · have large := (otherLeading otherLowest).trans (Nat.le_mul_of_pos_left other positive)
      have digits : 52 ≤ (mantissa * other).log2 := (Nat.le_log2 product).2 large
      omega
  · have large := (leading lowest).trans (Nat.le_mul_of_pos_right mantissa otherPositive)
    have digits : 52 ≤ (mantissa * other).log2 := (Nat.le_log2 product).2 large
    omega

/-- A product of positive doubles is the double nearest to the exact product. -/
theorem mul_eq_nearest_of_pos (firstPositive : 0 < toRat first)
    (secondPositive : 0 < toRat second) : first * second = nearest (toRat first * toRat second) := by
  obtain ⟨mantissa, exponent, nonzero, form, canonical, value⟩ := exists_form firstPositive
  obtain ⟨other, place, otherNonzero, otherForm, otherCanonical, otherValue⟩ :=
    exists_form secondPositive
  apply eq_of_unpack_eq
  have product : (first * second).toModel = Float.Model.pack (UnpackedFloat.mul Format.binary64
      first.toModel.unpack second.toModel.unpack) := rfl
  have values : (mantissa * 2 ^ exponent : Rat) * (other * 2 ^ place) =
      (mantissa * other : Nat) * 2 ^ (exponent + place) := by
    rw [zpow_add₀ two_ne_zero]
    push_cast
    ring
  rw [product, form, otherForm, value, otherValue, values]
  have positive : 0 < mantissa * other := Nat.mul_pos nonzero otherNonzero
  exact unpack_pack_of_rounded (value_pos positive _)
    (rounded_roundWithAccuracy positive (canonical.add_le_lastPlace otherCanonical))

/-- A finite double that stands for zero is one of the two zeros. -/
theorem exists_zero_form (finite : Scalar.Finite first) (zero : toRat first = 0) :
    ∃ sign, first.toModel.unpack = .zero sign := by
  rw [finite_iff_hasFiniteForm] at finite
  rw [toRat] at zero
  generalize first.toModel.unpack = form at finite zero
  cases finite with
  | zero sign => exact ⟨sign, rfl⟩
  | finite sign mantissa exponent positive =>
    have value := value_pos positive exponent
    cases sign <;> simp only [formValue_positive, formValue_negative] at zero <;> linarith

/-- A sum of a positive double and one that is not negative is the double nearest to the exact
sum. -/
theorem add_eq_nearest (firstPositive : 0 < toRat first) (secondFinite : Scalar.Finite second)
    (secondNonneg : 0 ≤ toRat second) : first + second = nearest (toRat first + toRat second) := by
  rcases secondNonneg.lt_or_eq with positive | zero
  · exact add_eq_nearest_of_pos firstPositive positive
  · obtain ⟨sign, zeroForm⟩ := exists_zero_form secondFinite zero.symm
    obtain ⟨mantissa, exponent, nonzero, form, canonical, -⟩ := exists_form firstPositive
    rw [← zero, add_zero, nearest_toRat firstPositive]
    apply eq_of_unpack_eq
    rw [toModel_add, form, zeroForm]
    exact unpack_pack canonical

theorem finite_and_toRat_of_zero_form {sign : Sign} (form : first.toModel.unpack = .zero sign) :
    Scalar.Finite first ∧ toRat first = 0 :=
  ⟨finite_iff_hasFiniteForm.2 (form ▸ .zero sign), by rw [toRat, form, formValue_zero]⟩

theorem nearest_zero_form : (nearest 0).toModel.unpack = .zero .positive := rfl

/-- A product of a positive double and one that is not negative stands for the same number as the
double nearest to the exact product. -/
theorem toRat_mul (firstPositive : 0 < toRat first) (secondFinite : Scalar.Finite second)
    (secondNonneg : 0 ≤ toRat second)
    (finite : Scalar.Finite (nearest (toRat first * toRat second))) :
    Scalar.Finite (first * second) ∧
      toRat (first * second) = toRat (nearest (toRat first * toRat second)) := by
  rcases secondNonneg.lt_or_eq with positive | zero
  · rw [mul_eq_nearest_of_pos firstPositive positive]
    exact ⟨finite, rfl⟩
  · obtain ⟨sign, zeroForm⟩ := exists_zero_form secondFinite zero.symm
    obtain ⟨mantissa, exponent, nonzero, form, -, -⟩ := exists_form firstPositive
    have product : (first * second).toModel.unpack = .zero (.positive * sign) := by
      change (Float.Model.pack (UnpackedFloat.mul Format.binary64 first.toModel.unpack
        second.toModel.unpack)).unpack = _
      rw [form, zeroForm]
      exact unpack_pack (.zero _)
    rw [← zero, mul_zero, (finite_and_toRat_of_zero_form nearest_zero_form).2]
    exact finite_and_toRat_of_zero_form product

/-- Below the exact value of a finite double the nearest double is finite, and stands for a number
between zero and that value. -/
theorem nearest_bounded {value : Rat} (finite : Scalar.Finite first) (nonnegative : 0 ≤ value)
    (below : value ≤ toRat first) : Scalar.Finite (nearest value) ∧
      0 ≤ toRat (nearest value) ∧ toRat (nearest value) ≤ toRat first := by
  rcases nonnegative.lt_or_eq with positive | rfl
  · have last := nearest_toRat (positive.trans_le below)
    have upper := nearest_le_nearest below
    have lower := nearest_le_nearest nonnegative
    rw [last] at upper
    have zero := finite_and_toRat_of_zero_form nearest_zero_form
    have bounded := finite_of_between zero.1 finite lower upper
    have low := toRat_le_toRat zero.1 bounded lower
    rw [zero.2] at low
    exact ⟨bounded, low, toRat_le_toRat bounded finite upper⟩
  · have zero := finite_and_toRat_of_zero_form nearest_zero_form
    exact ⟨zero.1, zero.2.ge, zero.2.trans_le below⟩

end Operations

section Decimals

variable {bits mantissa places : Nat} {value : Float}

/-- A numeral with a point denotes the nearest double. -/
theorem toFloat_eq_nearest (mantissa : Nat) {exponent : Int} (point : exponent = -places)
    (few : places ≤ 300) :
    Decimal.toFloat ⟨false, mantissa, exponent⟩ = nearest ((mantissa : Rat) / 10 ^ places) := by
  subst point
  have magnitude : Decimal.magnitudeBits ⟨false, mantissa, -(places : Int)⟩ =
      bitsNear ((mantissa : Rat) / 10 ^ places) := by
    unfold Decimal.magnitudeBits
    split_ifs with zero great small
    · simp only at zero
      simp [zero, bitsNear]
    · simp only at great
      omega
    · simp only [neg_neg, Int.toNat_natCast] at small
      omega
    · simp only [Decimal.numerator, Decimal.denominator, neg_neg, Int.toNat_natCast, Nat.pow_eq,
        Int.toNat_neg_natCast, pow_zero, Nat.mul_one]
      rw [nearestBits_eq_bitsNear (Nat.pos_of_ne_zero zero) (Nat.pow_pos (by decide))]
      push_cast
      rfl
  rw [Decimal.toFloat, magnitude, nearest]

/-- The bits of a double below infinity are those it is made of. -/
theorem toNat_toBits_ofMagnitudeBits (below : bits < infinityBits) :
    (ofMagnitudeBits false bits).toBits.toNat = bits := by
  have small : bits < 2 ^ 64 := below.trans (by decide)
  have number := isNumber_ofMagnitudeBits below.le
  have unpacked : (ofMagnitudeBits false bits).toModel.unpack =
      UnpackedFloat.unpack Format.binary64 (BitVec.ofNat 64 bits) := unpack_ofBits _
  rw [IsNumber, unpacked] at number
  have valid : Format.binary64.Valid (BitVec.ofNat 64 bits) :=
    ⟨fun greatest nonzero => absurd (by simp [UnpackedFloat.unpack, greatest, nonzero]) number⟩
  have same := (unpack_inj_of_valid (ofMagnitudeBits false bits).toModel.valid valid).1 unpacked
  have digits := congrArg BitVec.toNat same
  rw [BitVec.toNat_ofNat, Nat.mod_eq_of_lt small] at digits
  exact digits

theorem toRat_ofMagnitudeBits (positive : 0 < bits) (below : bits < infinityBits) :
    toRat (ofMagnitudeBits false bits) = ((quotient bits).1 : Rat) / (quotient bits).2 := by
  rw [toRat, unpack_ofMagnitudeBits (significand_pos positive) below, formValue_positive,
    two_zpow_eq_div]
  simp [quotient, mul_div_assoc]

/-- A positive finite double is made of its magnitude bits. -/
theorem exists_magnitudeBits (finite : Scalar.Finite value) (positive : 0 < toRat value) :
    ∃ bits, 0 < bits ∧ bits < infinityBits ∧ value = ofMagnitudeBits false bits := by
  have self := nearest_toRat positive
  refine ⟨bitsNear (toRat value), ?_, ?_, self.symm⟩
  · rw [Nat.pos_iff_ne_zero]
    intro zero
    rw [nearest, zero] at self
    rw [← self, toRat, unpack_ofMagnitudeBits_zero, formValue_zero] at positive
    exact lt_irrefl _ positive
  · have bounded : bitsNear (toRat value) ≤ infinityBits := by
      unfold bitsNear
      split_ifs
      · exact Nat.zero_le _
      · exact min_le_right _ _
    refine lt_of_le_of_ne bounded fun infinite => ?_
    rw [nearest, infinite] at self
    rw [finite_iff_hasFiniteForm, ← self, unpack_infinity] at finite
    cases finite

/-- Rounding a positive double to decimal places rounds its exact value, and takes the double
nearest to the result. -/
theorem roundToPlaces_eq_nearest (finite : Scalar.Finite value) (positive : 0 < toRat value)
    (few : places ≤ 300) : roundToPlaces places value =
      nearest ((roundEven (toRat value * 10 ^ places) : Rat) / 10 ^ places) := by
  obtain ⟨bits, nonzero, below, rfl⟩ := exists_magnitudeBits finite positive
  have small : bits < signBit := below.trans (by decide)
  have magnitude : magnitudeBitsOf (ofMagnitudeBits false bits) = bits := by
    rw [magnitudeBitsOf, toNat_toBits_ofMagnitudeBits below, Nat.mod_eq_of_lt small]
  have unsigned : isNegative (ofMagnitudeBits false bits) = false := by
    rw [isNegative, toNat_toBits_ofMagnitudeBits below]
    exact decide_eq_false (not_le.2 small)
  have denominator : 0 < (quotient bits).2 := Nat.two_pow_pos _
  have scaled : roundDiv ((quotient bits).1 * Nat.pow 10 places) (quotient bits).2 =
      roundEven (toRat (ofMagnitudeBits false bits) * 10 ^ places) := by
    rw [roundDiv_eq_roundEven denominator, toRat_ofMagnitudeBits nonzero below, Nat.pow_eq]
    push_cast
    rw [div_mul_eq_mul_div]
  simp only [roundToPlaces, magnitude, unsigned, if_neg (not_le.2 below), scaled]
  exact toFloat_eq_nearest _ rfl few

end Decimals

end Simplex.Double

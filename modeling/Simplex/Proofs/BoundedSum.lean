import Simplex.Proofs.FiniteDouble

/-!
# Sums that stay finite

The greatest doubles are multiples of `2 ^ 971` with 53 bits. Rounding a value that is at most such
a multiple gives at most the same multiple, so a sum of few doubles that are each at most `2 ^ 971`
is finite in whatever way its partial sums are rounded. `Within.add` is the step of that argument,
and `within_toFloat` says when a numeral denotes a double of that kind.
-/

namespace Simplex.Double

open Float.Model Float.Model.UnpackedFloat

section Rounding

/-- Shifting divides the significand, and a bit is noted only where something was lost. -/
theorem shiftRight_exact (mantissa count : Nat) :
    ∃ round sticky, (⟨mantissa, false, false⟩ : ExtendedMantissa) >>> count =
        ⟨mantissa / 2 ^ count, round, sticky⟩ ∧
      ((round || sticky) = true → mantissa % 2 ^ count ≠ 0) := by
  induction count with
  | zero => exact ⟨false, false, by simp [HShiftRight.hShiftRight, Nat.repeat], by simp⟩
  | succ count ih =>
    obtain ⟨round, sticky, shifted, lost⟩ := ih
    have step : (⟨mantissa, false, false⟩ : ExtendedMantissa) >>> (count + 1) =
        ((⟨mantissa, false, false⟩ : ExtendedMantissa) >>> count).shiftRightOne := rfl
    refine ⟨mantissa / 2 ^ count % 2 != 0, round || sticky, ?_, fun noted => ?_⟩
    · rw [step, shifted, ExtendedMantissa.shiftRightOne, Nat.div_div_eq_div_mul, ← Nat.pow_succ]
    · rw [Nat.pow_succ, Nat.mod_mul]
      have digit : 0 < 2 ^ count := Nat.two_pow_pos count
      rcases Bool.or_eq_true_iff.1 noted with last | earlier
      · have odd : mantissa / 2 ^ count % 2 ≠ 0 := by simpa using last
        positivity
      · have nonzero := lost earlier
        omega

/-- Rounding changes a significand by less than one. -/
theorem roundedMantissa_mk (mantissa : Nat) (round sticky : Bool) :
    mantissa ≤ (⟨mantissa, round, sticky⟩ : ExtendedMantissa).roundedMantissa ∧
      (⟨mantissa, round, sticky⟩ : ExtendedMantissa).roundedMantissa ≤
        mantissa + (round || sticky).toNat := by
  cases round <;> cases sticky <;>
    simp [ExtendedMantissa.roundedMantissa, ExtendedMantissa.accuracy,
      Accuracy.roundToNearestEven]
  omega

/-- A significand that is shifted and rounded. -/
def roundedShift (mantissa count : Nat) : Nat :=
  ((⟨mantissa, false, false⟩ : ExtendedMantissa) >>> count).roundedMantissa

theorem div_le_roundedShift (mantissa count : Nat) :
    mantissa / 2 ^ count ≤ roundedShift mantissa count := by
  obtain ⟨round, sticky, shifted, -⟩ := shiftRight_exact mantissa count
  rw [roundedShift, shifted]
  exact (roundedMantissa_mk _ round sticky).1

/-- Rounding does not pass a natural number. -/
theorem roundedShift_le {mantissa count bound : Nat} (below : mantissa ≤ bound * 2 ^ count) :
    roundedShift mantissa count ≤ bound := by
  obtain ⟨round, sticky, shifted, lost⟩ := shiftRight_exact mantissa count
  have upper := (roundedMantissa_mk (mantissa / 2 ^ count) round sticky).2
  rw [roundedShift, shifted]
  have parts := Nat.div_add_mod mantissa (2 ^ count)
  cases noted : round || sticky with
  | false =>
    rw [noted] at upper
    exact upper.trans (Nat.div_le_of_le_mul (by rwa [Nat.mul_comm]))
  | true =>
    rw [noted] at upper
    have remainder := lost noted
    have less : mantissa / 2 ^ count < bound := by
      refine Nat.lt_of_mul_lt_mul_left (a := 2 ^ count) ?_
      rw [Nat.mul_comm (2 ^ count) bound]
      omega
    exact upper.trans less

end Rounding

section Within

variable {count : Nat} {sign : Sign} {mantissa : Nat} {exponent : Int}

/-- The form is at most `count` times `2 ^ 971`, in either direction. -/
def FormWithin (count : Nat) : UnpackedFloat → Prop
  | .zero _ => True
  | .finite _ mantissa exponent _ =>
    mantissa ≤ count * 2 ^ (greatestExponent - exponent).toNat
  | _ => False

/-- A significand whose exponent is large enough is not shifted. -/
theorem shiftToTargetExponent_of_le
    (fits : Format.binary64.targetExponent (totalExponent mantissa exponent) ≤ exponent) :
    shiftToTargetExponent Format.binary64 mantissa exponent .exact =
      (⟨mantissa, false, false⟩, exponent) := by
  have none : (Format.binary64.targetExponent (totalExponent mantissa exponent) - exponent).toNat =
      0 := by
    omega
  rw [shiftToTargetExponent, shiftToExponent, none]
  simp [ExtendedMantissa.ofMantissaAndAccuracy, HShiftRight.hShiftRight, Nat.repeat]

/-- A significand that was rounded up to 54 bits has a last digit to spare. -/
theorem shiftToTargetExponent_carry (bounded : -1074 ≤ exponent) :
    shiftToTargetExponent Format.binary64 (2 ^ 53) exponent .exact =
      (⟨2 ^ 52, false, false⟩, exponent + 1) := by
  have target : Format.binary64.targetExponent (totalExponent (2 ^ 53) exponent) =
      exponent + 1 := by
    rw [targetExponent_eq, Nat.log2_two_pow]
    omega
  have one : (exponent + 1 - exponent).toNat = 1 := by omega
  have shifted := shiftRight_extendedMantissa 1 (2 ^ 52)
  rw [shiftToTargetExponent, target, shiftToExponent, one]
  simp only [ExtendedMantissa.ofMantissaAndAccuracy]
  rw [show 2 ^ 53 = 2 ^ 1 * 2 ^ 52 from rfl, shifted]
  rfl

/-- What a significand is rounded to at an exponent: nothing, itself, or a carry. -/
inductive Rounded (sign : Sign) (target : Int) : Nat → UnpackedFloat → Prop
  | zero : Rounded sign target 0 (.zero sign)
  | kept {rounded : Nat} (positive : 0 < rounded) (small : rounded < 2 ^ 53) :
      Rounded sign target rounded (.finite sign rounded target positive)
  | carried : Rounded sign target (2 ^ 53) (.finite sign (2 ^ 52) (target + 1) (by decide))

/-- The shift that brings a significand to the exponent it is rounded to. -/
structure Shifts (mantissa : Nat) (exponent target : Int) (shift : Nat) : Prop where
  sum : exponent + shift = target
  target : target = max (mantissa.log2 + exponent - 52) (-1074)

theorem exists_shifts
    (lowered : exponent ≤ Format.binary64.targetExponent (totalExponent mantissa exponent)) :
    ∃ target shift, Shifts mantissa exponent target shift := by
  rw [targetExponent_eq] at lowered
  exact ⟨_, (max (mantissa.log2 + exponent - 52) (-1074) - exponent).toNat, by omega, rfl⟩

namespace Shifts

variable {target : Int} {shift : Nat}

theorem roundedShift_le (shifts : Shifts mantissa exponent target shift) :
    roundedShift mantissa shift ≤ 2 ^ 53 := by
  obtain ⟨sum, targeted⟩ := shifts
  refine Double.roundedShift_le ?_
  rw [← Nat.pow_add]
  exact Nat.lt_log2_self.le.trans (Nat.pow_le_pow_right (by decide) (by omega))

/-- Above the least exponent a rounded significand has its leading digit. -/
theorem le_roundedShift (shifts : Shifts mantissa exponent target shift)
    (positive : 0 < mantissa) (above : target ≠ -1074) :
    2 ^ 52 ≤ roundedShift mantissa shift := by
  obtain ⟨sum, targeted⟩ := shifts
  refine le_trans ?_ (div_le_roundedShift mantissa shift)
  rw [Nat.le_div_iff_mul_le (Nat.two_pow_pos shift), ← Nat.pow_add]
  exact (Nat.pow_le_pow_right (by decide) (by omega)).trans (Nat.log2_self_le positive.ne')

/-- The two passes of rounding, of which the second one only takes care of a carry. -/
theorem rounded (shifts : Shifts mantissa exponent target shift) (sign : Sign) :
    Rounded sign target (roundedShift mantissa shift)
      (roundWithAccuracy Format.binary64 sign mantissa exponent .exact) := by
  have first : shiftToTargetExponent Format.binary64 mantissa exponent .exact =
      ((⟨mantissa, false, false⟩ : ExtendedMantissa) >>> shift, target) := by
    obtain ⟨sum, targeted⟩ := shifts
    have amount : (target - exponent).toNat = shift := by omega
    rw [shiftToTargetExponent, targetExponent_eq, ← targeted, shiftToExponent, amount, sum]
    rfl
  have digits := shifts.roundedShift_le
  have least : -1074 ≤ target := shifts.target ▸ le_max_right _ _
  simp only [roundWithAccuracy, first]
  change Rounded sign target (roundedShift mantissa shift)
    (let final := shiftToTargetExponent Format.binary64 (roundedShift mantissa shift) target .exact
    if zero : final.1.mantissa = 0 then .zero sign
    else .finite sign final.1.mantissa final.2 (Nat.pos_of_ne_zero zero))
  generalize roundedShift mantissa shift = rounded at digits ⊢
  by_cases carry : rounded = 2 ^ 53
  · subst carry
    simp only [shiftToTargetExponent_carry least]
    exact .carried
  · have small : rounded < 2 ^ 53 := lt_of_le_of_ne digits carry
    have log : rounded.log2 ≤ 52 := by
      rcases Nat.eq_zero_or_pos rounded with rfl | positive
      · simp
      · exact Nat.le_of_lt_succ ((Nat.log2_lt positive.ne').2 small)
    have fits : Format.binary64.targetExponent (totalExponent rounded target) ≤ target := by
      rw [targetExponent_eq]
      omega
    simp only [shiftToTargetExponent_of_le fits]
    split_ifs with zero
    · subst zero
      exact .zero
    · exact .kept (Nat.pos_of_ne_zero zero) small

end Shifts

/-- A canonical form that is at most `count` times `2 ^ 971`, in either direction. -/
structure FormBounded (count : Nat) (value : UnpackedFloat) : Prop where
  canonical : Canonical value
  within : FormWithin count value

/-- Rounding does not pass a multiple of `2 ^ 971` of 53 bits. -/
theorem formBounded_roundWithAccuracy (few : count < 2 ^ 53) (sign : Sign)
    (positive : 0 < mantissa)
    (lowered : exponent ≤ Format.binary64.targetExponent (totalExponent mantissa exponent))
    (bounded : exponent ≤ greatestExponent)
    (within : mantissa ≤ count * 2 ^ (greatestExponent - exponent).toNat) :
    FormBounded count (roundWithAccuracy Format.binary64 sign mantissa exponent .exact) := by
  obtain ⟨target, shift, shifts⟩ := exists_shifts lowered
  obtain ⟨sum, targeted⟩ := shifts
  rw [greatestExponent] at bounded within
  have less : mantissa < 2 ^ (53 + (971 - exponent).toNat) := by
    rw [Nat.pow_add]
    exact within.trans_lt (Nat.mul_lt_mul_of_pos_right few (Nat.two_pow_pos _))
  have log := (Nat.log2_lt positive.ne').2 less
  have packed : target ≤ 971 := by omega
  have room : (971 - exponent).toNat = (971 - target).toNat + shift := by omega
  have below : roundedShift mantissa shift ≤ count * 2 ^ (971 - target).toNat := by
    refine roundedShift_le ?_
    rwa [Nat.mul_assoc, ← Nat.pow_add, ← room]
  have leading := Shifts.le_roundedShift ⟨sum, targeted⟩ positive
  have rounded := Shifts.rounded ⟨sum, targeted⟩ sign
  generalize roundWithAccuracy Format.binary64 sign mantissa exponent .exact = result at rounded
  generalize roundedShift mantissa shift = digits at below leading rounded
  cases rounded with
  | zero => exact ⟨.zero sign, trivial⟩
  | kept nonzero small =>
    refine ⟨.finite nonzero ?_ (by rwa [greatestExponent]), by rwa [FormWithin, greatestExponent]⟩
    rw [targetExponent_eq]
    have upper := (Nat.log2_lt nonzero.ne').2 small
    by_cases least : target = -1074
    · omega
    · have full : digits.log2 = 52 := (Nat.log2_eq_iff nonzero.ne').2 ⟨leading least, small⟩
      omega
  | carried =>
    -- A carry leaves room for a greater exponent.
    have raised : target ≤ 970 := by
      by_contra greatest
      have none : (971 - target).toNat = 0 := by omega
      rw [none] at below
      omega
    have doubled : (971 - target).toNat = (971 - (target + 1)).toNat + 1 := by omega
    refine ⟨.finite (by decide) ?_ (by rw [greatestExponent]; omega), ?_⟩
    · rw [targetExponent_eq, Nat.log2_two_pow]
      omega
    · rw [doubled, pow_succ 2 (971 - (target + 1)).toNat, ← Nat.mul_assoc] at below
      rw [FormWithin, greatestExponent]
      omega

/-- Digits that are put behind a significand make up for a smaller exponent. -/
theorem formBounded_round (few : count < 2 ^ 53) (sign : Sign) (positive : 0 < mantissa)
    (bounded : exponent ≤ greatestExponent)
    (within : mantissa ≤ count * 2 ^ (greatestExponent - exponent).toNat) :
    FormBounded count (UnpackedFloat.round Format.binary64 sign mantissa exponent) := by
  obtain ⟨target, targeted⟩ : ∃ target,
      Format.binary64.targetExponent (totalExponent mantissa exponent) = target := ⟨_, rfl⟩
  obtain ⟨digits, amount⟩ : ∃ digits : Nat, (exponent - target).toNat = digits := ⟨_, rfl⟩
  rw [greatestExponent] at bounded within
  have exponents := targetExponent_eq mantissa exponent
  have log := log2_two_pow_mul digits positive
  simp only [UnpackedFloat.round, decreaseExponent, targeted, amount, Nat.shiftLeft_eq,
    Nat.mul_comm mantissa]
  refine formBounded_roundWithAccuracy few sign (by positivity) ?_ ?_ ?_
  · rw [targetExponent_eq, log]
    omega
  · rw [greatestExponent]
    omega
  · have room : (971 - (exponent - digits)).toNat = digits + (971 - exponent).toNat := by omega
    rw [greatestExponent, room, Nat.pow_add, Nat.mul_left_comm]
    exact Nat.mul_le_mul_left _ within

end Within

section Addition

variable {count further : Nat} {first second : Float}

theorem FormBounded.mono {value : UnpackedFloat} (bounded : FormBounded count value)
    (more : count ≤ further) : FormBounded further value := by
  obtain ⟨canonical, within⟩ := bounded
  refine ⟨canonical, ?_⟩
  cases canonical with
  | notANumber => exact within
  | infinity sign => exact within
  | zero sign => trivial
  | finite positive fits bounded => exact within.trans (Nat.mul_le_mul_right _ more)

/-- The significand at a smaller exponent. -/
theorem FormBounded.le_of_decreased {sign : Sign} {mantissa : Nat} {exponent least : Int}
    {positive : 0 < mantissa}
    (bounded : FormBounded count (.finite sign mantissa exponent positive))
    (smaller : least ≤ exponent) :
    mantissa <<< (exponent - least).toNat ≤ count * 2 ^ (greatestExponent - least).toNat := by
  obtain ⟨canonical, within⟩ := bounded
  cases canonical with
  | finite positive fits below =>
    have room : (greatestExponent - least).toNat =
        (greatestExponent - exponent).toNat + (exponent - least).toNat := by omega
    rw [Nat.shiftLeft_eq, room, Nat.pow_add, ← Nat.mul_assoc]
    exact Nat.mul_le_mul_right _ within

theorem formBounded_normalize {sum exponent : Int} (few : count < 2 ^ 53)
    (bounded : exponent ≤ greatestExponent)
    (within : sum.natAbs ≤ count * 2 ^ (greatestExponent - exponent).toNat) (zeroSign : Sign) :
    FormBounded count (UnpackedFloat.normalize Format.binary64 sum exponent zeroSign) := by
  unfold UnpackedFloat.normalize
  split
  · rename_i negative
    have below : sum < 0 := compare_lt_iff_lt.1 negative
    have magnitude : (-sum).toNat = sum.natAbs := by omega
    rw [magnitude]
    exact formBounded_round few .negative (by omega) bounded within
  · exact ⟨.zero zeroSign, trivial⟩
  · rename_i positive
    have above : 0 < sum := compare_gt_iff_gt.1 positive
    have magnitude : sum.toNat = sum.natAbs := by omega
    rw [magnitude]
    exact formBounded_round few .positive (by omega) bounded within

/-- Terms do not add up to more than their magnitudes. -/
theorem natAbs_apply_add_apply (leftSign rightSign : Sign) (left right : Nat) :
    (leftSign.apply left + rightSign.apply right).natAbs ≤ left + right := by
  cases leftSign <;> cases rightSign <;> simp only [Sign.apply] <;> omega

/-- A sum of bounded forms is bounded by the sum of their bounds. -/
theorem FormBounded.add {left right : UnpackedFloat} (leftBounded : FormBounded count left)
    (rightBounded : FormBounded further right) (few : count + further < 2 ^ 53) :
    FormBounded (count + further) (UnpackedFloat.add Format.binary64 left right) := by
  cases left with
  | notANumber => exact leftBounded.within.elim
  | infinity sign => exact leftBounded.within.elim
  | zero sign =>
    cases right with
    | notANumber => exact rightBounded.within.elim
    | infinity sign => exact rightBounded.within.elim
    | zero other =>
      simp only [UnpackedFloat.add]
      split_ifs
      · exact ⟨.zero sign, trivial⟩
      · exact ⟨.zero .positive, trivial⟩
    | finite other mantissa exponent positive =>
      exact rightBounded.mono (Nat.le_add_left _ _)
  | finite sign mantissa exponent positive =>
    cases right with
    | notANumber => exact rightBounded.within.elim
    | infinity sign => exact rightBounded.within.elim
    | zero other => exact leftBounded.mono (Nat.le_add_right _ _)
    | finite other addend place nonzero =>
      have least : min exponent place ≤ greatestExponent := by
        cases leftBounded.canonical with
        | finite positive fits bounded => exact (min_le_left _ _).trans bounded
      have leftPart := leftBounded.le_of_decreased (min_le_left exponent place)
      have rightPart := rightBounded.le_of_decreased (min_le_right exponent place)
      refine formBounded_normalize few least ?_ .positive
      refine (natAbs_apply_add_apply sign other _ _).trans ?_
      rw [Nat.add_mul]
      exact Nat.add_le_add leftPart rightPart

/-- The double is at most `count` times `2 ^ 971`, in either direction. -/
def Within (count : Nat) (value : Float) : Prop := FormBounded count value.toModel.unpack

theorem Within.add (firstWithin : Within count first) (secondWithin : Within further second)
    (few : count + further < 2 ^ 53) : Within (count + further) (first + second) := by
  have sum := FormBounded.add firstWithin secondWithin few
  rwa [Within, toModel_add, unpack_pack sum.canonical]

theorem Within.neg (within : Within count first) : Within count (-first) := by
  obtain ⟨canonical, bounded⟩ := within
  rw [Within, unpack_neg]
  exact ⟨canonical.neg, by cases unpacked : first.toModel.unpack <;> rwa [unpacked] at bounded⟩

theorem Within.finite (within : Within count first) : Scalar.Finite first := by
  rw [finite_iff_hasFiniteForm]
  have bounded := within.within
  generalize first.toModel.unpack = unpacked at bounded
  cases unpacked with
  | notANumber => exact bounded.elim
  | infinity sign => exact bounded.elim
  | zero sign => exact .zero sign
  | finite sign mantissa exponent positive => exact .finite sign mantissa exponent positive

theorem within_zero : Within 0 0 := ⟨.zero .positive, trivial⟩

theorem within_one : Within 1 1 := by
  have unpacked : (1 : Float).toModel.unpack =
      .finite .positive (2 ^ 52) (-52) (by decide) := rfl
  refine ⟨canonical_unpack _, ?_⟩
  rw [unpacked, FormWithin, Nat.one_mul]
  exact Nat.pow_le_pow_right (by decide) (by decide)

end Addition

section Numerals

variable {num den bound : Nat}

/-- The floor of the binary logarithm is the exponent of the greatest power of two that is not
greater than the quotient. -/
theorem floorLog2_bounds (numPositive : 0 < num) (denPositive : 0 < den) :
    den * 2 ^ (floorLog2 num den).toNat ≤ num * 2 ^ (-floorLog2 num den).toNat ∧
      num * 2 ^ (-(floorLog2 num den + 1)).toNat < den * 2 ^ (floorLog2 num den + 1).toNat := by
  have numLow := Nat.log2_self_le numPositive.ne'
  have numHigh : num < 2 ^ (num.log2 + 1) := Nat.lt_log2_self
  have denLow := Nat.log2_self_le denPositive.ne'
  have denHigh : den < 2 ^ (den.log2 + 1) := Nat.lt_log2_self
  simp only [floorLog2, Nat.pow_eq]
  split_ifs with reached
  · refine ⟨reached, ?_⟩
    generalize up : ((num.log2 : Int) - den.log2 + 1).toNat = more
    generalize down : (-((num.log2 : Int) - den.log2 + 1)).toNat = less
    calc num * 2 ^ less < 2 ^ (num.log2 + 1) * 2 ^ less :=
          Nat.mul_lt_mul_of_pos_right numHigh (Nat.two_pow_pos _)
      _ = 2 ^ den.log2 * 2 ^ more := by
          rw [← Nat.pow_add, ← Nat.pow_add]
          congr 1
          omega
      _ ≤ den * 2 ^ more := Nat.mul_le_mul_right _ denLow
  · rw [sub_add_cancel]
    refine ⟨?_, Nat.lt_of_not_le reached⟩
    generalize up : ((num.log2 : Int) - den.log2 - 1).toNat = more
    generalize down : (-((num.log2 : Int) - den.log2 - 1)).toNat = less
    calc den * 2 ^ more ≤ 2 ^ (den.log2 + 1) * 2 ^ more := Nat.mul_le_mul_right _ denHigh.le
      _ = 2 ^ num.log2 * 2 ^ less := by
          rw [← Nat.pow_add, ← Nat.pow_add]
          congr 1
          omega
      _ ≤ num * 2 ^ less := Nat.mul_le_mul_right _ numLow

/-- Rounding a quotient does not pass a natural number. -/
theorem roundDiv_le (below : num ≤ bound * den) (positive : 0 < den) :
    roundDiv num den ≤ bound := by
  have quotient : num / den ≤ bound := Nat.div_le_of_le_mul (by rwa [Nat.mul_comm])
  have strict (remains : 0 < num % den) : num / den < bound := by
    refine Nat.lt_of_mul_lt_mul_left (a := den) ?_
    have parts := Nat.div_add_mod num den
    rw [Nat.mul_comm den bound]
    omega
  simp only [roundDiv]
  split_ifs with less more even
  · exact quotient
  · exact strict (by omega)
  · exact quotient
  · exact strict (by omega)

/-- The bits of `2 ^ 971`. -/
def unitBits : Nat := 1994 * hiddenBit

/-- The floor of the binary logarithm of a quotient of at most `2 ^ most`. -/
theorem floorLog2_le {most : Nat} (numPositive : 0 < num) (denPositive : 0 < den)
    (below : num ≤ 2 ^ most * den) : floorLog2 num den ≤ most := by
  have low := (floorLog2_bounds numPositive denPositive).1
  generalize floorLog2 num den = power at low
  by_contra greater
  have none : (-power).toNat = 0 := by omega
  rw [none, pow_zero, Nat.mul_one] at low
  have powers : 2 ^ power.toNat ≤ 2 ^ most :=
    Nat.le_of_mul_le_mul_left (low.trans (below.trans_eq (Nat.mul_comm _ _))) denPositive
  have exponents := (Nat.pow_le_pow_iff_right (by decide)).1 powers
  omega

/-- The significand of a quotient is rounded to at most the power of two above it. -/
theorem roundDiv_floorLog2_le (numPositive : 0 < num) (denPositive : 0 < den) {exponent : Int}
    {digits : Nat} (enough : floorLog2 num den + 1 ≤ digits + exponent) :
    roundDiv (num * 2 ^ (-exponent).toNat) (den * 2 ^ exponent.toNat) ≤ 2 ^ digits := by
  have high := (floorLog2_bounds numPositive denPositive).2
  generalize floorLog2 num den = power at enough high
  refine roundDiv_le ?_ (Nat.mul_pos denPositive (Nat.two_pow_pos _))
  refine Nat.le_of_mul_le_mul_right ?_ (Nat.two_pow_pos (-(power + 1)).toNat)
  calc num * 2 ^ (-exponent).toNat * 2 ^ (-(power + 1)).toNat
      = num * 2 ^ (-(power + 1)).toNat * 2 ^ (-exponent).toNat := Nat.mul_right_comm _ _ _
    _ ≤ den * 2 ^ (power + 1).toNat * 2 ^ (-exponent).toNat := Nat.mul_le_mul_right _ high.le
    _ = den * 2 ^ ((power + 1).toNat + (-exponent).toNat) := by
        rw [Nat.mul_assoc, ← Nat.pow_add]
    _ ≤ den * 2 ^ (digits + exponent.toNat + (-(power + 1)).toNat) :=
        Nat.mul_le_mul_left _ (Nat.pow_le_pow_right (by decide) (by omega))
    _ = 2 ^ digits * (den * 2 ^ exponent.toNat) * 2 ^ (-(power + 1)).toNat := by
        rw [Nat.pow_add, Nat.pow_add]
        ring

/-- The significand of a quotient does not pass a power of two that the quotient does not pass. -/
theorem roundDiv_two_pow_le {exponent : Int} {digits most : Nat} (denPositive : 0 < den)
    (whole : 0 ≤ exponent) (sum : (digits : Int) + exponent = most)
    (below : num ≤ 2 ^ most * den) :
    roundDiv (num * 2 ^ (-exponent).toNat) (den * 2 ^ exponent.toNat) ≤ 2 ^ digits := by
  refine roundDiv_le ?_ (Nat.mul_pos denPositive (Nat.two_pow_pos _))
  have none : (-exponent).toNat = 0 := by omega
  have total : digits + exponent.toNat = most := by omega
  rwa [none, pow_zero, Nat.mul_one, Nat.mul_left_comm, ← Nat.pow_add, total, Nat.mul_comm den]

/-- A quotient of at most `2 ^ 971` is not rounded to more than that. -/
theorem nearestBits_le_unitBits (numPositive : 0 < num) (denPositive : 0 < den)
    (below : num ≤ 2 ^ 971 * den) : nearestBits num den ≤ unitBits := by
  have most := floorLog2_le numPositive denPositive below
  have wide {exponent : Int} (enough : floorLog2 num den + 1 ≤ (53 : Nat) + exponent) :=
    roundDiv_floorLog2_le numPositive denPositive enough
  have narrow {exponent : Int} (whole : 0 ≤ exponent)
      (sum : (52 : Nat) + exponent = (971 : Nat)) :=
    roundDiv_two_pow_le denPositive whole sum below
  clear below
  simp only [nearestBits, leastExponent, Nat.pow_eq, unitBits]
  generalize floorLog2 num den = power at most wide ⊢
  refine (Nat.min_le_left _ _).trans ?_
  generalize exponents : max (power - 52) (-1074) = exponent
  by_cases reached : power = 971
  · -- The quotient is the bound itself, which needs one digit less.
    have significand := @narrow exponent (by omega) (by omega)
    have field : (exponent - -1074).toNat ≤ 1993 := by omega
    calc (exponent - -1074).toNat * hiddenBit + _
        ≤ 1993 * hiddenBit + 1 * hiddenBit :=
          Nat.add_le_add (Nat.mul_le_mul_right _ field) significand
      _ = 1994 * hiddenBit := (Nat.add_mul _ _ _).symm
  · have significand := @wide exponent (by omega)
    have field : (exponent - -1074).toNat ≤ 1992 := by omega
    calc (exponent - -1074).toNat * hiddenBit + _
        ≤ 1992 * hiddenBit + 2 * hiddenBit :=
          Nat.add_le_add (Nat.mul_le_mul_right _ field) significand
      _ = 1994 * hiddenBit := (Nat.add_mul _ _ _).symm

/-- Bits up to those of `2 ^ 971` are those of a double within it. -/
theorem within_ofMagnitudeBits {bits : Nat} (below : bits ≤ unitBits) (negative : Bool) :
    Within 1 (ofMagnitudeBits negative bits) := by
  rw [unitBits, hiddenBit] at below
  have small : bits < signBit := by
    rw [signBit]
    omega
  suffices positive : Within 1 (ofMagnitudeBits false bits) by
    cases negative with
    | false => exact positive
    | true =>
      rw [ofMagnitudeBits_true small]
      exact positive.neg
  have unpacked : (ofMagnitudeBits false bits).toModel.unpack =
      UnpackedFloat.unpack Format.binary64 (BitVec.ofNat 64 bits) := unpack_ofBits _
  refine ⟨canonical_unpack _, ?_⟩
  rw [unpacked]
  have mantissa := toNat_unpackMantissa bits
  have exponent := toNat_unpackExponent bits
  simp only [UnpackedFloat.unpack, exponentBias_add]
  split_ifs with greatest empty least zero
  · rw [greatest] at exponent
    change 2047 = _ at exponent
    omega
  · rw [greatest] at exponent
    change 2047 = _ at exponent
    omega
  · trivial
  · rw [FormWithin, greatestExponent, mantissa, least, Nat.one_mul]
    exact (Nat.mod_lt _ (by decide)).le.trans (Nat.pow_le_pow_right (by decide) (by decide))
  · rw [FormWithin, greatestExponent, exponent, Nat.one_mul, toNat_append_one, mantissa]
    by_cases most : bits = 1994 * 2 ^ 52
    · rw [most]
      decide
    · refine le_trans (b := 2 ^ 53) (by omega) (Nat.pow_le_pow_right (by decide) (by omega))

/-- A numeral is at least its power of ten. -/
theorem ten_pow_le_of_numerator_le {numeral : Decimal} (nonzero : numeral.mantissa ≠ 0)
    (whole : 0 ≤ numeral.exponent) (below : numeral.numerator ≤ bound * numeral.denominator) :
    10 ^ numeral.exponent.toNat ≤ bound := by
  have none : (-numeral.exponent).toNat = 0 := by omega
  rw [Decimal.numerator, Decimal.denominator, none, Nat.pow_eq, Nat.pow_eq, pow_zero,
    Nat.mul_one] at below
  exact (Nat.le_mul_of_pos_left _ (Nat.pos_of_ne_zero nonzero)).trans below

theorem magnitudeBits_le_unitBits {numeral : Decimal}
    (below : numeral.numerator ≤ 2 ^ 971 * numeral.denominator) :
    numeral.magnitudeBits ≤ unitBits := by
  unfold Decimal.magnitudeBits
  split_ifs with zero great
  · exact Nat.zero_le _
  · have power := ten_pow_le_of_numerator_le zero (by omega) below
    have large : 2 ^ 971 < 10 ^ 401 := by decide +kernel
    have exponents := (Nat.pow_lt_pow_iff_right (by decide)).1 (power.trans_lt large)
    omega
  · exact Nat.zero_le _
  · have numerator : 0 < numeral.numerator :=
      Nat.mul_pos (Nat.pos_of_ne_zero zero) (Nat.pow_pos (by decide))
    exact nearestBits_le_unitBits numerator (Nat.pow_pos (by decide)) below

/-- The magnitude of the number that a numeral denotes. -/
theorem abs_toRat (numeral : Decimal) :
    |numeral.toRat| = (numeral.numerator : Rat) / numeral.denominator := by
  have positive : (0 : Rat) ≤ mkRat numeral.numerator numeral.denominator := by
    rw [Rat.mkRat_eq_div]
    positivity
  simp only [Decimal.toRat]
  split_ifs
  · rw [abs_neg, abs_of_nonneg positive, Rat.mkRat_eq_div]
    rfl
  · rw [abs_of_nonneg positive, Rat.mkRat_eq_div]
    rfl

theorem numerator_le_of_abs_toRat_le {numeral : Decimal} {most : Nat}
    (below : |numeral.toRat| ≤ 2 ^ most) :
    numeral.numerator ≤ 2 ^ most * numeral.denominator := by
  have denominator : (0 : Rat) < numeral.denominator := by
    exact_mod_cast Nat.pow_pos (by decide)
  rw [abs_toRat, div_le_iff₀ denominator] at below
  exact_mod_cast below

/-- A numeral of at most `2 ^ 971` denotes a double within it. -/
theorem within_toFloat {numeral : Decimal} (below : |numeral.toRat| ≤ 2 ^ 971) :
    Within 1 numeral.toFloat :=
  within_ofMagnitudeBits (magnitudeBits_le_unitBits (numerator_le_of_abs_toRat_le below))
    numeral.negative

end Numerals

end Simplex.Double

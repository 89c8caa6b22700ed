import Simplex.Decimal.Shortest
import Simplex.Proofs.BoundedSum

/-!
# The double nearest to a rational number

Rounding does not depend on how a number is written. A quotient of natural numbers is rounded to the
bits that its rational value has (`nearestBits_eq_bitsNear`), a significand that is shifted by the
arithmetic of doubles is rounded to the same bits (`unpack_pack_of_rounded`), and both are monotone
because `bitsNear` is: `nearest_le_nearest`.
-/

namespace Simplex

section HalfEven

variable {value other : Rat} {num den : Nat}

/-- The natural number nearest to a non-negative rational number; a half goes to the even
neighbour. -/
def roundEven (value : Rat) : Nat :=
  if value - ⌊value⌋₊ < 1 / 2 then ⌊value⌋₊
  else if 1 / 2 < value - ⌊value⌋₊ then ⌊value⌋₊ + 1
  else ⌊value⌋₊ + ⌊value⌋₊ % 2

theorem floor_le_roundEven (value : Rat) : ⌊value⌋₊ ≤ roundEven value := by
  unfold roundEven
  split_ifs <;> omega

theorem roundEven_le_floor_add_one (value : Rat) : roundEven value ≤ ⌊value⌋₊ + 1 := by
  unfold roundEven
  split_ifs <;> omega

/-- Rounding a quotient of natural numbers is rounding the rational number. -/
theorem roundDiv_eq_roundEven (positive : 0 < den) :
    roundDiv num den = roundEven ((num : Rat) / den) := by
  have denominator : (0 : Rat) < den := by exact_mod_cast positive
  have part : (num : Rat) / den - (num / den : Nat) = (num % den : Nat) / den := by
    have parts : (num : Rat) = den * (num / den : Nat) + (num % den : Nat) := by
      exact_mod_cast (Nat.div_add_mod num den).symm
    field_simp
    linarith
  have less : (num % den : Nat) / (den : Rat) < 1 / 2 ↔ 2 * (num % den) < den := by
    rw [div_lt_div_iff₀ denominator two_pos, ← Nat.cast_lt (α := Rat)]
    push_cast
    constructor <;> intro bound <;> linarith
  have more : 1 / 2 < (num % den : Nat) / (den : Rat) ↔ den < 2 * (num % den) := by
    rw [div_lt_div_iff₀ two_pos denominator, ← Nat.cast_lt (α := Rat)]
    push_cast
    constructor <;> intro bound <;> linarith
  rw [roundEven, Nat.floor_div_eq_div, part, roundDiv]
  simp only [less, more]
  split_ifs <;> omega

@[simp] theorem roundEven_natCast (number : Nat) : roundEven number = number := by
  simp [roundEven]

/-- A greater number is not rounded to less. -/
theorem roundEven_mono : Monotone roundEven := by
  intro value other below
  rcases (Nat.floor_mono below).lt_or_eq with less | same
  · calc roundEven value ≤ ⌊value⌋₊ + 1 := roundEven_le_floor_add_one value
      _ ≤ ⌊other⌋₊ := less
      _ ≤ roundEven other := floor_le_roundEven other
  · -- Within one unit the part behind the point decides.
    unfold roundEven
    rw [same]
    have parts : value - ⌊other⌋₊ ≤ other - ⌊other⌋₊ := sub_le_sub_right below _
    split_ifs <;> first | omega | linarith

theorem roundEven_le_of_le {bound : Nat} (below : value ≤ bound) : roundEven value ≤ bound :=
  (roundEven_mono below).trans_eq (roundEven_natCast bound)

theorem le_roundEven_of_le {bound : Nat} (above : bound ≤ value) : bound ≤ roundEven value :=
  (roundEven_natCast bound).symm.trans_le (roundEven_mono above)

end HalfEven

namespace Double

section Bits

variable {value other : Rat} {num den : Nat}

/-- The exponent of the last digit to which a positive number is rounded. -/
def lastPlace (value : Rat) : Int := max (Int.log 2 value - 52) (-1074)

/-- The significand to which a positive number is rounded, before a carry. -/
def roundedSignificand (value : Rat) : Nat := roundEven (value / 2 ^ lastPlace value)

/-- The magnitude bits of the double nearest to a non-negative number. -/
def bitsNear (value : Rat) : Nat :=
  if value ≤ 0 then 0
  else min ((lastPlace value + 1074).toNat * hiddenBit + roundedSignificand value) infinityBits

/-- The double nearest to a non-negative number. -/
def nearest (value : Rat) : Float := ofMagnitudeBits false (bitsNear value)

theorem two_zpow_pos (exponent : Int) : (0 : Rat) < 2 ^ exponent := zpow_pos two_pos _

theorem lastPlace_mono (positive : 0 < value) (below : value ≤ other) :
    lastPlace value ≤ lastPlace other :=
  max_le_max_right _ (Int.sub_le_sub_right (Int.log_mono_right positive below) 52)

/-- A significand is rounded to 53 bits, or carries. -/
theorem roundedSignificand_le (value : Rat) : roundedSignificand value ≤ 2 ^ 53 := by
  refine roundEven_le_of_le ?_
  have above : Int.log 2 value + 1 ≤ 53 + lastPlace value := by
    unfold lastPlace
    omega
  rw [div_le_iff₀ (two_zpow_pos _)]
  calc value ≤ 2 ^ (Int.log 2 value + 1) := (Int.lt_zpow_succ_log_self one_lt_two value).le
    _ ≤ 2 ^ (53 + lastPlace value) := zpow_le_zpow_right₀ one_le_two above
    _ = ((2 ^ 53 : Nat) : Rat) * 2 ^ lastPlace value := by
        rw [zpow_add₀ two_ne_zero]
        norm_num

/-- Above the least place a significand has its leading digit. -/
theorem le_roundedSignificand (positive : 0 < value) (above : lastPlace value ≠ -1074) :
    2 ^ 52 ≤ roundedSignificand value := by
  refine le_roundEven_of_le ?_
  have place : Int.log 2 value = 52 + lastPlace value := by
    unfold lastPlace at above ⊢
    omega
  rw [le_div_iff₀ (two_zpow_pos _)]
  calc ((2 ^ 52 : Nat) : Rat) * 2 ^ lastPlace value = 2 ^ (52 + lastPlace value) := by
        rw [zpow_add₀ two_ne_zero]
        norm_num
    _ = 2 ^ Int.log 2 value := by rw [place]
    _ ≤ value := Int.zpow_log_le_self one_lt_two positive

/-- A greater number does not have smaller bits. -/
theorem bitsNear_mono (below : value ≤ other) : bitsNear value ≤ bitsNear other := by
  unfold bitsNear
  split_ifs with nonpositive otherNonpositive otherNonpositive
  · exact le_rfl
  · exact Nat.zero_le _
  · exact absurd (below.trans otherNonpositive) nonpositive
  · refine min_le_min_right _ ?_
    have positive := not_le.1 nonpositive
    have least : -1074 ≤ lastPlace value := le_max_right _ _
    rcases (lastPlace_mono positive below).lt_or_eq with less | same
    · -- The significand of the greater number is at least half as great as a carry.
      have small := roundedSignificand_le value
      have large := le_roundedSignificand (positive.trans_le below) (by omega)
      have places : (lastPlace value + 1074).toNat + 1 ≤ (lastPlace other + 1074).toNat := by omega
      rw [hiddenBit]
      omega
    · rw [same]
      refine Nat.add_le_add_left ?_ _
      unfold roundedSignificand
      rw [same]
      exact roundEven_mono (div_le_div_of_nonneg_right below (two_zpow_pos _).le)

/-- A power of two as a quotient of natural numbers. -/
theorem two_zpow_eq_div (exponent : Int) :
    (2 : Rat) ^ exponent = (2 ^ exponent.toNat : Nat) / (2 ^ (-exponent).toNat : Nat) := by
  rcases le_total 0 exponent with whole | fraction
  · obtain ⟨power, rfl⟩ := Int.eq_ofNat_of_zero_le whole
    simp
  · obtain ⟨power, same⟩ := Int.eq_ofNat_of_zero_le (neg_nonneg.2 fraction)
    obtain rfl : exponent = -(power : Int) := by omega
    simp

theorem floorLog2_eq_log (numPositive : 0 < num) (denPositive : 0 < den) :
    floorLog2 num den = Int.log 2 ((num : Rat) / den) := by
  obtain ⟨low, high⟩ := floorLog2_bounds numPositive denPositive
  have denominator : (0 : Rat) < den := by exact_mod_cast denPositive
  have positive : (0 : Rat) < (num : Rat) / den :=
    div_pos (by exact_mod_cast numPositive) denominator
  have powerPositive (power : Nat) : (0 : Rat) < (2 ^ power : Nat) := by positivity
  apply le_antisymm
  · rw [← Int.zpow_le_iff_le_log one_lt_two positive, Nat.cast_ofNat, two_zpow_eq_div,
      div_le_div_iff₀ (powerPositive _) denominator, Nat.mul_comm den] at *
    exact_mod_cast low
  · rw [← Int.lt_add_one_iff, ← Int.lt_zpow_iff_log_lt one_lt_two positive, Nat.cast_ofNat,
      two_zpow_eq_div, div_lt_div_iff₀ denominator (powerPositive _)]
    rw [Nat.mul_comm den] at high
    exact_mod_cast high

/-- Rounding a quotient is rounding the rational number. -/
theorem nearestBits_eq_bitsNear (numPositive : 0 < num) (denPositive : 0 < den) :
    nearestBits num den = bitsNear ((num : Rat) / den) := by
  have positive : (0 : Rat) < (num : Rat) / den :=
    div_pos (by exact_mod_cast numPositive) (by exact_mod_cast denPositive)
  have scaled (place : Int) :
      roundDiv (num * Nat.pow 2 (-place).toNat) (den * Nat.pow 2 place.toNat) =
        roundEven ((num : Rat) / den / 2 ^ place) := by
    simp only [Nat.pow_eq]
    rw [roundDiv_eq_roundEven (Nat.mul_pos denPositive (Nat.two_pow_pos _)), two_zpow_eq_div,
      div_div_div_eq, Nat.cast_mul, Nat.cast_mul]
  simp only [nearestBits, bitsNear, if_neg positive.not_ge, scaled, leastExponent,
    floorLog2_eq_log numPositive denPositive, sub_neg_eq_add]
  rfl

end Bits

section Forms

open Float.Model Float.Model.UnpackedFloat

variable {value : Rat} {bits rounded : Nat} {place : Int}

/-- The form of a double below infinity, by its bits. -/
theorem unpack_ofMagnitudeBits (positive : 0 < significand bits) (below : bits < infinityBits) :
    (ofMagnitudeBits false bits).toModel.unpack =
      .finite .positive (significand bits) (exponent bits) positive := by
  have unpacked : (ofMagnitudeBits false bits).toModel.unpack =
      UnpackedFloat.unpack Format.binary64 (BitVec.ofNat 64 bits) := unpack_ofBits _
  rw [infinityBits, hiddenBit] at below
  have mantissa := toNat_unpackMantissa bits
  have exponent := toNat_unpackExponent bits
  have sign := toNat_unpackSign bits
  have signed : Sign.ofBitVec (@unpackSign Format.binary64 (BitVec.ofNat 64 bits)) = .positive := by
    rw [show @unpackSign Format.binary64 (BitVec.ofNat 64 bits) = 0#1 from
      BitVec.eq_of_toNat_eq (sign.trans (by change _ = 0; omega))]
    rfl
  rw [significand, hiddenBit] at positive
  rw [unpacked]
  simp only [UnpackedFloat.unpack, exponentBias_add, signed]
  split_ifs with greatest empty least zero
  · rw [greatest] at exponent
    change 2047 = _ at exponent
    omega
  · rw [greatest] at exponent
    change 2047 = _ at exponent
    omega
  · rw [zero] at mantissa
    rw [least] at exponent
    change 0 = _ at mantissa
    change 0 = _ at exponent
    split_ifs at positive <;> omega
  · rw [least] at exponent
    change 0 = _ at exponent
    rw [finite.injEq, mantissa, least, significand, Double.exponent, hiddenBit, leastExponent]
    refine ⟨rfl, ?_, ?_⟩
    · split_ifs <;> omega
    · change ((0 : Nat) : Int) - _ + 1 = _
      omega
  · have raised : (@unpackExponent Format.binary64 (BitVec.ofNat 64 bits)).toNat ≠ 0 :=
      fun zero => least (BitVec.eq_of_toNat_eq zero)
    rw [finite.injEq, toNat_append_one, mantissa, exponent, significand, Double.exponent, hiddenBit,
      leastExponent]
    rw [exponent] at raised
    refine ⟨rfl, ?_, ?_⟩
    · split_ifs <;> omega
    · omega

/-- A significand and its place make up the bits. -/
theorem significand_add (small : rounded < 2 ^ 53) (place : Nat)
    (leading : place ≠ 0 → 2 ^ 52 ≤ rounded) :
    significand (place * hiddenBit + rounded) = rounded ∧
      exponent (place * hiddenBit + rounded) = place - 1074 := by
  rw [significand, exponent, leastExponent, hiddenBit]
  split_ifs with least
  · omega
  · omega

theorem unpack_ofMagnitudeBits_zero :
    (ofMagnitudeBits false 0).toModel.unpack = .zero .positive := rfl

theorem canonical_of_leading (positive : 0 < rounded) (small : rounded < 2 ^ 53)
    (least : -1074 ≤ place) (leading : place ≠ -1074 → 2 ^ 52 ≤ rounded)
    (bounded : place ≤ greatestExponent) (sign : Sign) :
    Canonical (.finite sign rounded place positive) := by
  refine .finite positive ?_ bounded
  have upper := (Nat.log2_lt positive.ne').2 small
  rw [targetExponent_eq]
  by_cases lowest : place = -1074
  · omega
  · have full : rounded.log2 = 52 := (Nat.log2_eq_iff positive.ne').2 ⟨leading lowest, small⟩
    omega

/-- Packing a form whose exponent is too great gives infinity. -/
theorem unpack_pack_of_greatest {sign : Sign} (positive : 0 < rounded)
    (great : greatestExponent < place) :
    (Float.Model.pack (.finite sign rounded place positive)).unpack = .infinity sign := by
  rw [greatestExponent] at great
  have biased : (place + (Format.binary64.exponentBias : Int) + (52 : Nat)).toNat =
      (place + 1075).toNat := by
    rw [add_assoc, exponentBias_add]
  have field : 2 ^ 11 ≤ (place + 1075).toNat + 1 := by omega
  change UnpackedFloat.unpack Format.binary64 (UnpackedFloat.pack Format.binary64 _) = _
  rw [← unpack_pack_infinity sign]
  unfold UnpackedFloat.pack
  simp only [biased, if_pos field]

/-- The bits of a significand at its place are those of the packed form. -/
theorem unpack_ofMagnitudeBits_min (positive : 0 < rounded) (small : rounded < 2 ^ 53)
    (least : -1074 ≤ place) (leading : place ≠ -1074 → 2 ^ 52 ≤ rounded) :
    (ofMagnitudeBits false
        (min ((place + 1074).toNat * hiddenBit + rounded) infinityBits)).toModel.unpack =
      (Float.Model.pack (.finite .positive rounded place positive)).unpack := by
  obtain ⟨significant, placed⟩ := significand_add small (place + 1074).toNat (by omega)
  by_cases great : place ≤ greatestExponent
  · have below : (place + 1074).toNat * hiddenBit + rounded < infinityBits := by
      rw [greatestExponent] at great
      rw [infinityBits, hiddenBit]
      omega
    rw [unpack_pack (canonical_of_leading positive small least leading great .positive),
      min_eq_left below.le, unpack_ofMagnitudeBits (by rwa [significant]) below, finite.injEq]
    exact ⟨rfl, significant, by omega⟩
  · have above : infinityBits ≤ (place + 1074).toNat * hiddenBit + rounded := by
      rw [greatestExponent] at great
      rw [infinityBits, hiddenBit]
      omega
    rw [unpack_pack_of_greatest positive (not_le.1 great), min_eq_right above, unpack_infinity]

/-- A rounded significand is packed to the nearest double. -/
theorem unpack_pack_of_rounded {form : UnpackedFloat} (positive : 0 < value)
    (rounded : Rounded .positive (lastPlace value) (roundedSignificand value) form) :
    (Float.Model.pack form).unpack = (nearest value).toModel.unpack := by
  have least : -1074 ≤ lastPlace value := le_max_right _ _
  have leading := le_roundedSignificand positive
  rw [nearest, bitsNear, if_neg positive.not_ge]
  generalize lastPlace value = place at least leading rounded ⊢
  generalize roundedSignificand value = significand at leading rounded ⊢
  cases rounded with
  | zero =>
    obtain rfl : place = -1074 := by
      by_contra above
      exact absurd (leading above) (by decide)
    exact unpack_pack (.zero .positive)
  | kept nonzero small =>
    exact (unpack_ofMagnitudeBits_min nonzero small least leading).symm
  | carried =>
    have bits : (place + 1074).toNat * hiddenBit + 2 ^ 53 =
        (place + 1 + 1074).toNat * hiddenBit + 2 ^ 52 := by
      rw [hiddenBit]
      omega
    rw [bits]
    exact (unpack_ofMagnitudeBits_min (by decide) (by decide) (by omega) fun _ => le_rfl).symm

theorem significand_pos (positive : 0 < bits) : 0 < significand bits := by
  rw [significand, hiddenBit]
  split_ifs <;> omega

theorem isNumber_ofMagnitudeBits (bounded : bits ≤ infinityBits) :
    IsNumber (ofMagnitudeBits false bits) := by
  rw [IsNumber]
  rcases Nat.eq_zero_or_pos bits with rfl | positive
  · simp [unpack_ofMagnitudeBits_zero]
  · rcases bounded.lt_or_eq with below | rfl
    · simp [unpack_ofMagnitudeBits (significand_pos positive) below]
    · simp [unpack_infinity]

/-- Within the finite doubles the exponent decides, and then the significand. -/
theorem toLex_exponent_le {other : Nat} (below : bits ≤ other) :
    toLex (exponent bits, (significand bits : Int)) ≤
      toLex (exponent other, (significand other : Int)) := by
  rw [Prod.Lex.toLex_le_toLex, Nat.cast_le, exponent, exponent, significand, significand, hiddenBit]
  split_ifs <;> omega

/-- Greater bits are those of a greater double. -/
theorem ofMagnitudeBits_le {other : Nat} (below : bits ≤ other) (bounded : other ≤ infinityBits) :
    ofMagnitudeBits false bits ≤ ofMagnitudeBits false other := by
  refine le_iff.2 ⟨isNumber_ofMagnitudeBits (below.trans bounded),
    isNumber_ofMagnitudeBits bounded, ?_⟩
  rcases below.lt_or_eq with less | rfl
  · have otherPositive := significand_pos (Nat.zero_lt_of_lt less)
    have lessInfinite := less.trans_le bounded
    rw [rank, rank]
    rcases Nat.eq_zero_or_pos bits with rfl | positive
    · rw [unpack_ofMagnitudeBits_zero]
      rcases bounded.lt_or_eq with finite | rfl
      · rw [unpack_ofMagnitudeBits otherPositive finite]
        exact Prod.Lex.toLex_le_toLex.2 (.inl (by norm_num))
      · rw [unpack_infinity]
        exact Prod.Lex.toLex_le_toLex.2 (.inl (by norm_num))
    · rw [unpack_ofMagnitudeBits (significand_pos positive) lessInfinite]
      rcases bounded.lt_or_eq with finite | rfl
      · rw [unpack_ofMagnitudeBits otherPositive finite]
        exact Prod.Lex.toLex_le_toLex.2 (.inr ⟨rfl, toLex_exponent_le below⟩)
      · rw [unpack_infinity]
        exact Prod.Lex.toLex_le_toLex.2 (.inl (by norm_num))
  · exact le_rfl

/-- A greater number is not rounded to a smaller double. -/
theorem nearest_le_nearest {other : Rat} (below : value ≤ other) :
    nearest value ≤ nearest other := by
  refine ofMagnitudeBits_le (bitsNear_mono below) ?_
  unfold bitsNear
  split_ifs
  · exact Nat.zero_le _
  · exact min_le_right _ _

/-- The two bits noted on shifting say how the part that was lost compares with a half. -/
theorem shiftRight_lost (mantissa count : Nat) :
    ∃ round sticky, (⟨mantissa, false, false⟩ : ExtendedMantissa) >>> count =
        ⟨mantissa / 2 ^ count, round, sticky⟩ ∧
      (round = true ↔ 2 ^ count ≤ 2 * (mantissa % 2 ^ count)) ∧
      (sticky = true ↔ mantissa % 2 ^ count ≠ 0 ∧ 2 * (mantissa % 2 ^ count) ≠ 2 ^ count) := by
  induction count with
  | zero => exact ⟨false, false, by simp [HShiftRight.hShiftRight, Nat.repeat],
      by simp [Nat.mod_one], by simp [Nat.mod_one]⟩
  | succ count ih =>
    obtain ⟨round, sticky, shifted, rounds, sticks⟩ := ih
    have step : (⟨mantissa, false, false⟩ : ExtendedMantissa) >>> (count + 1) =
        ((⟨mantissa, false, false⟩ : ExtendedMantissa) >>> count).shiftRightOne := rfl
    have digit : mantissa / 2 ^ count % 2 = 0 ∨ mantissa / 2 ^ count % 2 = 1 :=
      Nat.mod_two_eq_zero_or_one _
    have lost := Nat.mod_lt mantissa (Nat.two_pow_pos count)
    refine ⟨mantissa / 2 ^ count % 2 != 0, round || sticky, ?_, ?_, ?_⟩
    · rw [step, shifted, ExtendedMantissa.shiftRightOne, Nat.div_div_eq_div_mul, ← Nat.pow_succ]
    · rw [Nat.pow_succ, Nat.mod_mul]
      rcases digit with even | odd
      · simp [even]
        omega
      · simp [odd]
        omega
    · rw [Bool.or_eq_true_iff, rounds, sticks, Nat.pow_succ, Nat.mod_mul]
      rcases digit with even | odd
      · rw [even]
        omega
      · rw [odd]
        omega

/-- A significand that is shifted is rounded like the quotient. -/
theorem roundedShift_eq_roundEven (mantissa count : Nat) :
    roundedShift mantissa count = roundEven ((mantissa : Rat) / 2 ^ count) := by
  obtain ⟨round, sticky, shifted, rounds, sticks⟩ := shiftRight_lost mantissa count
  have quotient :
      roundDiv mantissa (2 ^ count) = roundEven ((mantissa : Rat) / (2 ^ count : Nat)) :=
    roundDiv_eq_roundEven (Nat.two_pow_pos count)
  rw [Nat.cast_pow, Nat.cast_ofNat] at quotient
  rw [← quotient, roundedShift, shifted, roundDiv]
  cases round <;> cases sticky <;>
    simp only [ExtendedMantissa.roundedMantissa, ExtendedMantissa.accuracy,
      Accuracy.roundToNearestEven] <;> simp at rounds sticks <;> split_ifs <;> omega

theorem log_mul_two_zpow {mantissa : Nat} (positive : 0 < mantissa) (exponent : Int) :
    Int.log 2 ((mantissa : Rat) * 2 ^ exponent) = mantissa.log2 + exponent := by
  have value : (0 : Rat) < mantissa * 2 ^ exponent :=
    mul_pos (by exact_mod_cast positive) (two_zpow_pos _)
  have low : ((2 ^ mantissa.log2 : Nat) : Rat) ≤ mantissa := by
    exact_mod_cast Nat.log2_self_le positive.ne'
  have high : (mantissa : Rat) < (2 ^ (mantissa.log2 + 1) : Nat) := by
    exact_mod_cast Nat.lt_log2_self
  apply le_antisymm
  · rw [← Int.lt_add_one_iff, ← Int.lt_zpow_iff_log_lt one_lt_two value, add_right_comm,
      zpow_add₀ (by norm_num)]
    refine mul_lt_mul_of_pos_right ?_ (two_zpow_pos _)
    exact_mod_cast high
  · rw [← Int.zpow_le_iff_le_log one_lt_two value, zpow_add₀ (by norm_num)]
    refine mul_le_mul_of_nonneg_right ?_ (two_zpow_pos _).le
    exact_mod_cast low

/-- What a significand is rounded to is what its value is rounded to. -/
theorem rounded_roundWithAccuracy {mantissa : Nat} {exponent : Int} (positive : 0 < mantissa)
    (lowered : exponent ≤ lastPlace (mantissa * 2 ^ exponent)) :
    Rounded .positive (lastPlace (mantissa * 2 ^ exponent))
      (roundedSignificand (mantissa * 2 ^ exponent))
      (roundWithAccuracy Format.binary64 .positive mantissa exponent .exact) := by
  obtain ⟨shift, sum⟩ := Int.le.dest lowered
  have shifts : Shifts mantissa exponent (lastPlace (mantissa * 2 ^ exponent)) shift :=
    ⟨sum, by rw [lastPlace, log_mul_two_zpow positive]⟩
  have quotient : (mantissa * 2 ^ exponent : Rat) / 2 ^ lastPlace (mantissa * 2 ^ exponent) =
      mantissa / 2 ^ shift := by
    rw [← sum, zpow_add₀ two_ne_zero, zpow_natCast, mul_comm (mantissa : Rat),
      mul_div_mul_left _ _ (two_zpow_pos _).ne']
  rw [roundedSignificand, quotient, ← roundedShift_eq_roundEven]
  exact shifts.rounded .positive

end Forms

end Double

end Simplex

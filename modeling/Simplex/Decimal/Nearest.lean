import Simplex.Decimal.Basic

/-!
# The double nearest to a decimal numeral

A double is written as its 64 bits. Below the sign bit the bits of a
non-negative double, read as a natural number, count the doubles from zero
upwards, so a significand that rounds up to the next power of two carries into
the exponent field by plain addition.
-/

namespace Simplex

/-- The natural number nearest to `num / den`; a half goes to the even
neighbour. -/
def roundDiv (num den : Nat) : Nat :=
  let quotient := num / den
  let remainder := num % den
  if 2 * remainder < den then quotient
  else if den < 2 * remainder then quotient + 1
  else if quotient % 2 = 0 then quotient else quotient + 1

namespace Double

/-- The exponent of the least positive double, `2 ^ (-1074)`. -/
def leastExponent : Int := -1074

/-- The bit above the fraction field, `2 ^ 52`. -/
def hiddenBit : Nat := 0x10000000000000

/-- The bit of the sign, `2 ^ 63`. -/
def signBit : Nat := 0x8000000000000000

/-- The bits of positive infinity. -/
def infinityBits : Nat := 0x7ff * hiddenBit

/-- The greatest `power` with `2 ^ power ≤ num / den`, for positive `num` and
`den`. -/
def floorLog2 (num den : Nat) : Int :=
  let estimate : Int := (Nat.log2 num : Int) - Nat.log2 den
  if den * Nat.pow 2 estimate.toNat ≤ num * Nat.pow 2 (-estimate).toNat then estimate
  else estimate - 1

/-- The bits of the double nearest to the positive quotient `num / den`; a half
goes to the even significand and an overflow to infinity. -/
def nearestBits (num den : Nat) : Nat :=
  let exponent := max (floorLog2 num den - 52) leastExponent
  let significand :=
    roundDiv (num * Nat.pow 2 (-exponent).toNat) (den * Nat.pow 2 exponent.toNat)
  min ((exponent - leastExponent).toNat * hiddenBit + significand) infinityBits

/-- The double with the given magnitude bits and sign. -/
def ofMagnitudeBits (negative : Bool) (bits : Nat) : Float :=
  Float.ofBits (UInt64.ofNat (if negative then signBit + bits else bits))

end Double

namespace Decimal

/-- The magnitude bits of the nearest double. An exponent above `400` exceeds
every double, and one so low that the value is under `2 ^ (-1100)` gives zero;
neither needs its power of ten. -/
def magnitudeBits (numeral : Decimal) : Nat :=
  if numeral.mantissa = 0 then 0
  else if 400 < numeral.exponent then Double.infinityBits
  else if Nat.log2 numeral.mantissa + 1101 < 3 * (-numeral.exponent).toNat then 0
  else Double.nearestBits numeral.numerator numeral.denominator

/-- Whether a numeral is rounded to infinity. -/
def exceedsDoubles (numeral : Decimal) : Bool :=
  numeral.magnitudeBits == Double.infinityBits

/-- The double nearest to a numeral: ties go to the even significand, values too
large become infinite and values too small become zero, each with the
numeral's sign. -/
def toFloat (numeral : Decimal) : Float :=
  Double.ofMagnitudeBits numeral.negative numeral.magnitudeBits

end Decimal

end Simplex

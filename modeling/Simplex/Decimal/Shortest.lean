import Simplex.Decimal.Nearest

/-!
# Decimal forms of doubles

A finite double is an exact quotient of natural numbers. From it come the value
rounded to a number of decimal places, and the shortest decimal that reads back as
the same double.
-/

namespace Simplex.Double

/-- The bits of a double below its sign. -/
def magnitudeBitsOf (value : Float) : Nat := value.toBits.toNat % signBit

/-- Whether the sign of a double is set, also that of a zero. -/
def isNegative (value : Float) : Bool := decide (signBit ≤ value.toBits.toNat)

/-- The significand of a finite double, as an integer. -/
def significand (bits : Nat) : Nat :=
  if bits < hiddenBit then bits else hiddenBit + bits % hiddenBit

/-- The power of two that the integer significand of a finite double is multiplied
with. -/
def exponent (bits : Nat) : Int := (max (bits / hiddenBit) 1 : Nat) + leastExponent - 1

/-- The magnitude of a finite double as numerator and denominator. -/
def quotient (bits : Nat) : Nat × Nat :=
  (significand bits * Nat.pow 2 (exponent bits).toNat, Nat.pow 2 (-exponent bits).toNat)

/-- The double nearest to the exact value rounded to a number of decimal places,
where a half goes to the even neighbour. Infinite and undefined values stay. -/
def roundToPlaces (places : Nat) (value : Float) : Float :=
  let bits := magnitudeBitsOf value
  if infinityBits ≤ bits then value
  else
    let exact := quotient bits
    Decimal.toFloat
      ⟨isNegative value, roundDiv (exact.1 * Nat.pow 10 places) exact.2, -(places : Int)⟩

/-- The greatest `power` with `10 ^ power ≤ num / den`, for positive `num` and
`den`. -/
def floorLog10 (num den : Nat) : Int :=
  if den ≤ num then ((Nat.toDigits 10 (num / den)).length : Int) - 1
  else
    let digits := (Nat.toDigits 10 (den / num)).length
    if den ≤ num * Nat.pow 10 (digits - 1) then 1 - (digits : Int) else -(digits : Int)

/-- The decimal of the given number of digits that reads back as the double with
the given magnitude, if there is one; of two, the nearer. -/
def readingBack? (bits digits : Nat) : Option Decimal :=
  let exact := quotient bits
  let unit := floorLog10 exact.1 exact.2 - digits + 1
  let num := exact.1 * Nat.pow 10 (-unit).toNat
  let den := exact.2 * Nat.pow 10 unit.toNat
  let below := num / den
  let nearest := roundDiv num den
  let other := if nearest = below then below + 1 else below
  ([nearest, other].map fun mantissa => (⟨false, mantissa, unit⟩ : Decimal)).find?
    fun candidate => candidate.magnitudeBits = bits

/-- The shortest decimal that reads back as the same finite double. Seventeen
digits always suffice. -/
def shortest (value : Float) : Decimal :=
  let bits := magnitudeBitsOf value
  if bits = 0 then ⟨isNegative value, 0, 0⟩
  else
    let found := (List.range 17).findSome? fun digits => readingBack? bits (digits + 1)
    { found.getD ⟨false, 0, 0⟩ with negative := isNegative value }

/-- The digits of a number without trailing zeros. -/
def significantDigits (mantissa : Nat) : List Char :=
  ((Nat.toDigits 10 mantissa).reverse.dropWhile (· == '0')).reverse

/-- The text of a magnitude given by its significant digits and the position of the
point relative to their start. Positions from -3 to 16 are written out, with at
least one digit on each side of the point; others take a power of ten. -/
def magnitudeText (digits : List Char) (point : Int) : List Char :=
  if -4 < point ∧ point ≤ 16 then
    if point ≤ 0 then '0' :: '.' :: List.replicate (-point).toNat '0' ++ digits
    else
      let whole := digits.take point.toNat
      let fraction := digits.drop point.toNat
      whole ++ List.replicate (point.toNat - digits.length) '0' ++
        '.' :: (if fraction.isEmpty then ['0'] else fraction)
  else
    let power := point - 1
    let powerDigits := Nat.toDigits 10 power.natAbs
    digits.take 1 ++ (if digits.length ≤ 1 then [] else '.' :: digits.drop 1) ++
      ['e', if power < 0 then '-' else '+'] ++
      List.replicate (2 - powerDigits.length) '0' ++ powerDigits

/-- The text of a double: its shortest decimal, or the name of a value that has
none. -/
def toText (value : Float) : String :=
  let bits := magnitudeBitsOf value
  let sign := if isNegative value then "-" else ""
  if infinityBits < bits then "NaN"
  else if bits = infinityBits then sign ++ "Infinity"
  else if bits = 0 then sign ++ "0.0"
  else
    let decimal := shortest value
    let count := (Nat.toDigits 10 decimal.mantissa).length
    sign ++ String.ofList
      (magnitudeText (significantDigits decimal.mantissa) (count + decimal.exponent))

end Simplex.Double

/-!
# Decimal numerals

The exact value that a written number denotes, before it is rounded to any
scalar. Readers of text produce it; `Simplex.Scalar` interprets it.
-/

namespace Simplex

/-- A decimal numeral denotes `mantissa * 10 ^ exponent`, negated when `negative`
is set. The sign is kept apart from the mantissa, so a written negative zero is
not lost. -/
structure Decimal where
  negative : Bool
  mantissa : Nat
  exponent : Int
  deriving DecidableEq, Repr

namespace Decimal

/-- The numeral of a natural number. -/
def ofNat (number : Nat) : Decimal := ⟨false, number, 0⟩

/-- The numeral of an integer. -/
def ofInt (number : Int) : Decimal := ⟨number < 0, number.natAbs, 0⟩

/-- The numeral of the power `10 ^ exponent`. -/
def power (exponent : Int) : Decimal := ⟨false, 1, exponent⟩

/-- The natural number that a list of decimal digits spells, most significant
digit first. -/
def ofDigits (digits : List Nat) : Nat :=
  digits.foldl (fun value digit => 10 * value + digit) 0

/-- The magnitude of a numeral is this numerator over its denominator. -/
def numerator (numeral : Decimal) : Nat :=
  numeral.mantissa * Nat.pow 10 numeral.exponent.toNat

/-- The power of ten that divides the numerator; one unless the exponent is
negative. -/
def denominator (numeral : Decimal) : Nat := Nat.pow 10 (-numeral.exponent).toNat

/-- The rational number that a numeral denotes. -/
def toRat (numeral : Decimal) : Rat :=
  let magnitude := mkRat numeral.numerator numeral.denominator
  if numeral.negative then -magnitude else magnitude

end Decimal

end Simplex

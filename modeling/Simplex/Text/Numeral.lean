import Simplex.Decimal.Nearest
import Simplex.Text.Integer

/-!
# Written numbers

A number is an optional sign followed by decimal digits with an optional point
and an optional power of ten, or by a word for infinity or for no number at all.
In expressions single underscores may stand between digits. Which characters are
digits is a parameter: expressions admit every script, documents only ASCII.
-/

namespace Simplex

/-- What a written number denotes. -/
inductive Numeral where
  | finite (value : Decimal)
  | infinite (negative : Bool)
  | notANumber
  deriving DecidableEq, Repr

/-- The double that a written number denotes. -/
def Numeral.toFloat : Numeral → Float
  | .finite value => value.toFloat
  | .infinite negative => Double.ofMagnitudeBits negative Double.infinityBits
  | .notANumber => Float.ofBits 0x7ff8000000000000

namespace Text

/-- The power of ten at the end of a number, zero if there is none. -/
def readExponent (digit? : Char → Option Nat) : List Char → Option Int
  | [] => some 0
  | char :: rest =>
    if char = 'e' ∨ char = 'E' then
      let sign := signed rest
      let run := digitRun digit? sign.2
      if run.1.isEmpty ∨ ¬ run.2.isEmpty then none
      else
        let magnitude : Int := Decimal.ofDigits run.1
        some (if sign.1 then -magnitude else magnitude)
    else none

/-- The digits before and after an optional point, and the text after them. -/
def fractionRun (digit? : Char → Option Nat) (text : List Char) :
    List Nat × List Nat × List Char :=
  let whole := digitRun digit? text
  match whole.2 with
  | '.' :: rest => (whole.1, digitRun digit? rest)
  | rest => (whole.1, [], rest)

/-- The decimal numeral with the given sign, digits around the point and power of
ten. -/
def decimalOf (negative : Bool) (whole fraction : List Nat) (exponent : Int) : Decimal where
  negative := negative
  mantissa := Decimal.ofDigits (whole ++ fraction)
  exponent := exponent - fraction.length

/-- Read the digits, point and power of ten of a number. -/
def readDecimal? (digit? : Char → Option Nat) (negative : Bool) (text : List Char) :
    Option Decimal :=
  let run := fractionRun digit? text
  if run.1.isEmpty ∧ run.2.1.isEmpty then none
  else (readExponent digit? run.2.2).map (decimalOf negative run.1 run.2.1)

/-- The number that a sign and the text after it denote. -/
def signedNumeral? (digit? : Char → Option Nat) (negative : Bool) (text : List Char) :
    Option Numeral :=
  let word := String.ofList (text.map Char.toLower)
  if word = "inf" ∨ word = "infinity" then some (.infinite negative)
  else if word = "nan" then some .notANumber
  else (readDecimal? digit? negative text).map .finite

/-- Read a text without surrounding blanks and without underscores as a number. -/
def readPlainNumeral? (digit? : Char → Option Nat) (text : List Char) : Option Numeral :=
  let sign := signed text
  signedNumeral? digit? sign.1 sign.2

/-- Read a text without surrounding blanks as a number. -/
def readNumeral? (digit? : Char → Option Nat) (text : List Char) : Option Numeral :=
  let sign := signed text
  signedNumeral? digit? sign.1
    (ungroup (fun char => (digit? char).isSome) false sign.2)

end Text

end Simplex

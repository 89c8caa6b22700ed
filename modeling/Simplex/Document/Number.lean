import Simplex.Decimal.Shortest
import Simplex.Document.Checked
import Simplex.MachineInteger
import Simplex.Text.Numeral

/-!
# Numbers in documents

A number may also be given as a text, with white space around it. Underscores in
such a text are left out wherever they stand, except at its ends and next to each
other. An integer is first read in plain notation, and only then with everything
that plain notation lacks.
-/

namespace Simplex.Document

/-- Whether two underscores stand next to each other. -/
def hasDoubledUnderscore : List Char → Bool
  | '_' :: '_' :: _ => true
  | _ :: rest => hasDoubledUnderscore rest
  | [] => false

/-- The text without its underscores, unless there is one at an end of it or there
are two next to each other. -/
def withoutUnderscores? (text : List Char) : Option (List Char) :=
  if text.head? = some '_' ∨ text.getLast? = some '_' ∨ hasDoubledUnderscore text then none
  else some (text.filter (· != '_'))

/-! ## Doubles -/

/-- Read a text as a number. White space around the number is admitted only where
there are no underscores. -/
def numeralOfText? (text : List Char) : Option Numeral :=
  if '_' ∈ text then
    (withoutUnderscores? text).bind (Text.readPlainNumeral? Text.asciiDigitValue?)
  else Text.readPlainNumeral? Text.asciiDigitValue? (Text.trimBy Text.isWhiteSpace text)

/-- Read a double. Truth values count as one and zero, and an integer is rounded to
the nearest double unless it exceeds all of them. -/
def readDouble : Document → Checked Float
  | .number value => .valid value
  | .bool value => .valid (if value then 1 else 0)
  | .integer value =>
    let numeral := Decimal.ofInt value
    if numeral.exceedsDoubles then .fault .notNumber else .valid numeral.toFloat
  | .text value =>
    match numeralOfText? value.toList with
    | some numeral => .valid numeral.toFloat
    | none => .fault .numberSyntax
  | _ => .fault .notNumber

/-! ## Integers -/

/-- The integer of a magnitude and a sign. -/
def signedInteger (negative : Bool) (magnitude : Nat) : Int :=
  if negative then -magnitude else magnitude

/-- Read an integer in plain notation: digits, the first of them not zero unless it
is the only one, and a minus sign before them if need be. That there are too many
digits is noticed before what follows them. -/
def plainInteger (text : List Char) : Except FaultKind Int :=
  let negative := text.head? == some '-'
  let run := Text.digitRun Text.asciiDigitValue? (if negative then text.drop 1 else text)
  match run.1 with
  | [] => .error .integerSyntax
  | 0 :: _ :: _ => .error .integerSyntax
  | digits =>
    if Text.integerDigitLimit < digits.length then .error .integerSize
    else if run.2.isEmpty then .ok (signedInteger negative (Decimal.ofDigits digits))
    else .error .integerSyntax

/-- The rest of a number after leading zeros, of which the last character is given.
Underscores count as zeros here, before a point the last character is kept, and a
minus sign may stand after the zeros. -/
def afterZeros? (previous : Char) : List Char → Option (List Char)
  | [] => some [previous]
  | char :: rest =>
    if char = '0' ∨ char = '_' then afterZeros? char rest
    else if char = '.' then some (previous :: char :: rest)
    else if char = '-' ∨ Text.isLeadingDigit char then some (char :: rest)
    else none

/-- A number without a sign of its own and without its leading zeros. -/
def withoutLeadingZeros? : List Char → Option (List Char)
  | [] => none
  | char :: rest =>
    if char = '0' then afterZeros? char rest
    else if Text.isLeadingDigit char then some (char :: rest)
    else none

/-- Whether a text is a point followed by at least one zero and nothing else. -/
def isZeroFraction : List Char → Bool
  | '.' :: zeros => !zeros.isEmpty && zeros.all (· == '0')
  | _ => false

/-- A number without a fraction of zeros. -/
def withoutZeroFraction (text : List Char) : List Char :=
  if isZeroFraction (text.dropWhile (· != '.')) then text.takeWhile (· != '.') else text

/-- What is left of the text of an integer without white space, plus sign, leading
zeros, a fraction of zeros and underscores, taken away in this order. A minus sign
at the front stays, before what is left of the rest. -/
def tidiedInteger? (text : List Char) : Option (List Char) := do
  let sign := Text.signed (Text.trimBy Text.isWhiteSpace text)
  let significant ← withoutLeadingZeros? sign.2
  let digits ← withoutUnderscores? (withoutZeroFraction significant)
  pure (if sign.1 then '-' :: digits else digits)

/-- Read a text as an integer. Only a text that begins in plain notation is found
too long; what is too long when tidied is just no integer. -/
def integerOfText (text : List Char) : Except FaultKind Int :=
  match plainInteger text with
  | .error .integerSyntax =>
    match (tidiedInteger? text).map plainInteger with
    | some (.ok value) => .ok value
    | _ => .error .integerSyntax
  | outcome => outcome

/-- Read a double as the integer that it is. The double has to lie strictly between
the least machine integer and the bound of all. -/
def integerOfDouble (value : Float) : Except FaultKind Int :=
  let bits := Double.magnitudeBitsOf value
  let exact := Double.quotient bits
  if Double.infinityBits ≤ bits then .error .infiniteInteger
  else if exact.1 % exact.2 ≠ 0 then .error .fractionalInteger
  else if MachineInteger.bound ≤ exact.1 / exact.2 then .error .integerSize
  else .ok (signedInteger (Double.isNegative value) (exact.1 / exact.2))

/-- Read an integer. Truth values count as one and zero. -/
def readInteger : Document → Checked Int
  | .integer value => .valid value
  | .bool value => .valid (if value then 1 else 0)
  | .number value => .ofExcept (integerOfDouble value)
  | .text value => .ofExcept (integerOfText value.toList)
  | _ => .fault .notInteger

end Simplex.Document

import Simplex.Decimal.Basic
import Simplex.Text.Blank
import Simplex.Text.Digit
import Simplex.Text.Quoted

/-!
# Written integers

An integer is an optional sign and decimal digits of any script, with white space
around it. Single underscores may stand between digits. The number of digits is
limited, and the limit is tested before what follows the digits.
-/

namespace Simplex.Text

/-- The text without the underscores that stand between two digits. The flag says
whether a digit comes right before the text. -/
def ungroup (isDigit : Char → Bool) : (afterDigit : Bool) → List Char → List Char
  | _, [] => []
  | afterDigit, char :: rest =>
    if char = '_' ∧ afterDigit ∧ rest.head?.any isDigit then ungroup isDigit false rest
    else char :: ungroup isDigit (isDigit char) rest

/-- Whether a text begins with a minus sign, and the text after its sign, if it
has one. -/
def signed : List Char → Bool × List Char
  | '-' :: rest => (true, rest)
  | '+' :: rest => (false, rest)
  | text => (false, text)

/-- Why a text is no integer. -/
inductive IntegerFault where
  | malformed (text : String)
  | tooLong (digits : Nat)
  deriving DecidableEq, Repr

/-- The greatest number of digits an integer may have. -/
def integerDigitLimit : Nat := 4300

/-- The number of characters of a faulty text that are shown. -/
def shownLength : Nat := 200

/-- The wording of a fault. -/
def IntegerFault.message : IntegerFault → String
  | .malformed text =>
    "invalid literal for int() with base 10: " ++
      String.ofList ((quoted text.toList).take shownLength)
  | .tooLong digits =>
    s!"Exceeds the limit ({integerDigitLimit} digits) for integer string conversion: " ++
      s!"value has {digits} digits; use sys.set_int_max_str_digits() to increase the limit"

/-- Read a text as an integer. -/
def readInteger (text : List Char) : Except IntegerFault Int :=
  let sign := signed (trimBy isWhiteSpace text)
  let run := digitRun digitValue? (ungroup isDigit false sign.2)
  let fault := IntegerFault.malformed (String.ofList text)
  if run.1.isEmpty ∨ run.2.head? = some '_' then .error fault
  else if integerDigitLimit < run.1.length then .error (.tooLong run.1.length)
  else if run.2.isEmpty then
    let magnitude : Int := Decimal.ofDigits run.1
    .ok (if sign.1 then -magnitude else magnitude)
  else .error fault

end Simplex.Text

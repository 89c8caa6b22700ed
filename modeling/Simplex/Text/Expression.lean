import Simplex.Scalar
import Simplex.Text.Numeral

/-!
# Linear expressions

An expression is cut before every plus and minus sign. A fragment of the cut is a
term when it reads as a sign, a number, a star and a variable, all but the
variable optional and with blanks between them; every other fragment is skipped.
-/

namespace Simplex.Text

/-- One term of an expression, with its number as written. -/
structure Term where
  negative : Bool
  literal : Option Decimal
  name : String
  deriving DecidableEq, Repr

/-- The coefficient of a term; one where no number is written. -/
def Term.coefficient {α : Type} [Scalar α] (term : Term) : α :=
  let magnitude : α :=
    match term.literal with
    | some literal => Scalar.ofDecimal literal
    | none => 1
  if term.negative then -magnitude else magnitude

/-- Whether a character is a sign. -/
def isSign (char : Char) : Bool := char == '+' || char == '-'

/-- The text cut before every sign. -/
def cutAtSigns : List Char → List (List Char)
  | [] => [[]]
  | char :: rest =>
    match cutAtSigns rest with
    | [] => [[char]]
    | piece :: pieces =>
      if isSign char then [] :: (char :: piece) :: pieces else (char :: piece) :: pieces

/-- The pieces make up the text again. -/
@[simp] theorem flatten_cutAtSigns (text : List Char) : (cutAtSigns text).flatten = text := by
  fun_induction cutAtSigns text with
  | case1 => rfl
  | case2 char rest none ih => simp_all
  | case3 char rest piece pieces found sign ih => simp_all
  | case4 char rest piece pieces found sign ih => simp_all

/-- The pieces of an expression that are not blank, without blanks at their ends. -/
def fragments (text : List Char) : List (List Char) :=
  ((cutAtSigns text).map trim).filter fun piece => !piece.isEmpty

/-- The number a text begins with, if it begins with one, and the text after it. A
point counts only with a digit on one of its sides. -/
def literalPrefix (text : List Char) : Option Decimal × List Char :=
  let run := fractionRun digitValue? text
  if run.1.isEmpty ∧ run.2.1.isEmpty then (none, text)
  else (some (decimalOf false run.1 run.2.1 0), run.2.2)

/-- The text without a leading star. -/
def skipStar : List Char → List Char
  | '*' :: rest => rest
  | text => text

/-- Whether a text is a variable and nothing else. -/
def isVariable : List Char → Bool
  | 'x' :: lead :: rest => isLeadingDigit lead && rest.all isDigit
  | _ => false

/-- Read a fragment as a term. -/
def readTerm? (fragment : List Char) : Option Term :=
  let sign := signed fragment
  let number := literalPrefix (skipBlanks sign.2)
  let name := skipBlanks (skipStar (skipBlanks number.2))
  if isVariable name then some ⟨sign.1, number.1, String.ofList name⟩ else none

/-- The terms of an expression, in order. -/
def terms (expression : String) : List Term :=
  (fragments expression.toList).filterMap readTerm?

/-- The fragments of an expression that are no terms, in order. -/
def skipped (expression : String) : List String :=
  ((fragments expression.toList).filter fun fragment => (readTerm? fragment).isNone).map
    String.ofList

/-- The sum of the coefficients that the terms of an expression give to a
variable, from the left. -/
def coefficientOf {α : Type} [Scalar α] (expression name : String) : α :=
  (terms expression).foldl
    (fun sum term => if term.name = name then sum + term.coefficient else sum) 0

end Simplex.Text

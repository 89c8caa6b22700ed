import Simplex.Program
import Simplex.Text.Numeral

/-!
# Written constraints

A constraint is an expression, one relation sign and a finite number.
-/

namespace Simplex.Text

/-- A constraint whose left side has not been read yet. -/
structure Constraint (α : Type) where
  expression : String
  sense : Sense
  rhs : α
  deriving DecidableEq, Repr

/-- The relation signs of a text, in order. A sign that stands inside another one is
not a sign of its own. -/
def relationSigns : List Char → List Sense
  | [] => []
  | '<' :: '=' :: rest => .atMost :: relationSigns rest
  | '>' :: '=' :: rest => .atLeast :: relationSigns rest
  | '=' :: rest => .equal :: relationSigns rest
  | _ :: rest => relationSigns rest

/-- The text before the first relation sign, the relation, and the text after it. -/
def cutAtRelation? : List Char → Option (List Char × Sense × List Char)
  | [] => none
  | '<' :: '=' :: rest => some ([], .atMost, rest)
  | '>' :: '=' :: rest => some ([], .atLeast, rest)
  | '=' :: rest => some ([], .equal, rest)
  | char :: rest =>
    (cutAtRelation? rest).map fun parts => (char :: parts.1, parts.2)

/-- The sides and the relation of a text with exactly one relation sign. -/
def splitRelation? (text : List Char) : Option (List Char × Sense × List Char) :=
  if (relationSigns text).length = 1 then cutAtRelation? text else none

/-- The scalar that a text denotes, if that is finite. -/
def readFinite? {α : Type} [Scalar α] (text : List Char) : Option α :=
  match readNumeral? digitValue? (trim text) with
  | some (.finite value) =>
    let scalar : α := Scalar.ofDecimal value
    if Scalar.Finite scalar then some scalar else none
  | _ => none

/-- Read a constraint. A fault quotes the whole text. -/
def readConstraint {α : Type} [Scalar α] (text : String) :
    Except ProgramFault (Constraint α) :=
  match splitRelation? text.toList with
  | none => .error (.constraintFormat text)
  | some (left, sense, right) =>
    match readFinite? right with
    | none => .error (.rightHandSide text)
    | some rhs => .ok ⟨String.ofList (trim left), sense, rhs⟩

end Simplex.Text

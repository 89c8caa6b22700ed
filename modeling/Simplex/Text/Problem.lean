import Simplex.Text.Constraint
import Simplex.Text.Expression
import Simplex.Text.Identifier

/-!
# Written problems

A problem is an objective, a list of constraints and a goal. Its variables are
those mentioned anywhere in the text, in the order of their numbers, and every row
is laid out by them. Blank constraints are dropped.
-/

namespace Simplex.Text

/-- Why a text is no problem. -/
inductive ProblemFault where
  | program (fault : ProgramFault)
  /-- The number of a variable has too many digits. -/
  | variableNumber (fault : IntegerFault)
  /-- The goal is neither to maximise nor to minimise. -/
  | goal
  deriving DecidableEq, Repr

/-- The text without blanks at its ends; absent text is empty. -/
def trimmed (text : Option String) : String :=
  String.ofList (trim (text.getD "").toList)

/-- The constraints that are not blank, without blanks at their ends. -/
def presentConstraints (constraints : List (Option String)) : List String :=
  (constraints.map trimmed).filter fun constraint => !constraint.isEmpty

/-- The variables mentioned in a list of texts, in the order of their numbers. -/
def variablesOf (texts : List String) : Except IntegerFault (List String) :=
  sortByNumber (texts.flatMap identifiers)

variable {α : Type} [Scalar α]

/-- The coefficients that an expression gives to the variables. -/
def layOut (names : List String) (expression : String) : List α :=
  names.map (coefficientOf expression)

/-- The program with the given objective and constraints, laid out by names. -/
def programOf (objective : String) (relations : List (Constraint α)) (goal : Goal)
    (names : List String) : Program α where
  objective := layOut names objective
  constraints := relations.map fun relation => layOut names relation.expression
  senses := relations.map Constraint.sense
  rhs := relations.map Constraint.rhs
  goal := goal
  names := names

/-- Read a problem. The goal is absent when what was asked for is no goal; that is
found out last. -/
def readProblem (objective : Option String) (constraints : List (Option String))
    (goal : Option Goal) : Except ProblemFault (Program α) :=
  let objective := trimmed objective
  let present := presentConstraints constraints
  if present.isEmpty then .error (.program .noConstraints)
  else if objective.isEmpty then .error (.program .noObjective)
  else
    match present.mapM readConstraint with
    | .error fault => .error (.program fault)
    | .ok relations =>
      match variablesOf (objective :: present) with
      | .error fault => .error (.variableNumber fault)
      | .ok names =>
        if names.isEmpty then .error (.program .noVariables)
        else
          match goal with
          | none => .error .goal
          | some goal => .ok (programOf objective relations goal names)

end Simplex.Text

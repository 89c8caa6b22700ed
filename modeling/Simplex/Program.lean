import Simplex.Scalar

/-!
# Linear programs

A program in coefficient form: optimise `objective · x` subject to one relation
per row of `constraints`, over non-negative `x`. The lists of a program are not
tied together by its type; `Program.check` says when they fit.
-/

namespace Simplex

/-- The relation between the left and the right side of a constraint. -/
inductive Sense where
  | atMost
  | atLeast
  | equal
  deriving DecidableEq, Repr

/-- The written form of a relation. -/
def Sense.symbol : Sense → String
  | .atMost => "<="
  | .atLeast => ">="
  | .equal => "="

/-- The direction of optimisation. -/
inductive Goal where
  | maximize
  | minimize
  deriving DecidableEq, Repr

/-- The written form of a goal. -/
def Goal.symbol : Goal → String
  | .maximize => "max"
  | .minimize => "min"

/-- A linear program in coefficient form. -/
structure Program (α : Type) where
  objective : List α
  constraints : List (List α)
  senses : List Sense
  rhs : List α
  goal : Goal
  /-- The names of the variables; an empty list stands for `x1`, `x2` and so on. -/
  names : List String
  deriving DecidableEq, Repr

/-- What keeps an input from being a linear program, whether it is given as text
or as coefficients. -/
inductive ProgramFault where
  | noObjective
  | noConstraints
  | noVariables
  | variableCount (expected actual : Nat)
  | relationCount
  /-- A row, counted from one, with the wrong number of coefficients. -/
  | coefficientCount (row actual expected : Nat)
  /-- A constraint without exactly one relation sign. -/
  | constraintFormat (constraint : String)
  /-- A constraint whose right side is no finite number. -/
  | rightHandSide (constraint : String)
  deriving DecidableEq, Repr

/-- Whether something is missing altogether, rather than badly formed. -/
def ProgramFault.isEmpty : ProgramFault → Bool
  | .noObjective | .noConstraints | .noVariables => true
  | _ => false

/-- The wording of a fault. -/
def ProgramFault.message : ProgramFault → String
  | .noObjective => "Objective function is required"
  | .noConstraints => "At least one constraint is required"
  | .noVariables => "No decision variables found in objective or constraints"
  | .variableCount expected actual => s!"Expected {expected} variable names, got {actual}"
  | .relationCount => "Every constraint needs exactly one operator and one right-hand side"
  | .coefficientCount row actual expected =>
    s!"Constraint {row} has {actual} coefficients, expected {expected}"
  | .constraintFormat constraint => s!"Invalid constraint format: {constraint}"
  | .rightHandSide constraint => s!"Invalid right-hand side in constraint: {constraint}"

/-- The names made of a letter and the numbers from one to `count`. -/
def numberedNames (letter : String) (count : Nat) : List String :=
  (List.range count).map fun index => s!"{letter}{index + 1}"

namespace Program

variable {α : Type}

/-- The names of the variables, given or made up. -/
def variableNames (program : Program α) : List String :=
  if program.names.isEmpty then numberedNames "x" program.objective.length
  else program.names

/-- The first row whose length differs from the number of variables. -/
def coefficientFault? (program : Program α) : Option ProgramFault :=
  let expected := program.objective.length
  (program.constraints.zipIdx.find? fun row => row.1.length != expected).map fun row =>
    .coefficientCount (row.2 + 1) row.1.length expected

/-- The first reason why the lists of a program do not fit together. -/
def fault? (program : Program α) : Option ProgramFault :=
  if program.objective.isEmpty then some .noObjective
  else if program.constraints.isEmpty then some .noConstraints
  else if !program.names.isEmpty && program.names.length != program.objective.length then
    some (.variableCount program.objective.length program.names.length)
  else if program.senses.length != program.constraints.length
      || program.rhs.length != program.constraints.length then
    some .relationCount
  else program.coefficientFault?

/-- Accept a program whose lists fit together. -/
def check (program : Program α) : Except ProgramFault Unit :=
  match program.fault? with
  | some fault => .error fault
  | none => .ok ()

end Program

end Simplex

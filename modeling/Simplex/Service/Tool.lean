import Simplex.Document.Forms
import Simplex.Service.Solver

/-!
# Tools

The calls that the library offers to its clients. The answer of a tool is a
document; a failure of the solver is part of it, and only requests that the solver
never gets to see fail outright.
-/

namespace Simplex

variable {α : Type} [Scalar α]

/-- Solve a problem given as text. -/
def solveText (objective : Option String) (constraints : List (Option String))
    (goal : Option Goal) (method : Method) (options : Options α) :
    Except Failure (Report α) :=
  match Solver.ofText objective constraints goal method options with
  | .error failure => .error failure
  | .ok solver => solver.report

/-- Solve a program given by coefficients. -/
def solveProgram (program : Program α) (method : Method) (options : Options α) :
    Except Failure (Report α) :=
  (program.solve method options).mapError .ofSolve

/-- Read a problem given as text. -/
def readProgram (objective : Option String) (constraints : List (Option String))
    (goal : Option Goal) : Except Failure (Program α) :=
  (Text.readProblem objective constraints goal).mapError .ofProblem

namespace Tool

/-- The answer in place of a result, with further fields. -/
def answerOr (more : List (String × Document)) :
    Except Failure Document → Except Failure Document
  | .ok result => .ok result
  | .error failure =>
    match failure.solverKind? with
    | none => .error failure
    | some kind =>
      .ok (.record ([("error", .text failure.message), ("kind", .text kind)] ++ more))

/-- The answer of a solving tool. -/
def reportAnswer (scalar : α → Document) (result : Except Failure (Report α)) :
    Except Failure Document :=
  answerOr [("solution", .null), ("steps", .list [])]
    (result.map (Report.toDocument scalar))

/-- The answer of the reading tool. -/
def programAnswer (scalar : α → Document) (result : Except Failure (Program α)) :
    Except Failure Document :=
  answerOr [] (result.map (Program.toDocument scalar))

end Tool

end Simplex

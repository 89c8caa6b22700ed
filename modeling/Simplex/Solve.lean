import Simplex.Run
import Simplex.Solution
import Simplex.Tableau.Initial

/-!
# Solving programs

The two methods run the same pivots, from the tableau of the program or from that
of its dual, and differ in how the final tableau is read.
-/

namespace Simplex

/-- The tableau a program is solved in. -/
inductive Method where
  | primal
  | dual
  deriving DecidableEq, Repr

/-- The written form of a method. -/
def Method.symbol : Method → String
  | .primal => "simplex"
  | .dual => "dual"

/-- A solution with the steps that led to it. -/
structure Report (α : Type) where
  solution : Solution α
  steps : List (Step α)
  columns : List String
  method : Method
  deriving DecidableEq, Repr

/-- The number of pivots: the first recorded step is the tableau before any. -/
def Report.iterations {α : Type} (report : Report α) : Nat := report.steps.length - 1

/-- Why a program has no report. -/
inductive SolveError where
  | program (fault : ProgramFault)
  | run (error : RunError)
  deriving DecidableEq, Repr

namespace Program

variable {α : Type} [Scalar α]

/-- The initial tableau of a program whose lists fit together. -/
def tableau (program : Program α) (method : Method) : Except ProgramFault (Tableau α) :=
  match program.check with
  | .error fault => .error fault
  | .ok () =>
    match method with
    | .primal => .ok program.primalTableau
    | .dual => .ok program.dualTableau

end Program

namespace Tableau

variable {α : Type} [Scalar α]

/-- The solution that a method reads off its final tableau, before cleaning. -/
def reading (tableau : Tableau α) (method : Method) (goal : Goal) : Solution α :=
  match method with
  | .primal => tableau.primalReading goal
  | .dual => tableau.dualReading

/-- Run a method from its initial tableau and report the solution. -/
def solve (tableau : Tableau α) (method : Method) (goal : Goal) (options : Options α) :
    Except RunError (Report α) :=
  let run := tableau.run options
  match run.outcome with
  | .error error => .error error
  | .ok final =>
    .ok {
      solution := (final.reading method goal).cleaned
      steps := run.steps
      columns := tableau.columns
      method := method }

end Tableau

namespace Program

variable {α : Type} [Scalar α]

/-- Solve a program by a method. -/
def solve (program : Program α) (method : Method) (options : Options α) :
    Except SolveError (Report α) :=
  match program.tableau method with
  | .error fault => .error (.program fault)
  | .ok tableau => (tableau.solve method program.goal options).mapError .run

end Program

end Simplex

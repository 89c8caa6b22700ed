import Simplex.Service.Failure

/-!
# Solvers

A solver holds a program, its initial tableau and options that may be replaced.
Solving never changes the tableau; what is kept of it is the solution of the last
run that ended well.
-/

namespace Simplex

/-- A program made ready for solving. -/
structure Solver (α : Type) where
  program : Program α
  method : Method
  options : Options α
  tableau : Tableau α
  solved : Option (Solution α)

namespace Solver

variable {α : Type} [Scalar α]

/-- A solver for a program whose lists fit together. -/
def ofProgram (program : Program α) (method : Method) (options : Options α) :
    Except Failure (Solver α) :=
  match program.tableau method with
  | .error fault => .error (.program fault)
  | .ok tableau => .ok ⟨program, method, options, tableau, none⟩

/-- A solver for a problem given as text. -/
def ofText (objective : Option String) (constraints : List (Option String))
    (goal : Option Goal) (method : Method) (options : Options α) :
    Except Failure (Solver α) :=
  match Text.readProblem objective constraints goal with
  | .error fault => .error (.ofProblem fault)
  | .ok program => ofProgram program method options

/-- The report of the solver's program under its options. -/
def report (solver : Solver α) : Except Failure (Report α) :=
  (solver.tableau.solve solver.method solver.program.goal solver.options).mapError .run

/-- What can be asked of a solver. -/
inductive Action (α : Type) where
  | solve
  | setOptions (options : Options α)
  | options
  | program
  | tableau
  | valueOf (name : String)

/-- What a solver answers. -/
inductive Reply (α : Type) where
  | report (report : Report α)
  | options (options : Options α)
  | program (program : Program α)
  | tableau (tableau : Tableau α)
  | value (value : α)

/-- The solver after an action, and its answer. -/
def perform (solver : Solver α) : Action α → Solver α × Except Failure (Reply α)
  | .solve =>
    match solver.report with
    | .error failure => (solver, .error failure)
    | .ok report => ({ solver with solved := some report.solution }, .ok (.report report))
  | .setOptions options => ({ solver with options := options }, .ok (.options options))
  | .options => (solver, .ok (.options solver.options))
  | .program => (solver, .ok (.program solver.program))
  | .tableau => (solver, .ok (.tableau solver.tableau))
  | .valueOf name =>
    match solver.solved.bind (·.valueOf? name) with
    | none => (solver, .error (.noSuchVariable name))
    | some value => (solver, .ok (.value value))

end Solver

end Simplex

import Simplex.Document.Checked
import Simplex.Instance.Random
import Simplex.Solve
import Simplex.Text.Problem

/-!
# Failures of requests

Everything that can keep a request from being answered, each kind with its cause.
The failures of the solver proper, and no others, are also reported inside the
answer of a tool.
-/

namespace Simplex

/-- Why a request has no answer. -/
inductive Failure where
  /-- A document does not have the form that was asked for. -/
  | invalid (faults : List DocumentFault)
  | program (fault : ProgramFault)
  | variableNumber (fault : Text.IntegerFault)
  | run (error : RunError)
  | size (fault : SizeFault)
  | noSuchColumn (position : Int)
  | noSuchVariable (name : String)
  deriving DecidableEq, Repr

/-- The wording of a failed run. -/
def RunError.message : RunError → String
  | .unbounded _ => "No finite solution: problem is unbounded"
  | .iterationLimit pivots => s!"Hit iteration limit after {pivots} pivots"
  | .unlabelledRow _ => "list index out of range"

namespace Failure

/-- The wording of a failure. For a missing variable it is the name itself. -/
def message : Failure → String
  | .invalid _ => ""
  | .program fault => fault.message
  | .variableNumber fault => fault.message
  | .run error => error.message
  | .size fault => fault.message
  | .noSuchColumn position =>
    if MachineInteger.holds position then "list index out of range"
    else MachineInteger.refusal
  | .noSuchVariable name => name

/-- The kind under which a tool reports a failure inside its answer; only failures
of the solver have one. -/
def solverKind? : Failure → Option String
  | .program fault =>
    some (if fault.isEmpty then "EmptyInputError" else "MalformedConstraintError")
  | .run (.unbounded _) => some "UnboundedError"
  | .run (.iterationLimit _) => some "IterationLimitError"
  | _ => none

/-- The failure of a problem given as text. An unknown goal is a fault of the
program's document form. -/
def ofProblem : Text.ProblemFault → Failure
  | .program fault => .program fault
  | .variableNumber fault => .variableNumber fault
  | .goal => .invalid [⟨.notListed, [.key "problem_type"]⟩]

/-- The failure of a program given by coefficients. -/
def ofSolve : SolveError → Failure
  | .program fault => .program fault
  | .run error => .run error

end Failure

/-- The valid value of a document. -/
def Checked.orFail {α : Type} (checked : Checked α) : Except Failure α :=
  checked.toExcept.mapError .invalid

end Simplex

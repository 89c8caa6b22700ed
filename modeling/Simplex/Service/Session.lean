import Simplex.Service.Failure

/-!
# Sessions on a tableau

A session holds a tableau that is worked on by hand or by runs, and the list of
tables recorded so far. A failed run leaves the tableau as it was, and what it
recorded before it failed stays recorded.
-/

namespace Simplex

/-- A tableau being worked on. -/
structure Session (α : Type) where
  tableau : Tableau α
  steps : List (Step α)

namespace Session

variable {α : Type}

/-- The session on a tableau with nothing recorded. -/
def start (tableau : Tableau α) : Session α := ⟨tableau, []⟩

/-- The number of recorded pivots: the first recorded table counts none. -/
def pivotCount (session : Session α) : Nat := session.steps.length - 1

/-- What can be asked of a session. -/
inductive Action (α : Type) where
  | canImprove (tolerance : α)
  | entering (rule : PivotRule) (tolerance : α)
  | leaving (column : Nat)
  | pivot (row column : Nat)
  | set (row column : Nat) (value : α)
  | record (info : Option PivotInfo)
  | pivots
  | steps
  | run (options : Options α)
  | tableau
  | columnName (position : Int)
  | basic (columns structural : Nat) (tolerance : α)
  | primalSolution (goal : Goal)
  | dualSolution

/-- What a session answers. -/
inductive Reply (α : Type) where
  | flag (value : Bool)
  | column (found : Option Nat)
  | row (index : Nat)
  | table (table : Table α)
  | count (value : Nat)
  | steps (steps : List (Step α))
  | tableau (tableau : Tableau α)
  | name (name : String)
  | basic (positions : List (Nat × Nat))
  | solution (solution : Solution α)

variable [Scalar α]

/-- The session with another table under the same labels. -/
def withTable (session : Session α) (table : Table α) : Session α :=
  { session with tableau := { session.tableau with table := table } }

/-- The session after an action, and its answer. -/
def perform (session : Session α) : Action α → Session α × Except Failure (Reply α)
  | .canImprove tolerance => (session, .ok (.flag (session.tableau.canImprove tolerance)))
  | .entering rule tolerance =>
    (session, .ok (.column (session.tableau.entering? rule tolerance)))
  | .leaving column =>
    match session.tableau.table.leaving? column with
    | none => (session, .error (.run (.unbounded column)))
    | some row => (session, .ok (.row row))
  | .pivot row column =>
    let table := session.tableau.table.pivot row column
    (session.withTable table, .ok (.table table))
  | .set row column value =>
    let table := session.tableau.table.set row column value
    (session.withTable table, .ok (.table table))
  | .record info =>
    let next := { session with steps := session.steps ++ [⟨session.tableau.table, info⟩] }
    (next, .ok (.count next.pivotCount))
  | .pivots => (session, .ok (.count session.pivotCount))
  | .steps => (session, .ok (.steps session.steps))
  | .run options =>
    let run := session.tableau.run options
    let recorded := { session with steps := session.steps ++ run.steps }
    match run.outcome with
    | .error error => (recorded, .error (.run error))
    | .ok final => ({ recorded with tableau := final }, .ok (.tableau final))
  | .tableau => (session, .ok (.tableau session.tableau))
  | .columnName position =>
    match session.tableau.columnName? position with
    | none => (session, .error (.noSuchColumn position))
    | some name => (session, .ok (.name name))
  | .basic columns structural tolerance =>
    (session, .ok (.basic (session.tableau.table.basicColumns tolerance columns structural)))
  | .primalSolution goal =>
    (session, .ok (.solution (session.tableau.primalReading goal).cleaned))
  | .dualSolution => (session, .ok (.solution session.tableau.dualReading.cleaned))

end Session

end Simplex

import Simplex.Document.Number
import Simplex.Solve

/-!
# Document forms of programs, options and results

Each value that crosses the boundary of the library has one record form, given
here by its field names. Writers take the form of a scalar as a parameter.
-/

namespace Simplex

/-- The relation of a written form. -/
def Sense.ofSymbol? (symbol : String) : Option Sense :=
  [Sense.atMost, .atLeast, .equal].find? (·.symbol == symbol)

/-- The goal of a written form. -/
def Goal.ofSymbol? (symbol : String) : Option Goal :=
  [Goal.maximize, .minimize].find? (·.symbol == symbol)

/-- The written form of a rule. -/
def PivotRule.symbol : PivotRule → String
  | .dantzig => "dantzig"
  | .bland => "bland"

/-- The rule of a written form. -/
def PivotRule.ofSymbol? (symbol : String) : Option PivotRule :=
  [PivotRule.dantzig, .bland].find? (·.symbol == symbol)

/-- The method of a written form. -/
def Method.ofSymbol? (symbol : String) : Option Method :=
  [Method.primal, .dual].find? (·.symbol == symbol)

open Document (readDouble readField readFieldOr readInteger readList readText readWord)

/-- Read a program. The goal and the names of the variables may be left out. -/
def Program.ofDocument : Document → Checked (Program Float)
  | .record fields =>
    Program.mk
      <$> readField fields "objective" (readList readDouble)
      <*> readField fields "constraints" (readList (readList readDouble))
      <*> readField fields "senses" (readList (readWord Sense.ofSymbol?))
      <*> readField fields "rhs" (readList readDouble)
      <*> readFieldOr fields "problem_type" .maximize (readWord Goal.ofSymbol?)
      <*> readFieldOr fields "variables" [] (readList readText)
  | _ => .fault .notRecord

/-- Read options. Every field may be left out. -/
def Options.ofDocument : Document → Checked (Options Float)
  | .record fields =>
    let absent : Options Float := .default
    Options.mk
      <$> readFieldOr fields "max_iters" absent.maxIterations readInteger
      <*> readFieldOr fields "tol" absent.tolerance readDouble
      <*> readFieldOr fields "pivot_rule" absent.rule (readWord PivotRule.ofSymbol?)
  | _ => .fault .notRecord

/-- Read options that may be absent or null as a whole. -/
def Options.ofOptional : Option Document → Checked (Options Float)
  | none | some .null => .valid .default
  | some document => Options.ofDocument document

/-- Read the description of a pivot. -/
def PivotInfo.ofDocument : Document → Checked PivotInfo
  | .record fields =>
    PivotInfo.mk
      <$> readField fields "row" readInteger
      <*> readField fields "col" readInteger
      <*> readField fields "entering" readText
      <*> readField fields "leaving" readText
  | _ => .fault .notRecord

section Writers

variable {α : Type} (scalar : α → Document)

/-- The form of a list of scalars. -/
def vectorDocument (values : List α) : Document := .list (values.map scalar)

/-- The form of a list of rows. -/
def rowsDocument (rows : List (List α)) : Document :=
  .list (rows.map (vectorDocument scalar))

/-- The form of a table. -/
def Table.toDocument (table : Table α) : Document := rowsDocument scalar table.rows

/-- The form of a program. -/
def Program.toDocument (program : Program α) : Document :=
  .record [
    ("objective", vectorDocument scalar program.objective),
    ("constraints", rowsDocument scalar program.constraints),
    ("senses", .texts (program.senses.map Sense.symbol)),
    ("rhs", vectorDocument scalar program.rhs),
    ("problem_type", .text program.goal.symbol),
    ("variables", .texts program.names)]

/-- The form of options. -/
def Options.toDocument (options : Options α) : Document :=
  .record [
    ("max_iters", .integer options.maxIterations),
    ("tol", scalar options.tolerance),
    ("pivot_rule", .text options.rule.symbol)]

/-- The form of the description of a pivot. -/
def PivotInfo.toDocument (info : PivotInfo) : Document :=
  .record [
    ("row", .integer info.row),
    ("col", .integer info.column),
    ("entering", .text info.entering),
    ("leaving", .text info.leaving)]

/-- The form of a recorded table. -/
def Step.toDocument (step : Step α) : Document :=
  .record [
    ("table", step.table.toDocument scalar),
    ("pivot_info", .ofOption (step.pivot.map PivotInfo.toDocument))]

/-- The form of a list of recorded tables. -/
def stepsDocument (steps : List (Step α)) : Document :=
  .list (steps.map (Step.toDocument scalar))

/-- The form of a solution. A reading is always reported as feasible. -/
def Solution.toDocument (solution : Solution α) : Document :=
  .record [
    ("optimal_value", scalar solution.optimalValue),
    ("variables", .list (solution.values.map fun value =>
      .record [("name", .text value.1), ("value", scalar value.2)])),
    ("feasible", .bool true)]

/-- The form of a report. -/
def Report.toDocument (report : Report α) : Document :=
  .record [
    ("solution", report.solution.toDocument scalar),
    ("steps", stepsDocument scalar report.steps),
    ("columns", .texts report.columns),
    ("iterations", .integer report.iterations),
    ("method", .text report.method.symbol)]

/-- The form of a tableau. -/
def Tableau.toDocument (tableau : Tableau α) : Document :=
  .record [
    ("matrix", tableau.table.toDocument scalar),
    ("basis", .texts tableau.basis),
    ("columns", .texts tableau.columns),
    ("num_rows", .integer tableau.table.height),
    ("num_candidates", .integer tableau.candidates),
    ("rhs_col", .integer tableau.table.rhsColumn)]

end Writers

end Simplex

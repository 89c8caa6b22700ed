import Simplex.Instance.Random
import Simplex.Solve

/-!
# The benchmark

Two worked examples and three random programs, each solved by both methods.
-/

namespace Simplex

/-- A small minimisation with upper bounds. -/
def dietExample : Program Float where
  objective := [-2, -3]
  constraints := [[1, 1], [1, 3]]
  senses := [.atMost, .atMost]
  rhs := [4, 6]
  goal := .minimize
  names := ["x1", "x2"]

/-- A product mix with three resources. -/
def textbookExample : Program Float where
  objective := [3, 5]
  constraints := [[1, 0], [0, 2], [3, 2]]
  senses := [.atMost, .atMost, .atMost]
  rhs := [4, 12, 18]
  goal := .maximize
  names := ["x1", "x2"]

/-- The programs of the benchmark, each with its name. -/
def benchmarkPrograms : List (String × Program Float) :=
  [("examples/diet_min.json", dietExample), ("examples/textbook_lp.json", textbookExample)] ++
    (List.range 3).map fun (seed : Nat) =>
      (s!"random-{seed}", Sampler.twister.program 4 4 (.ofSeed seed))

/-- The headings of the results. -/
def benchmarkHeadings : List String := ["name", "method", "objective", "iterations"]

/-- One solved program of the benchmark. -/
structure BenchmarkResult where
  name : String
  method : Method
  optimalValue : Float
  iterations : Nat

/-- Solve a program of the benchmark by a method. -/
def benchmarkResult (name : String) (program : Program Float) (method : Method) :
    Except SolveError BenchmarkResult :=
  (program.solve method .default).map fun report =>
    ⟨name, method, report.solution.optimalValue, report.iterations⟩

/-- The cases of the benchmark, in order. -/
def benchmarkCases : List (String × Program Float × Method) :=
  benchmarkPrograms.flatMap fun named =>
    [Method.primal, .dual].map fun method => (named.1, named.2, method)

/-- The results of the whole benchmark. -/
def benchmark : Except SolveError (List BenchmarkResult) :=
  benchmarkCases.mapM fun one => benchmarkResult one.1 one.2.1 one.2.2

end Simplex

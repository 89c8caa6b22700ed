import Simplex.CommandLine
import Simplex.Instance.Benchmark

/-!
# The program

Without a command it generates random programs; with the command `bench` it solves
the benchmark and prints a row for every case.
-/

namespace Simplex.Main

/-- Carry out a command line of the generator. -/
def generate (arguments : List String) : IO UInt32 := do
  let outcome := CommandLine.read arguments
  match outcome with
  | .request ⟨vars, constraints, seed, count, some file⟩ =>
    match CommandLine.Request.text ⟨vars, constraints, seed, count, some file⟩ with
    | .ok text => IO.FS.writeFile file text
    | .error fault => refuse fault
  | _ =>
    match outcome.output with
    | .ok text => IO.print text
    | .error fault => refuse fault
  if outcome = .refused then IO.eprintln "the arguments are not understood"
  pure outcome.exitCode.toUInt32
where
  refuse (fault : SizeFault) : IO Unit := throw (IO.userError fault.message)

/-- A time in milliseconds with two decimal places. -/
def milliseconds (nanoseconds : Nat) : String :=
  let hundredths := roundDiv nanoseconds 10000
  let fraction := toString (hundredths % 100)
  s!"{hundredths / 100}." ++ (if fraction.length < 2 then "0" else "") ++ fraction

/-- Solve the benchmark and print its results with their times. -/
def bench : IO UInt32 := do
  IO.println (",".intercalate (benchmarkHeadings ++ ["time_ms"]))
  for (name, program, method) in benchmarkCases do
    let before ← IO.monoNanosNow
    match benchmarkResult name program method with
    | .error _ => return 1
    | .ok result =>
      let after ← IO.monoNanosNow
      IO.println (",".intercalate [result.name, result.method.symbol,
        Double.toText result.optimalValue, toString result.iterations,
        milliseconds (after - before)])
  pure 0

end Simplex.Main

/-- Run the benchmark or the generator. -/
def main (arguments : List String) : IO UInt32 :=
  match arguments with
  | ["bench"] => Simplex.Main.bench
  | _ => Simplex.Main.generate arguments

import Simplex.Decimal.Shortest
import Simplex.Instance.Twister
import Simplex.MachineInteger
import Simplex.Program

/-!
# Random programs

Programs with positive data and upper bounds only, so that the auxiliary basis is
feasible and the maximum is finite. What is random about them is a source of
fractions and of the way numbers are rounded.
-/

namespace Simplex

/-- Where random fractions come from, and how the numbers made of them are
rounded. -/
structure Sampler (σ α : Type) where
  fraction : σ → α × σ
  round : α → α

namespace Sampler

variable {σ α : Type} [Scalar α]

/-- The point that divides an interval in the ratio of a fraction. -/
def between (low high fraction : α) : α := low + (high - low) * fraction

/-- The next rounded number of an interval. -/
def draw (sampler : Sampler σ α) (low high : α) (state : σ) : α × σ :=
  let next := sampler.fraction state
  (sampler.round (between low high next.1), next.2)

/-- The results of drawing a number of times. -/
def repeatDraw {β : Type} (one : σ → β × σ) : Nat → σ → List β × σ
  | 0, state => ([], state)
  | count + 1, state =>
    let first := one state
    let rest := repeatDraw one count first.2
    (first.1 :: rest.1, rest.2)

/-- A program with the given numbers of variables and constraints; a negative number
counts as zero. Coefficients lie between a half and five, right-hand sides between
twice and six times the number of variables, objective entries between one and
four, and they are drawn in this order. -/
def program (sampler : Sampler σ α) (variableCount constraintCount : Int) (state : σ) :
    Program α :=
  let decimal (mantissa : Int) (exponent : Int) : α :=
    Scalar.ofDecimal ⟨mantissa < 0, mantissa.natAbs, exponent⟩
  let size : α := decimal variableCount 0
  let row := repeatDraw (sampler.draw (decimal 5 (-1)) (decimal 5 0)) variableCount.toNat
  let rows := repeatDraw row constraintCount.toNat state
  let rhs := repeatDraw (sampler.draw (size * decimal 2 0) (size * decimal 6 0))
    constraintCount.toNat rows.2
  let objective := repeatDraw (sampler.draw (decimal 1 0) (decimal 4 0))
    variableCount.toNat rhs.2
  { objective := objective.1
    constraints := rows.1
    senses := List.replicate constraintCount.toNat .atMost
    rhs := rhs.1
    goal := .maximize
    names := numberedNames "x" variableCount.toNat }

/-- The sampler of doubles with at most three decimal places. -/
def twister : Sampler Twister Float where
  fraction := Twister.nextFraction
  round := Double.roundToPlaces 3

end Sampler

/-- Why there is no random program of a size. -/
inductive SizeFault where
  /-- The number of variables, of which right-hand sides are multiples, lies beyond
  all doubles. -/
  | variablesBeyondDoubles
  /-- The number of constraints, which is the length of a list, is no machine
  integer. -/
  | constraintsBeyondMachine
  deriving DecidableEq, Repr

namespace SizeFault

/-- What is wrong with a size, if anything. Without constraints there are no
right-hand sides, and so the number of variables does not matter. -/
def find? (variableCount constraintCount : Int) : Option SizeFault :=
  if 0 < constraintCount ∧ (Decimal.ofInt variableCount).exceedsDoubles then
    some .variablesBeyondDoubles
  else if MachineInteger.holds constraintCount then none
  else some .constraintsBeyondMachine

/-- The wording of a fault. -/
def message : SizeFault → String
  | .variablesBeyondDoubles => "int too large to convert to float"
  | .constraintsBeyondMachine => MachineInteger.refusal

end SizeFault

/-- The random program of a size and a seed. -/
def Program.random (variableCount constraintCount seed : Int) :
    Except SizeFault (Program Float) :=
  match SizeFault.find? variableCount constraintCount with
  | some fault => .error fault
  | none => .ok (Sampler.twister.program variableCount constraintCount (.ofSeed seed))

end Simplex

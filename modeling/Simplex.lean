import Simplex.Main
import Simplex.Service.Session
import Simplex.Service.Tool
import Simplex.Proofs.Bland
import Simplex.Proofs.Duality
import Simplex.Proofs.Optimality
import Simplex.Proofs.Unbounded
import Simplex.Proofs.History
import Simplex.Proofs.Tracking
import Simplex.Proofs.Factorization
import Simplex.Proofs.Assignment
import Simplex.Proofs.PrimalReading
import Simplex.Proofs.DualReading
import Simplex.Proofs.Start
import Simplex.Proofs.Progress
import Simplex.Proofs.Limit
import Simplex.Proofs.Replay
import Simplex.Proofs.Completion
import Simplex.Proofs.DualMethod
import Simplex.Proofs.Units
import Simplex.Proofs.Nondegenerate
import Simplex.Proofs.Uniqueness
import Simplex.Proofs.RowWeights
import Simplex.Proofs.Text.WrittenProblem
import Simplex.Proofs.Answers
import Simplex.Proofs.Quotient
import Simplex.Proofs.Table.RatioTest
import Simplex.Proofs.UnitReading
import Simplex.Proofs.Relabelling
import Simplex.Proofs.Text.Term
import Simplex.Proofs.FiniteDouble
import Simplex.Proofs.BoundedSum
import Simplex.Proofs.Text.SingleRelation
import Simplex.Proofs.Text.Layout
import Simplex.Proofs.Text.SignedPower
import Simplex.Proofs.Text.FiniteProgram
import Simplex.Proofs.NearestDouble
import Simplex.Proofs.Positive
import Simplex.Proofs.Table.Composition
import Simplex.Proofs.Table.Preference
import Simplex.Proofs.Text.Delimited
import Simplex.Proofs.ExactValue
import Simplex.Proofs.Instance.Draw
import Simplex.Proofs.Instance.Random

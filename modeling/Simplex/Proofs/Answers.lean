import Simplex.Proofs.Labels
import Simplex.Proofs.Start
import Simplex.Proofs.Text.Refusal
import Simplex.Service.Tool

/-!
# Answers to requests in text

A run of a program that was read from a text ends in a report or in one of the two failures of a
run. The tools report these failures and those of the reader inside their answers, so a request
fails outright only when a variable has too many digits or the goal is unknown:
`textFailures_complete`.
-/

namespace Simplex

open Text

/-- The kinds of the failures that are reported inside an answer. -/
def solverKinds : List String :=
  ["EmptyInputError", "MalformedConstraintError", "UnboundedError", "IterationLimitError"]

/-- The kind of failure that each test of a text ends in, in the order of the tests; there is none
where the request fails outright. -/
def testKinds : List (Option String) :=
  [some "EmptyInputError", some "EmptyInputError", some "MalformedConstraintError", none,
    some "EmptyInputError", none]

namespace Tool

variable {β : Type}

/-- A tool answers a request with its result, or else with the failure of the solver, under its
kind and with further fields. -/
def AnswersInBand (document : β → Document) (more : List (String × Document))
    (result : Except Failure β) (answer : Except Failure Document) : Prop :=
  (∃ value, result = .ok value ∧ answer = .ok (document value)) ∨
  ∃ failure, ∃ kind ∈ solverKinds, result = .error failure ∧ failure.solverKind? = some kind ∧
    answer = .ok (.record ([("error", .text failure.message), ("kind", .text kind)] ++ more))

/-- A request whose failures all have a kind is answered. -/
theorem answersInBand_answerOr {result : Except Failure β} (document : β → Document)
    (more : List (String × Document))
    (inBand : ∀ failure, result = .error failure →
      ∃ kind ∈ solverKinds, failure.solverKind? = some kind) :
    AnswersInBand document more result (answerOr more (result.map document)) := by
  cases result with
  | ok value => exact .inl ⟨value, rfl, rfl⟩
  | error failure =>
    obtain ⟨kind, listed, known⟩ := inBand failure rfl
    refine .inr ⟨failure, kind, listed, rfl, known, ?_⟩
    simp only [answerOr, Except.map, known]

end Tool

section Reading

variable {α : Type} [Scalar α] {objective : Option String} {constraints : List (Option String)}
  {goal : Option Goal}

/-- Each test of a text has its kind of failure. -/
theorem solverKind?_of_defect {fault : ProblemFault}
    (defect : Defect α objective constraints goal fault) :
    (Failure.ofProblem fault).solverKind? = testKinds.getD fault.rank none := by
  cases defect <;> rfl

/-- Nothing but a long identifier or an unknown goal keeps the reader's failure out of an
answer. -/
theorem solverKind?_of_readProblem {fault : ProblemFault}
    (short : ∀ name ∈ mentioned objective constraints, digitCount name ≤ integerDigitLimit)
    (asked : goal ≠ none)
    (failed : readProblem (α := α) objective constraints goal = .error fault) :
    ∃ kind ∈ solverKinds, (Failure.ofProblem fault).solverKind? = some kind := by
  obtain ⟨defect, -⟩ := defect_of_readProblem failed
  cases defect with
  | noConstraints => exact ⟨"EmptyInputError", by simp [solverKinds], rfl⟩
  | noObjective => exact ⟨"EmptyInputError", by simp [solverKinds], rfl⟩
  | constraintFormat => exact ⟨"MalformedConstraintError", by simp [solverKinds], rfl⟩
  | rightHandSide => exact ⟨"MalformedConstraintError", by simp [solverKinds], rfl⟩
  | variableNumber found long => exact absurd (short _ found) (Nat.not_le.2 long)
  | noVariables => exact ⟨"EmptyInputError", by simp [solverKinds], rfl⟩
  | goal unknown => exact absurd unknown asked

/-- There is a solver for every program that passes the check. -/
theorem ofProgram_eq_ok {program : Program α} (checked : program.check = .ok ())
    (method : Method) (options : Options α) :
    Solver.ofProgram program method options =
      .ok ⟨program, method, options, program.start method, none⟩ := by
  rw [Solver.ofProgram, program.tableau_eq_ok checked]

/-- The run of a program that passes the check can fail in two ways only. -/
theorem solverKind?_of_report {program : Program α} {method : Method} {options : Options α}
    {failure : Failure} (checked : program.check = .ok ())
    (failed : Solver.report ⟨program, method, options, program.start method, none⟩ =
      .error failure) :
    ∃ kind ∈ solverKinds, failure.solverKind? = some kind := by
  have fits := program.check_eq_ok_iff.1 checked
  simp only [Solver.report, Tableau.solve] at failed
  cases outcome : ((program.start method).run options).outcome with
  | ok final => simp [outcome, Except.mapError] at failed
  | error error =>
    simp only [outcome, Except.mapError, Except.error.injEq] at failed
    subst failed
    cases error with
    | unbounded column => exact ⟨"UnboundedError", by simp [solverKinds], rfl⟩
    | iterationLimit pivots => exact ⟨"IterationLimitError", by simp [solverKinds], rfl⟩
    | unlabelledRow row =>
      exact absurd outcome ((fits.labelled_start method).pivots_ne_unlabelledRow _ row)

/-- A request to solve a problem given as text fails for the reason that it is not read for, or
else because of its run. -/
theorem solverKind?_of_solveText {method : Method} {options : Options α} {failure : Failure}
    (short : ∀ name ∈ mentioned objective constraints, digitCount name ≤ integerDigitLimit)
    (asked : goal ≠ none)
    (failed : solveText objective constraints goal method options = .error failure) :
    ∃ kind ∈ solverKinds, failure.solverKind? = some kind := by
  simp only [solveText, Solver.ofText] at failed
  cases read : readProblem (α := α) objective constraints goal with
  | error fault =>
    simp only [read, Except.error.injEq] at failed
    exact failed ▸ solverKind?_of_readProblem short asked read
  | ok program =>
    have checked := check_of_readProblem read
    simp only [read, ofProgram_eq_ok checked] at failed
    exact solverKind?_of_report checked failed

theorem solverKind?_of_readProgram {failure : Failure}
    (short : ∀ name ∈ mentioned objective constraints, digitCount name ≤ integerDigitLimit)
    (asked : goal ≠ none)
    (failed : readProgram (α := α) objective constraints goal = .error failure) :
    ∃ kind ∈ solverKinds, failure.solverKind? = some kind := by
  simp only [readProgram] at failed
  cases read : readProblem (α := α) objective constraints goal with
  | error fault =>
    simp only [read, Except.mapError, Except.error.injEq] at failed
    exact failed ▸ solverKind?_of_readProblem short asked read
  | ok program => simp [read, Except.mapError] at failed

/-- All that can go wrong with a request in text. The reader reports a defect of the text, and one
before which no other comes in the order of its tests, under the kind of the test; it reads exactly
the texts without defects. When no identifier has too many digits and the goal is known, the two
solving tools and the reading tool always answer, with their result or with a failure of one of four
kinds. -/
theorem textFailures_complete (objective : Option String) (constraints : List (Option String))
    (goal : Option Goal) :
    (∀ fault, readProblem (α := α) objective constraints goal = .error fault →
      Defect α objective constraints goal fault ∧
        (∀ other, Defect α objective constraints goal other → fault.rank ≤ other.rank) ∧
        (Failure.ofProblem fault).solverKind? = testKinds.getD fault.rank none) ∧
    ((∃ program : Program α, readProblem objective constraints goal = .ok program) ↔
      ∀ fault, ¬ Defect α objective constraints goal fault) ∧
    ((∀ name ∈ mentioned objective constraints, digitCount name ≤ integerDigitLimit) →
      goal ≠ none → ∀ scalar : α → Document,
        (∀ (method : Method) (options : Options α),
          Tool.AnswersInBand (Report.toDocument scalar) [("solution", .null), ("steps", .list [])]
            (solveText objective constraints goal method options)
            (Tool.reportAnswer scalar (solveText objective constraints goal method options))) ∧
        Tool.AnswersInBand (Program.toDocument scalar) []
          (readProgram objective constraints goal)
          (Tool.programAnswer scalar (readProgram objective constraints goal))) := by
  refine ⟨fun fault failed => ?_, exists_readProblem_iff, fun short asked scalar => ⟨?_, ?_⟩⟩
  · obtain ⟨defect, first⟩ := defect_of_readProblem failed
    exact ⟨defect, first, solverKind?_of_defect defect⟩
  · exact fun method options => Tool.answersInBand_answerOr _ _
      fun failure failed => solverKind?_of_solveText short asked failed
  · exact Tool.answersInBand_answerOr _ _
      fun failure failed => solverKind?_of_readProgram short asked failed

/-- A text with four defects at once: no objective, a constraint without a relation, no identifier
and no goal. -/
theorem textFailures_complete_severalDefects :
    readProblem (α := Rat) none [some " 3 < 4 "] none = .error (.program .noObjective) ∧
      Defect Rat none [some " 3 < 4 "] none (.program (.constraintFormat "3 < 4")) ∧
      Defect Rat none [some " 3 < 4 "] none (.program .noVariables) ∧
      Defect Rat none [some " 3 < 4 "] none .goal ∧
      ∀ other, Defect Rat none [some " 3 < 4 "] none other →
        (ProblemFault.program .noObjective).rank ≤ other.rank := by
  have failed : readProblem (α := Rat) none [some " 3 < 4 "] none =
      .error (.program .noObjective) := by
    decide +kernel
  obtain ⟨-, first, -⟩ := (textFailures_complete none [some " 3 < 4 "] none).1 _ failed
  have texts : presentConstraints [some " 3 < 4 "] = [] ++ "3 < 4" :: [] := by decide +kernel
  have unparted : splitRelation? "3 < 4".toList = none := by decide +kernel
  have unnamed : mentioned none [some " 3 < 4 "] = [] := by decide +kernel
  exact ⟨failed, .constraintFormat texts (by simp) unparted, .noVariables unnamed,
    .goal rfl, first⟩

end Reading

end Simplex

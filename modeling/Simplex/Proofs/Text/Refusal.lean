import Simplex.Proofs.Text.Problem

/-!
# Texts that are no problem

Several things can be wrong with a text at once. `Defect` lists them, each with the fault that it is
reported by, and `ProblemFault.rank` orders the faults as they are tested. The reader reports a
defect of the text before which no other comes (`defect_of_readProblem`), and a text without defects
is read (`exists_readProblem_iff`).
-/

namespace Simplex.Text

/-- The place of a fault in the order of the tests. Faults of coefficient lists come last, since
they are never found in texts. -/
def ProblemFault.rank : ProblemFault → Nat
  | .program .noConstraints => 0
  | .program .noObjective => 1
  | .program (.constraintFormat _) => 2
  | .program (.rightHandSide _) => 2
  | .variableNumber _ => 3
  | .program .noVariables => 4
  | .goal => 5
  | .program _ => 6

/-- The identifiers of the objective and of the constraints that are not blank. -/
def mentioned (objective : Option String) (constraints : List (Option String)) : List String :=
  (trimmed objective :: presentConstraints constraints).flatMap identifiers

/-- What can be wrong with a problem, and the fault that reports it. Of the constraints only the
first one that is refused counts, and it is quoted without the blanks at its ends. -/
inductive Defect (α : Type) [Scalar α] (objective : Option String)
    (constraints : List (Option String)) (goal : Option Goal) : ProblemFault → Prop
  | noConstraints (blank : ∀ constraint ∈ constraints, Blank (constraint.getD "").toList) :
      Defect α objective constraints goal (.program .noConstraints)
  | noObjective (blank : Blank (objective.getD "").toList) :
      Defect α objective constraints goal (.program .noObjective)
  | constraintFormat {earlier later : List String} {text : String}
      (texts : presentConstraints constraints = earlier ++ text :: later)
      (accepted : ∀ other ∈ earlier, ∃ relation : Constraint α,
        readConstraint other = .ok relation)
      (unparted : splitRelation? text.toList = none) :
      Defect α objective constraints goal (.program (.constraintFormat text))
  | rightHandSide {earlier later : List String} {text : String} {left right : List Char}
      {sense : Sense} (texts : presentConstraints constraints = earlier ++ text :: later)
      (accepted : ∀ other ∈ earlier, ∃ relation : Constraint α,
        readConstraint other = .ok relation)
      (parted : splitRelation? text.toList = some (left, sense, right))
      (unread : readFinite? (α := α) right = none) :
      Defect α objective constraints goal (.program (.rightHandSide text))
  | variableNumber {name : String} (found : name ∈ mentioned objective constraints)
      (long : integerDigitLimit < digitCount name) :
      Defect α objective constraints goal (.variableNumber (.tooLong (digitCount name)))
  | noVariables (none : mentioned objective constraints = []) :
      Defect α objective constraints goal (.program .noVariables)
  | goal (unknown : goal = none) : Defect α objective constraints goal .goal

section Tests

variable {objective : Option String} {constraints : List (Option String)}

theorem presentConstraints_eq_nil_iff :
    presentConstraints constraints = [] ↔
      ∀ constraint ∈ constraints, Blank (constraint.getD "").toList := by
  simp [presentConstraints, List.filter_eq_nil_iff, trimmed_eq_empty_iff]

theorem isVariable_of_mem_mentioned {name : String}
    (found : name ∈ mentioned objective constraints) : isVariable name.toList = true := by
  obtain ⟨text, -, member⟩ := List.mem_flatMap.1 found
  exact isVariable_of_mem_identifiers member

/-- An identifier has no number only when it has too many digits. -/
theorem eq_of_variableNumber_eq_error {name : String} {fault : IntegerFault}
    (found : name ∈ mentioned objective constraints)
    (failed : variableNumber name = .error fault) :
    integerDigitLimit < digitCount name ∧ fault = .tooLong (digitCount name) := by
  rw [variableNumber_eq (isVariable_of_mem_mentioned found)] at failed
  split_ifs at failed with long
  exact ⟨long, (Except.error.inj failed).symm⟩

/-- The variables are found when no identifier has too many digits. -/
theorem digitCount_le_of_variablesOf {names : List String}
    (read : variablesOf (trimmed objective :: presentConstraints constraints) = .ok names)
    {name : String} (found : name ∈ mentioned objective constraints) :
    digitCount name ≤ integerDigitLimit := by
  obtain ⟨number, valued⟩ := (Sorted.of_sortByNumber read).exists_number found
  rw [variableNumber_eq (isVariable_of_mem_mentioned found)] at valued
  split_ifs at valued with long
  exact Nat.not_lt.1 long

theorem variablesOf_eq_nil_iff {names : List String}
    (read : variablesOf (trimmed objective :: presentConstraints constraints) = .ok names) :
    names = [] ↔ mentioned objective constraints = [] := by
  have sorting : Sorted (mentioned objective constraints) names := .of_sortByNumber read
  simp only [List.eq_nil_iff_forall_not_mem, sorting.mem_iff]

end Tests

section Order

variable {α : Type} [Scalar α] {objective : Option String} {constraints : List (Option String)}
  {goal : Option Goal} {fault : ProblemFault}

/-- The first constraint that is refused is a defect. -/
theorem Defect.of_mapM {refusal : ProgramFault}
    (failed : (presentConstraints constraints).mapM (readConstraint (α := α)) =
      .error refusal) :
    Defect α objective constraints goal (.program refusal) ∧
      (ProblemFault.program refusal).rank = 2 := by
  obtain ⟨earlier, text, later, texts, accepted, refused⟩ := exists_first_fault failed
  rcases readConstraint_eq_error_iff.1 refused with
    ⟨unparted, rfl⟩ | ⟨left, sense, right, parted, unread, rfl⟩
  · exact ⟨.constraintFormat texts accepted unparted, rfl⟩
  · exact ⟨.rightHandSide texts accepted parted unread, rfl⟩

/-- What it means to fail a test, by the place of the test in the order. -/
def FailsTest (α : Type) [Scalar α] (objective : Option String)
    (constraints : List (Option String)) (goal : Option Goal) : Nat → Prop
  | 0 => presentConstraints constraints = []
  | 1 => trimmed objective = ""
  | 2 => ∀ relations : List (Constraint α),
    (presentConstraints constraints).mapM readConstraint ≠ .ok relations
  | 3 => ∀ names, variablesOf (trimmed objective :: presentConstraints constraints) ≠ .ok names
  | 4 => ∀ names,
    variablesOf (trimmed objective :: presentConstraints constraints) = .ok names → names = []
  | _ => goal = none

/-- A text with a defect fails the test of the fault that reports it. -/
theorem Defect.failsTest (defect : Defect α objective constraints goal fault) :
    FailsTest α objective constraints goal fault.rank := by
  have refused {earlier later : List String} {text : String} {refusal : ProgramFault}
      (texts : presentConstraints constraints = earlier ++ text :: later)
      (failed : readConstraint (α := α) text = .error refusal) (relations : List (Constraint α)) :
      (presentConstraints constraints).mapM readConstraint ≠ .ok relations := by
    intro accepted
    have listed : text ∈ presentConstraints constraints := by simp [texts]
    obtain ⟨relation, -, read⟩ := exists_output accepted listed
    rw [failed] at read
    cases read
  cases defect with
  | noConstraints blank => exact presentConstraints_eq_nil_iff.2 blank
  | noObjective blank => exact trimmed_eq_empty_iff.2 blank
  | constraintFormat texts accepted unparted =>
    exact refused texts (readConstraint_eq_error_iff.2 (.inl ⟨unparted, rfl⟩))
  | rightHandSide texts accepted parted unread =>
    exact refused texts (readConstraint_eq_error_iff.2 (.inr ⟨_, _, _, parted, unread, rfl⟩))
  | variableNumber found long =>
    exact fun names read => absurd (digitCount_le_of_variablesOf read found) (Nat.not_le.2 long)
  | noVariables none => exact fun names read => (variablesOf_eq_nil_iff read).2 none
  | goal unknown => exact unknown

/-- A text that is read passes every test. -/
theorem not_failsTest_of_readProblem {program : Program α}
    (read : readProblem objective constraints goal = .ok program) (test : Nat) :
    ¬ FailsTest α objective constraints goal test := by
  obtain ⟨present, written, relations, names, wanted, accepted, found, named, asked, -⟩ :=
    readProblem_eq_ok_iff.1 read
  match test with
  | 0 => exact present
  | 1 => exact written
  | 2 => exact fun refused => refused relations accepted
  | 3 => exact fun unnumbered => unnumbered names found
  | 4 => exact fun unnamed => named (unnamed names found)
  | _ + 5 =>
    intro unknown
    cases asked.symm.trans unknown

/-- What the reader reports is a defect, and every test before that of the fault was passed. -/
theorem defect_and_passed_of_readProblem
    (failed : readProblem (α := α) objective constraints goal = .error fault) :
    Defect α objective constraints goal fault ∧
      ∀ test < fault.rank, ¬ FailsTest α objective constraints goal test := by
  simp only [readProblem, List.isEmpty_iff, String.isEmpty_iff] at failed
  have none : ∀ test < 0, ¬ FailsTest α objective constraints goal test :=
    fun test early => absurd early (Nat.not_lt_zero test)
  by_cases missing : presentConstraints constraints = []
  · rw [if_pos missing] at failed
    obtain rfl := Except.error.inj failed
    exact ⟨.noConstraints (presentConstraints_eq_nil_iff.1 missing), none⟩
  rw [if_neg missing] at failed
  have one := Nat.forall_lt_succ_right.2 ⟨none, missing⟩
  by_cases empty : trimmed objective = ""
  · rw [if_pos empty] at failed
    obtain rfl := Except.error.inj failed
    exact ⟨.noObjective (trimmed_eq_empty_iff.1 empty), one⟩
  rw [if_neg empty] at failed
  have two := Nat.forall_lt_succ_right.2 ⟨one, empty⟩
  cases accepted : (presentConstraints constraints).mapM (readConstraint (α := α)) with
  | error refusal =>
    rw [accepted] at failed
    obtain rfl := Except.error.inj failed
    obtain ⟨reported, rank⟩ : Defect α objective constraints goal (.program refusal) ∧ _ :=
      Defect.of_mapM accepted
    exact ⟨reported, rank ▸ two⟩
  | ok relations =>
    rw [accepted] at failed
    have three := Nat.forall_lt_succ_right.2 ⟨two, fun refused => refused relations accepted⟩
    cases read : variablesOf (trimmed objective :: presentConstraints constraints) with
    | error unnumbered =>
      simp only [read] at failed
      obtain rfl := Except.error.inj failed
      obtain ⟨name, found, refused⟩ := exists_of_sortByNumber_eq_error read
      obtain ⟨long, rfl⟩ := eq_of_variableNumber_eq_error found refused
      exact ⟨.variableNumber found long, three⟩
    | ok names =>
      simp only [read] at failed
      have four := Nat.forall_lt_succ_right.2 ⟨three, fun unnumbered => unnumbered names read⟩
      by_cases unnamed : names = []
      · rw [if_pos unnamed] at failed
        obtain rfl := Except.error.inj failed
        exact ⟨.noVariables ((variablesOf_eq_nil_iff read).1 unnamed), four⟩
      rw [if_neg unnamed] at failed
      have five := Nat.forall_lt_succ_right.2 ⟨four, fun nothing => unnamed (nothing names read)⟩
      cases goal with
      | some goal => cases failed
      | none =>
        obtain rfl := Except.error.inj failed
        exact ⟨.goal rfl, five⟩

/-- The reader reports a defect before which no other comes. -/
theorem defect_of_readProblem
    (failed : readProblem (α := α) objective constraints goal = .error fault) :
    Defect α objective constraints goal fault ∧
      ∀ other, Defect α objective constraints goal other → fault.rank ≤ other.rank := by
  obtain ⟨reported, passed⟩ := defect_and_passed_of_readProblem failed
  exact ⟨reported, fun other defect =>
    Nat.not_lt.1 fun earlier => passed other.rank earlier defect.failsTest⟩

/-- A text without defects is read, and no other. -/
theorem exists_readProblem_iff :
    (∃ program : Program α, readProblem objective constraints goal = .ok program) ↔
      ∀ fault, ¬ Defect α objective constraints goal fault := by
  constructor
  · rintro ⟨program, read⟩ fault defect
    exact not_failsTest_of_readProblem read fault.rank defect.failsTest
  · intro sound
    cases read : readProblem (α := α) objective constraints goal with
    | ok program => exact ⟨program, rfl⟩
    | error fault => exact absurd (defect_of_readProblem read).1 (sound fault)

end Order

end Simplex.Text

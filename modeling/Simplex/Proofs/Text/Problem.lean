import Simplex.Proofs.Dot
import Simplex.Proofs.Feasible
import Simplex.Proofs.Text.Constraint
import Simplex.Proofs.Text.Variables
import Simplex.Text.Problem

/-!
# Problems that are read

A problem is read when each of the tests of the reader is passed: `readProblem_eq_ok_iff`. The
variables of the program are found in the whole constraints and its coefficients in the fragments
of their left sides, by different readers. `readProblem_wellFormed` says that the two agree: no
name comes from a right side, and no term is lost because its name was not found.
-/

namespace Simplex.Text

section Sums

/-- The value of an expression where its variables have the given values, term by term. -/
def expressionValue (assign : String → Rat) (expression : String) : Rat :=
  ((terms expression).map fun term => term.coefficient * assign term.name).sum

/-- What a term adds to the coefficient of a name. -/
def Term.share (term : Term) (name : String) : Rat :=
  if term.name = name then term.coefficient else 0

theorem foldl_coefficient_eq_sum (written : List Term) (name : String) (start : Rat) :
    written.foldl
      (fun sum term => if term.name = name then sum + term.coefficient else sum) start =
      start + (written.map fun term => term.share name).sum := by
  induction written generalizing start with
  | nil => simp
  | cons term written ih =>
    rw [List.foldl_cons, ih, List.map_cons, List.sum_cons, Term.share]
    split_ifs
    · exact add_assoc _ _ _
    · rw [zero_add]

/-- In exact arithmetic the coefficient of a name is a sum over all terms. -/
theorem coefficientOf_eq_sum (expression name : String) :
    coefficientOf expression name = ((terms expression).map fun term => term.share name).sum :=
  (foldl_coefficient_eq_sum _ name 0).trans (zero_add _)

theorem dot_map (names : List String) (weigh assign : String → Rat) :
    dot (names.map weigh) (names.map assign) =
      (names.map fun name => weigh name * assign name).sum := by
  induction names with
  | nil => rfl
  | cons name names ih => rw [List.map_cons, List.map_cons, dot_cons, ih]; rfl

/-- One term contributes to the column of its name and to no other. -/
theorem sum_share {names : List String} (distinct : names.Nodup) {term : Term}
    (listed : term.name ∈ names) (assign : String → Rat) :
    (names.map fun name => term.share name * assign name).sum =
      term.coefficient * assign term.name := by
  induction names with
  | nil => cases listed
  | cons name names ih =>
    obtain ⟨fresh, rest⟩ := List.nodup_cons.1 distinct
    rw [List.map_cons, List.sum_cons]
    by_cases same : term.name = name
    · -- The name does not occur again, so the other columns get nothing.
      have others : (names.map fun other => term.share other * assign other) =
          names.map fun _ => (0 : Rat) := by
        refine List.map_congr_left fun other member => ?_
        rw [Term.share, if_neg (by rintro rfl; exact fresh (same ▸ member)), zero_mul]
      rw [others, Term.share, if_pos same, same]
      simp
    · rw [Term.share, if_neg same, zero_mul, zero_add]
      exact ih rest ((List.mem_cons.1 listed).resolve_left same)

/-- Summing the terms column by column or one after the other makes no difference. -/
theorem sum_columns {names : List String} (distinct : names.Nodup) {written : List Term}
    (covered : ∀ term ∈ written, term.name ∈ names) (assign : String → Rat) :
    (names.map fun name => (written.map fun term => term.share name).sum * assign name).sum =
      (written.map fun term => term.coefficient * assign term.name).sum := by
  induction written with
  | nil => simp
  | cons term written ih =>
    obtain ⟨first, later⟩ := List.forall_mem_cons.1 covered
    simp only [List.map_cons, List.sum_cons, add_mul, List.sum_map_add]
    rw [sum_share distinct first, ih later]

/-- Laying out an expression keeps its value when no name of a term is missing. -/
theorem dot_layOut {names : List String} (distinct : names.Nodup) {expression : String}
    (covered : ∀ term ∈ terms expression, term.name ∈ names) (assign : String → Rat) :
    dot (layOut names expression) (names.map assign) = expressionValue assign expression := by
  have columns : layOut names expression =
      names.map fun name => ((terms expression).map fun term => term.share name).sum :=
    List.map_congr_left fun name _ => coefficientOf_eq_sum expression name
  rw [columns, dot_map, sum_columns distinct covered, expressionValue]

end Sums

section Reading

variable {α : Type} [Scalar α] {objective : Option String} {constraints : List (Option String)}
  {goal : Option Goal} {program : Program α}

theorem toList_trimmed (text : Option String) :
    (trimmed text).toList = trim (text.getD "").toList :=
  String.toList_ofList

theorem trimmed_eq_empty_iff {text : Option String} :
    trimmed text = "" ↔ Blank (text.getD "").toList := by
  rw [← String.toList_inj, toList_trimmed]
  exact trimBy_eq_nil_iff

theorem identifiers_trimmed (text : Option String) :
    identifiers (trimmed text) = identifiers (text.getD "") := by
  rw [identifiers, identifiers, toList_trimmed, identifiersAfter_trim]

theorem terms_trimmed (text : Option String) : terms (trimmed text) = terms (text.getD "") := by
  rw [terms, terms, toList_trimmed, fragments_trim]

/-- A problem is read when it passes every test, and it is then laid out by its variables. -/
theorem readProblem_eq_ok_iff : readProblem objective constraints goal = .ok program ↔
    presentConstraints constraints ≠ [] ∧ trimmed objective ≠ "" ∧
      ∃ relations names wanted,
        (presentConstraints constraints).mapM readConstraint = .ok relations ∧
        variablesOf (trimmed objective :: presentConstraints constraints) = .ok names ∧
        names ≠ [] ∧ goal = some wanted ∧
        programOf (trimmed objective) relations wanted names = program := by
  simp only [readProblem, List.isEmpty_iff, String.isEmpty_iff]
  by_cases missing : presentConstraints constraints = []
  · simp [missing]
  by_cases empty : trimmed objective = ""
  · simp [missing, empty]
  simp only [missing, empty, if_false, ne_eq, not_false_eq_true, true_and]
  cases (presentConstraints constraints).mapM (readConstraint (α := α)) with
  | error fault => simp
  | ok relations =>
    cases variablesOf (trimmed objective :: presentConstraints constraints) with
    | error fault => simp
    | ok names =>
      by_cases none : names = []
      · simp [none]
      · cases goal <;> simp [none]

/-- The identifiers of a problem are those of its objective and of its left sides. -/
theorem mem_mentioned_iff (objective : Option String) {relations : List (Constraint α)}
    (accepted : (presentConstraints constraints).mapM readConstraint = .ok relations)
    (name : String) :
    name ∈ (trimmed objective :: presentConstraints constraints).flatMap identifiers ↔
      name ∈ identifiers (objective.getD "") ∨
        ∃ relation ∈ relations, name ∈ identifiers relation.expression := by
  rw [List.flatMap_cons, List.mem_append, identifiers_trimmed, List.mem_flatMap]
  refine or_congr_right ⟨?_, ?_⟩
  · rintro ⟨written, inTexts, member⟩
    obtain ⟨relation, listed, readAs⟩ := exists_output accepted inTexts
    exact ⟨relation, listed, identifiers_of_readConstraint readAs ▸ member⟩
  · rintro ⟨relation, listed, member⟩
    obtain ⟨written, inTexts, readAs⟩ := exists_input accepted listed
    exact ⟨written, inTexts, (identifiers_of_readConstraint readAs).symm ▸ member⟩

/-- A program with the given objective and constraints, laid out by its variables: the identifiers
of the objective and of the left sides, once each and in the order of their numbers. -/
structure LaidOut (written : String) (relations : List (Constraint α)) (program : Program α) :
    Prop where
  objective : program.objective = layOut program.names written
  constraints : program.constraints =
    relations.map fun relation => layOut program.names relation.expression
  senses : program.senses = relations.map Constraint.sense
  rhs : program.rhs = relations.map Constraint.rhs
  names_ne_nil : program.names ≠ []
  distinct : program.names.Nodup
  ordered : ∃ numbers, program.names.mapM variableNumber = .ok numbers ∧
    numbers.Pairwise (· ≤ ·)
  mem_names_iff : ∀ name, name ∈ program.names ↔
    name ∈ identifiers written ∨ ∃ relation ∈ relations, name ∈ identifiers relation.expression

/-- What is read is laid out. -/
theorem LaidOut.of_readProblem (read : readProblem objective constraints goal = .ok program) :
    ∃ relations, presentConstraints constraints ≠ [] ∧
      (presentConstraints constraints).mapM readConstraint = .ok relations ∧
      LaidOut (objective.getD "") relations program := by
  obtain ⟨present, -, relations, names, wanted, accepted, found, named, -, rfl⟩ :=
    readProblem_eq_ok_iff.1 read
  have sorting : Sorted _ names := .of_sortByNumber found
  have row : layOut (α := α) names (trimmed objective) = layOut names (objective.getD "") :=
    List.map_congr_left fun name _ => by rw [coefficientOf, coefficientOf, terms_trimmed]
  exact ⟨relations, present, accepted, row, rfl, rfl, rfl, named, sorting.distinct,
    sorting.ordered,
    fun name => (sorting.mem_iff name).trans (mem_mentioned_iff objective accepted name)⟩

namespace LaidOut

variable {written : String} {relations : List (Constraint α)}

/-- The lists of a program that is laid out fit together. -/
theorem fits (laid : LaidOut written relations program) (some : relations ≠ []) :
    program.Fits where
  objective := by simpa [laid.objective, layOut] using laid.names_ne_nil
  constraints := by simpa [laid.constraints] using some
  names := .inr (by simp [laid.objective, layOut])
  senses := by simp [laid.senses, laid.constraints]
  rhs := by simp [laid.rhs, laid.constraints]
  rows := by simp [laid.constraints, laid.objective, layOut]

/-- Every term of the objective has its variable in the program. -/
theorem mem_names_of_objective (laid : LaidOut written relations program) {term : Term}
    (member : term ∈ terms written) : term.name ∈ program.names :=
  (laid.mem_names_iff _).2 (.inl (name_mem_identifiers member))

/-- Every term of a left side has its variable in the program. -/
theorem mem_names_of_constraint (laid : LaidOut written relations program)
    {relation : Constraint α} (listed : relation ∈ relations) {term : Term}
    (member : term ∈ terms relation.expression) : term.name ∈ program.names :=
  (laid.mem_names_iff _).2 (.inr ⟨relation, listed, name_mem_identifiers member⟩)

/-- A program of exact coefficients has the values of the expressions it was laid out from. -/
theorem dot_eq_expressionValue {program : Program Rat} {relations : List (Constraint Rat)}
    (laid : LaidOut written relations program) (assign : String → Rat) :
    dot program.objective (program.names.map assign) = expressionValue assign written ∧
      program.constraints.map (dot · (program.names.map assign)) =
        relations.map fun relation => expressionValue assign relation.expression := by
  constructor
  · rw [laid.objective]
    exact dot_layOut laid.distinct (fun _ => laid.mem_names_of_objective) assign
  · rw [laid.constraints, List.map_map]
    exact List.map_congr_left fun relation listed =>
      dot_layOut laid.distinct (fun _ => laid.mem_names_of_constraint listed) assign

end LaidOut

/-- The constraints that are read in some arithmetic are all read exactly, with the same left sides
and relations. -/
theorem exists_exact_relations {texts : List String} {relations : List (Constraint α)}
    (read : texts.mapM readConstraint = .ok relations) :
    ∃ exact : List (Constraint Rat), texts.mapM readConstraint = .ok exact ∧
      exact.map Constraint.expression = relations.map Constraint.expression ∧
      exact.map Constraint.sense = relations.map Constraint.sense := by
  simp only [mapM_eq_ok_iff] at read ⊢
  induction read with
  | nil => exact ⟨[], .nil, rfl, rfl⟩
  | @cons written relation texts relations accepted _ ih =>
    obtain ⟨rest, restRead, expressions, senses⟩ := ih
    obtain ⟨first, firstRead, expression, sense⟩ := exists_exact_of_readConstraint accepted
    exact ⟨first :: rest, .cons firstRead restRead, by simp [expression, expressions],
      by simp [sense, senses]⟩

/-- A program that is read passes the check. -/
theorem check_of_readProblem (read : readProblem objective constraints goal = .ok program) :
    program.check = .ok () := by
  obtain ⟨relations, present, accepted, laid⟩ := LaidOut.of_readProblem read
  have some : relations ≠ [] := by
    rintro rfl
    exact present (List.forall₂_nil_right_iff.1 (mapM_eq_ok_iff.1 accepted))
  exact program.check_eq_ok_iff.2 (laid.fits some)

/-- What is read in some arithmetic is read exactly, with the same variables and relations. -/
theorem exists_exact_of_readProblem {relations : List (Constraint α)}
    (read : readProblem objective constraints goal = .ok program)
    (accepted : (presentConstraints constraints).mapM readConstraint = .ok relations) :
    ∃ (exact : Program Rat) (exactRelations : List (Constraint Rat)),
      readProblem objective constraints goal = .ok exact ∧
      LaidOut (objective.getD "") exactRelations exact ∧
      exactRelations.map Constraint.expression = relations.map Constraint.expression ∧
      exact.names = program.names ∧ exact.senses = program.senses := by
  obtain ⟨present, some, others, names, wanted, again, found, named, asked, rfl⟩ :=
    readProblem_eq_ok_iff.1 read
  obtain rfl : relations = others := Except.ok.inj (accepted.symm.trans again)
  obtain ⟨exactRelations, exactRead, expressions, senses⟩ := exists_exact_relations accepted
  have readExactly : readProblem objective constraints goal =
      .ok (programOf (trimmed objective) exactRelations wanted names) :=
    readProblem_eq_ok_iff.2
      ⟨present, some, exactRelations, names, wanted, exactRead, found, named, asked, rfl⟩
  obtain ⟨same, -, sameRead, laid⟩ := LaidOut.of_readProblem readExactly
  obtain rfl : exactRelations = same := Except.ok.inj (exactRead.symm.trans sameRead)
  exact ⟨_, exactRelations, readExactly, laid, expressions, rfl, senses⟩

/-- A program that is read from any texts passes the check. It has one row, relation and bound for
each constraint that is not blank, in order. Its variables are the identifiers of the objective and
the left sides, once each, some at least, and with numbers that do not decrease; the name of every
term is one of them. No fragment that is a term is therefore lost: in exact arithmetic the objective
and the rows have the values of the terms of their texts, whatever the variables stand for. -/
theorem readProblem_wellFormed (read : readProblem objective constraints goal = .ok program) :
    program.check = .ok () ∧
    ∃ relations : List (Constraint α),
      List.Forall₂ (fun written relation => readConstraint written = .ok relation)
        (presentConstraints constraints) relations ∧
      LaidOut (objective.getD "") relations program ∧
      (∀ term ∈ terms (objective.getD ""), term.name ∈ program.names) ∧
      (∀ relation ∈ relations, ∀ term ∈ terms relation.expression, term.name ∈ program.names) ∧
      ∃ exact : Program Rat, readProblem objective constraints goal = .ok exact ∧
        exact.names = program.names ∧ exact.senses = program.senses ∧
        ∀ assign : String → Rat,
          dot exact.objective (exact.names.map assign) =
            expressionValue assign (objective.getD "") ∧
          exact.constraints.map (dot · (exact.names.map assign)) =
            relations.map fun relation => expressionValue assign relation.expression := by
  obtain ⟨relations, -, accepted, laid⟩ := LaidOut.of_readProblem read
  obtain ⟨exact, exactRelations, readExactly, exactLaid, expressions, names, senses⟩ :=
    exists_exact_of_readProblem read accepted
  refine ⟨check_of_readProblem read, relations, mapM_eq_ok_iff.1 accepted, laid,
    fun _ => laid.mem_names_of_objective, fun _ listed _ => laid.mem_names_of_constraint listed,
    exact, readExactly, names, senses, fun assign => ?_⟩
  -- The values depend on the left sides only, and those are read alike in any arithmetic.
  obtain ⟨objectiveValue, rowValues⟩ := exactLaid.dot_eq_expressionValue assign
  have values := congrArg (List.map (expressionValue assign)) expressions
  rw [List.map_map, List.map_map] at values
  exact ⟨objectiveValue, rowValues.trans values⟩

/-- What is read of texts in which two fragments are no terms and one constraint is absent. -/
def unrecognised : Program Rat where
  objective := [2, 0, -1]
  constraints := [[1 / 2, 0, 1], [0, 1, 0]]
  senses := [.atMost, .atLeast]
  rhs := [4, -10]
  goal := .maximize
  names := ["x2", "x3", "x10"]

theorem readProblem_wellFormed_unrecognised :
    readProblem (some " 2 x2 - x10 + 3y + 7") [some "x10 + .5x2 <= 4", none, some " x3 >= -1e1 "]
        (some .maximize) = .ok unrecognised ∧
      unrecognised.check = .ok () ∧
      ∀ term ∈ terms " 2 x2 - x10 + 3y + 7", term.name ∈ unrecognised.names := by
  have read : readProblem (some " 2 x2 - x10 + 3y + 7")
      [some "x10 + .5x2 <= 4", none, some " x3 >= -1e1 "] (some .maximize) =
        .ok unrecognised := by
    decide +kernel
  obtain ⟨checked, -, -, -, covered, -⟩ := readProblem_wellFormed read
  exact ⟨read, checked, covered⟩

end Reading

end Simplex.Text

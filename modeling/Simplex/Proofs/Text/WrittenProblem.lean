import Simplex.Proofs.Text.WrittenExpression

/-!
# Writing a problem and reading it

A written problem is a written expression and some written constraints, each an expression, a
relation and a number. Every written constraint is read (`readConstraint_body`), every variable has
a number, and so a written problem is read as the program that its terms add up to:
`readProblem_written`.
-/

namespace Simplex.Text

variable {α : Type} [Scalar α]

/-- A constraint as it is written: an expression, a relation and a number with an optional
sign. -/
structure WrittenConstraint where
  expression : WrittenExpression
  sense : Sense
  before : Gap
  /-- Whether the sign is a minus. -/
  sign : Option Bool
  bound : Literal
  after : Gap

namespace WrittenConstraint

/-- The text after the relation, without the blanks at its end. -/
def right (constraint : WrittenConstraint) : List Char :=
  constraint.before.chars ++ (signChars constraint.sign ++ constraint.bound.chars)

/-- A constraint without the blanks at its ends. -/
def body (constraint : WrittenConstraint) : List Char :=
  constraint.expression.body ++ constraint.sense.symbol.toList ++ constraint.right

def text (constraint : WrittenConstraint) : String :=
  String.ofList (constraint.expression.before.chars ++ constraint.body ++ constraint.after.chars)

/-- The number on the right side. -/
def rhs (constraint : WrittenConstraint) : α :=
  Scalar.ofDecimal (constraint.bound.decimal (constraint.sign == some true))

/-- What is read of a constraint. -/
def relation (constraint : WrittenConstraint) : Constraint α where
  expression := String.ofList (trim constraint.expression.body)
  sense := constraint.sense
  rhs := constraint.rhs

theorem fragments_relation (constraint : WrittenConstraint) :
    fragments (constraint.relation (α := α)).expression.toList =
      constraint.expression.terms.map WrittenTerm.core := by
  rw [relation, String.toList_ofList, fragments_trim, constraint.expression.fragments_body]

theorem isBlank_eq_false_of_mem_bound {constraint : WrittenConstraint} {char : Char}
    (member : char ∈ signChars constraint.sign ++ constraint.bound.chars) :
    isBlank char = false := by
  rcases List.mem_append.1 member with isSign | inBound
  · rcases isSign_iff.1 (isSign_of_mem_signChars isSign) with rfl | rfl <;> decide
  · exact Literal.isBlank_eq_false_of_mem_chars inBound

theorem not_mem_right (constraint : WrittenConstraint) : '=' ∉ constraint.right := by
  intro member
  simp only [right, List.mem_append] at member
  rcases member with inGap | inSign | inBound
  · exact absurd (constraint.before.blank _ inGap) (by decide)
  · exact absurd (isSign_of_mem_signChars inSign) (by decide)
  · exact absurd (Literal.isTermChar_of_mem_chars inBound) (by decide)

theorem kept_body (constraint : WrittenConstraint) : Kept isBlank constraint.body where
  first := by
    obtain ⟨lead, rest, cons, notBlank⟩ := constraint.expression.exists_body_eq_cons
    rw [body, cons]
    rintro char ⟨⟩
    exact notBlank
  last := by
    intro char last
    have nonempty := constraint.bound.chars_ne_nil
    rw [body, right, ← List.append_assoc, ← List.append_assoc, List.getLast?_append,
      List.getLast?_eq_some_getLast nonempty] at last
    obtain rfl := Option.some.inj last
    exact Literal.isBlank_eq_false_of_mem_chars (List.getLast_mem nonempty)

theorem trimmed_text (constraint : WrittenConstraint) :
    trimmed (some constraint.text) = String.ofList constraint.body := by
  rw [trimmed, Option.getD_some, text, String.toList_ofList]
  exact congrArg String.ofList
    (constraint.kept_body.trimBy_around constraint.expression.before.blank constraint.after.blank)

/-- A written constraint is read. -/
theorem readConstraint_body (constraint : WrittenConstraint)
    (finite : Scalar.Finite (constraint.rhs (α := α))) :
    readConstraint (α := α) (String.ofList constraint.body) = .ok constraint.relation := by
  have kept : Kept isBlank (signChars constraint.sign ++ constraint.bound.chars) :=
    ⟨fun _ first => isBlank_eq_false_of_mem_bound (List.mem_of_mem_head? first),
      fun _ last => isBlank_eq_false_of_mem_bound (List.mem_of_getLast? last)⟩
  have number : trim constraint.right = signChars constraint.sign ++ constraint.bound.chars :=
    (trimBy_append_left constraint.before.blank _).trans kept.trimBy_eq
  have parted := splitRelation?_append
    (fun _ => constraint.expression.isRelationStart_eq_false_of_mem_body) constraint.sense
    constraint.not_mem_right
  refine readConstraint_eq_ok_iff.2 ⟨constraint.expression.body, constraint.right, ?_, ?_, rfl⟩
  · rw [String.toList_ofList]
    exact parted
  · refine readFinite?_eq_some_iff.2 ⟨_, ?_, finite, rfl⟩
    rw [number, constraint.bound.readNumeral?_chars]

end WrittenConstraint

section Problem

variable {objective : WrittenExpression} {constraints : List WrittenConstraint}

theorem presentConstraints_written (constraints : List WrittenConstraint) :
    presentConstraints (constraints.map fun constraint => some constraint.text) =
      constraints.map fun constraint => String.ofList constraint.body := by
  have texts : (constraints.map fun constraint => some constraint.text).map trimmed =
      constraints.map fun constraint => String.ofList constraint.body := by
    rw [List.map_map]
    exact List.map_congr_left fun constraint _ => constraint.trimmed_text
  rw [presentConstraints, texts, List.filter_eq_self]
  intro text member
  obtain ⟨constraint, -, rfl⟩ := List.mem_map.1 member
  obtain ⟨lead, rest, cons, -⟩ := constraint.expression.exists_body_eq_cons
  simp [WrittenConstraint.body, cons, ← String.toList_inj]

theorem mapM_readConstraint_written
    (finite : ∀ constraint ∈ constraints, Scalar.Finite (constraint.rhs (α := α))) :
    (presentConstraints (constraints.map fun constraint => some constraint.text)).mapM
        (readConstraint (α := α)) =
      .ok (constraints.map WrittenConstraint.relation) := by
  rw [presentConstraints_written, mapM_eq_ok_iff, List.forall₂_map_left_iff,
    List.forall₂_map_right_iff, List.forall₂_same]
  exact fun constraint listed => constraint.readConstraint_body (finite constraint listed)

/-- The terms of a written problem. -/
def writtenTerms (objective : WrittenExpression) (constraints : List WrittenConstraint) :
    List WrittenTerm :=
  objective.terms ++ constraints.flatMap fun constraint => constraint.expression.terms

/-- The identifiers of a written problem are the variables of its terms. -/
theorem mem_identifiers_written (name : String) :
    (name ∈ identifiers objective.text ∨
      ∃ relation ∈ constraints.map (WrittenConstraint.relation (α := α)),
        name ∈ identifiers relation.expression) ↔
      ∃ term ∈ writtenTerms objective constraints, term.name = name := by
  have inObjective : name ∈ identifiers objective.text ↔ _ :=
    mem_identifiers_of_fragments objective.fragments_text
  have inConstraint (constraint : WrittenConstraint) :
      name ∈ identifiers (constraint.relation (α := α)).expression ↔ _ :=
    mem_identifiers_of_fragments constraint.fragments_relation
  simp only [inObjective, List.mem_map, exists_exists_and_eq_and, inConstraint, writtenTerms,
    List.mem_append, List.mem_flatMap]
  constructor
  · rintro (⟨term, listed, same⟩ | ⟨constraint, listed, term, inTerms, same⟩)
    · exact ⟨term, .inl listed, same⟩
    · exact ⟨term, .inr ⟨constraint, listed, inTerms⟩, same⟩
  · rintro ⟨term, listed | ⟨constraint, listed, inTerms⟩, same⟩
    · exact .inl ⟨term, listed, same⟩
    · exact .inr ⟨constraint, listed, term, inTerms, same⟩

/-- The variables of a written problem all have numbers, so they are found. -/
theorem exists_variablesOf_written (objective : WrittenExpression)
    (finite : ∀ constraint ∈ constraints, Scalar.Finite (constraint.rhs (α := α))) :
    ∃ names, variablesOf (trimmed (some objective.text) ::
        presentConstraints (constraints.map fun constraint => some constraint.text)) =
      .ok names ∧ names ≠ [] := by
  have mentioned (name : String) := (mem_mentioned_iff (some objective.text)
    (mapM_readConstraint_written finite) name).trans (mem_identifiers_written name)
  cases found : variablesOf (trimmed (some objective.text) ::
      presentConstraints (constraints.map fun constraint => some constraint.text)) with
  | error fault =>
    obtain ⟨name, member, failed⟩ := exists_of_sortByNumber_eq_error found
    obtain ⟨term, -, rfl⟩ := (mentioned name).1 member
    rw [term.variableNumber_name] at failed
    cases failed
  | ok names =>
    have first : objective.first ∈ writtenTerms objective constraints :=
      List.mem_append_left _ List.mem_cons_self
    have named := ((Sorted.of_sortByNumber found).mem_iff _).2
      ((mentioned _).2 ⟨objective.first, first, rfl⟩)
    exact ⟨names, rfl, List.ne_nil_of_mem named⟩

/-- A written problem passes every test of the reader. -/
theorem exists_readProblem_written (objective : WrittenExpression) (nonempty : constraints ≠ [])
    (goal : Goal)
    (finite : ∀ constraint ∈ constraints, Scalar.Finite (constraint.rhs (α := α))) :
    ∃ names, readProblem (some objective.text)
        (constraints.map fun constraint => some constraint.text) (some goal) =
      .ok (programOf (trimmed (some objective.text))
        (constraints.map WrittenConstraint.relation) goal names : Program α) := by
  obtain ⟨names, found, named⟩ := exists_variablesOf_written objective finite
  refine ⟨names, readProblem_eq_ok_iff.2 ⟨?_, objective.trimmed_text_ne_empty, _, names, goal,
    mapM_readConstraint_written finite, found, named, rfl, rfl⟩⟩
  simpa [presentConstraints_written] using nonempty

/-- Names that ascend by their numbers are named by an ascending list of numbers. -/
theorem exists_indices {names : List String} (distinct : names.Nodup)
    (ordered : ∃ numbers, names.mapM variableNumber = .ok numbers ∧ numbers.Pairwise (· ≤ ·))
    (written : ∀ name ∈ names, ∃ term : WrittenTerm, term.name = name) :
    ∃ indices : List Nat, indices.Pairwise (· < ·) ∧
      names = indices.map fun index => s!"x{index}" := by
  obtain ⟨numbers, read, ascending⟩ := ordered
  have labels : names = (numbers.map Int.toNat).map fun index => s!"x{index}" := by
    rw [← List.forall₂_eq_eq_eq, List.map_map, List.forall₂_map_right_iff]
    refine ((List.forall₂_and_left _ _).2 ⟨written, mapM_eq_ok_iff.1 read⟩).imp ?_
    rintro name number ⟨⟨term, rfl⟩, valued⟩
    rw [term.variableNumber_name, Except.ok.injEq] at valued
    rw [← valued]
    rfl
  -- Equal numbers would make equal names, so the order is strict.
  have weak : (numbers.map Int.toNat).Pairwise (· ≤ ·) :=
    List.pairwise_map.2 (ascending.imp Int.toNat_le_toNat)
  have different : (numbers.map Int.toNat).Nodup := (labels ▸ distinct).of_map _
  exact ⟨numbers.map Int.toNat, (weak.and different).imp fun ⟨le, ne⟩ => lt_of_le_of_ne le ne,
    labels⟩

/-- A problem of written terms is read whatever blanks stand between its tokens, as long as the
numbers on its right sides are finite scalars. Its variables are those of its terms, once each and
in ascending order; the coefficient of a variable is the sum from the left of what its terms give
to it; and the relations and the right sides are the written ones, in order. -/
theorem readProblem_written (objective : WrittenExpression) (constraints : List WrittenConstraint)
    (nonempty : constraints ≠ []) (goal : Goal)
    (finite : ∀ constraint ∈ constraints, Scalar.Finite (constraint.rhs (α := α))) :
    ∃ indices : List Nat, indices.Pairwise (· < ·) ∧
      (∀ index, index ∈ indices ↔
        ∃ term ∈ writtenTerms objective constraints, term.index = index) ∧
      readProblem (α := α) (some objective.text)
          (constraints.map fun constraint => some constraint.text) (some goal) =
        .ok {
          objective := indices.map objective.coefficient
          constraints := constraints.map fun constraint =>
            indices.map constraint.expression.coefficient
          senses := constraints.map WrittenConstraint.sense
          rhs := constraints.map WrittenConstraint.rhs
          goal := goal
          names := indices.map fun index => s!"x{index}" } := by
  obtain ⟨names, read⟩ := exists_readProblem_written objective nonempty goal finite
  obtain ⟨relations, -, accepted, laid⟩ := LaidOut.of_readProblem read
  obtain rfl : constraints.map WrittenConstraint.relation = relations :=
    Except.ok.inj ((mapM_readConstraint_written finite).symm.trans accepted)
  have mem (name : String) : name ∈ names ↔
      ∃ term ∈ writtenTerms objective constraints, term.name = name :=
    (laid.mem_names_iff name).trans (mem_identifiers_written name)
  obtain ⟨indices, ascending, labels⟩ := exists_indices laid.distinct laid.ordered
    fun name listed => by
      obtain ⟨term, -, same⟩ := (mem name).1 listed
      exact ⟨term, same⟩
  change names = _ at labels
  subst labels
  refine ⟨indices, ascending, fun index => ?_, ?_⟩
  · have listed : index ∈ indices ↔ s!"x{index}" ∈ indices.map fun index => s!"x{index}" :=
      (List.mem_map_of_injective fun _ _ same => (numberedName_inj rfl same).2).symm
    rw [listed, mem]
    simp only [WrittenTerm.name_eq_iff]
  · refine read.trans (congrArg Except.ok ?_)
    rw [programOf, Program.mk.injEq]
    refine ⟨laid.objective.trans (layOut_of_fragments objective.fragments_text indices),
      ?_, List.map_map, List.map_map, rfl, rfl⟩
    rw [List.map_map]
    exact List.map_congr_left fun constraint _ =>
      layOut_of_fragments constraint.fragments_relation indices

/-- A single space. -/
def Gap.space : Gap := ⟨[' '], List.forall_mem_singleton.2 (by decide)⟩

/-- An objective with a digit of another script and a variable that is mentioned twice. -/
def spacedObjective : WrittenExpression where
  before := Gap.empty
  first := ⟨none, none, none, 2, Gap.space, by decide, by decide⟩
  further :=
    [⟨some (true, Gap.space), some (⟨['1'], some ['5'], by simp; decide, by decide⟩, Gap.space),
        some Gap.space, 1, Gap.space, by decide, by decide⟩,
      ⟨some (false, Gap.empty), some (⟨['\u0663'], none, by simp; decide, by decide⟩, Gap.empty),
        none, 2, Gap.empty, by decide, by decide⟩]
  signed := by simp

/-- A lower bound on a variable that the objective does not mention. -/
def spacedConstraint : WrittenConstraint where
  expression := ⟨Gap.empty, ⟨none, none, none, 10, Gap.empty, by decide, by decide⟩, [], by simp⟩
  sense := .atLeast
  before := Gap.space
  sign := some true
  bound := ⟨[], some ['5'], by simp; decide, by decide⟩
  after := Gap.empty

theorem readProblem_written_spaced :
    spacedObjective.text = "x2 - 1.5 * x1 +\u0663x2" ∧ spacedConstraint.text = "x10>= -.5" ∧
      [spacedConstraint] ≠ [] ∧
      (∀ constraint ∈ [spacedConstraint], Scalar.Finite (constraint.rhs (α := Rat))) ∧
      ∃ indices : List Nat, indices.Pairwise (· < ·) ∧
        (∀ index, index ∈ indices ↔ index = 2 ∨ index = 1 ∨ index = 2 ∨ index = 10) ∧
        readProblem (α := Rat) (some spacedObjective.text) [some spacedConstraint.text]
            (some .minimize) =
          .ok {
            objective := indices.map spacedObjective.coefficient
            constraints := [indices.map spacedConstraint.expression.coefficient]
            senses := [.atLeast]
            rhs := [spacedConstraint.rhs]
            goal := .minimize
            names := indices.map fun index => s!"x{index}" } := by
  have nonempty : [spacedConstraint] ≠ [] := List.cons_ne_nil _ _
  have finite : ∀ constraint ∈ [spacedConstraint],
      Scalar.Finite (constraint.rhs (α := Rat)) := fun _ _ => finite_rat _
  obtain ⟨indices, ascending, mem, read⟩ :=
    readProblem_written spacedObjective [spacedConstraint] nonempty .minimize finite
  refine ⟨by decide +kernel, by decide +kernel, nonempty, finite, indices, ascending,
    fun index => (mem index).trans ?_, read⟩
  simp [writtenTerms, spacedObjective, spacedConstraint, WrittenExpression.terms, eq_comm]

end Problem

end Simplex.Text

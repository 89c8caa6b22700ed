import Simplex.Proofs.Text.Refusal

/-!
# The layout of a problem

What a problem is read as does not depend on how its text is laid out. Blanks at the ends of its
texts and constraints of blanks only are not seen (`readProblem_respaced`). Constraints in another
order give the same rows in that order: every row is read from its constraint and the variables
alone, and the variables are sorted by numbers that no two of them share, so it makes no difference
where they were found (`sortByNumber_congr`).
-/

namespace Simplex.Text

section Blanks

/-- A text with blanks added at its ends, or no text. -/
inductive Padded : Option String → Option String → Prop
  | absent : Padded none none
  | around {front back : List Char} (before : Blank front) (after : Blank back) (text : String) :
      Padded (some text) (some (String.ofList (front ++ text.toList ++ back)))

/-- A list of constraints with blanks added at their ends and blank constraints put in anywhere. -/
inductive Respaced : List (Option String) → List (Option String) → Prop
  | nil : Respaced [] []
  | blank {constraints respaced : List (Option String)} {constraint : Option String}
      (blank : Blank (constraint.getD "").toList) (rest : Respaced constraints respaced) :
      Respaced constraints (constraint :: respaced)
  | padded {constraints respaced : List (Option String)} {constraint padded : Option String}
      (padding : Padded constraint padded) (rest : Respaced constraints respaced) :
      Respaced (constraint :: constraints) (padded :: respaced)

variable {objective padded : Option String} {constraints respaced : List (Option String)}

theorem Padded.trimmed_eq (padding : Padded objective padded) :
    trimmed padded = trimmed objective := by
  cases padding with
  | absent => rfl
  | @around front back before after text =>
    rw [trimmed, trimmed, Option.getD_some, Option.getD_some, String.toList_ofList, trim,
      trimBy_append_right after, trimBy_append_left before, trim]

theorem Respaced.presentConstraints_eq (spacing : Respaced constraints respaced) :
    presentConstraints respaced = presentConstraints constraints := by
  unfold presentConstraints
  induction spacing with
  | nil => rfl
  | blank blank rest ih =>
    rw [List.map_cons, List.filter_cons_of_neg (by simp [trimmed_eq_empty_iff.2 blank]), ih]
  | padded padding rest ih =>
    rw [List.map_cons, List.map_cons, padding.trimmed_eq, List.filter_cons, List.filter_cons, ih]

/-- Blanks around the texts of a problem are not seen. -/
theorem readProblem_respaced {α : Type} [Scalar α] (padding : Padded objective padded)
    (spacing : Respaced constraints respaced) (goal : Option Goal) :
    readProblem (α := α) padded respaced goal = readProblem objective constraints goal := by
  rw [readProblem, readProblem, padding.trimmed_eq, spacing.presentConstraints_eq]

end Blanks

section Order

variable {α : Type} [Scalar α] {objective : Option String}
  {constraints permuted : List (Option String)} {goal : Option Goal} {program : Program α}

/-- A row of a program: the coefficients of a constraint, its relation and its right side. -/
structure Row (α : Type) where
  coefficients : List α
  sense : Sense
  rhs : α

/-- The row that a constraint gives to a program with the given variables; a blank one gives
none. -/
def rowOf (names : List String) (constraint : Option String) : Option (Row α) :=
  (readConstraint (trimmed constraint)).toOption.map fun relation =>
    ⟨layOut names relation.expression, relation.sense, relation.rhs⟩

/-- The program with other rows. -/
def withRows (program : Program α) (rows : List (Row α)) : Program α :=
  { program with
    constraints := rows.map Row.coefficients
    senses := rows.map Row.sense
    rhs := rows.map Row.rhs }

/-- The rows of a list of constraints are those of the constraints that are not blank. -/
theorem filterMap_rowOf (names : List String) (constraints : List (Option String)) :
    constraints.filterMap (rowOf (α := α) names) =
      ((presentConstraints constraints).filterMap fun text => (readConstraint text).toOption).map
        fun relation => ⟨layOut names relation.expression, relation.sense, relation.rhs⟩ := by
  rw [presentConstraints, List.map_filterMap, List.filterMap_filter, List.filterMap_map]
  refine List.filterMap_congr fun constraint _ => ?_
  simp only [Function.comp, rowOf]
  split_ifs with present
  · rfl
  · have empty : trimmed constraint = "" := by simpa using present
    rw [empty]
    rfl

/-- Programs that are laid out alike differ in their rows only. -/
theorem withRows_programOf {relations others : List (Constraint α)}
    (accepted : (presentConstraints constraints).mapM readConstraint = .ok relations)
    (written : String) (wanted : Goal) (names : List String) :
    withRows (programOf written others wanted names) (constraints.filterMap (rowOf names)) =
      programOf written relations wanted names := by
  rw [filterMap_rowOf, filterMap_of_mapM_eq_ok accepted]
  simp [withRows, programOf, Function.comp_def]

theorem mem_presentConstraints_iff (perm : permuted.Perm constraints) (text : String) :
    text ∈ presentConstraints permuted ↔ text ∈ presentConstraints constraints :=
  ((perm.map trimmed).filter _).mem_iff

theorem mem_mentioned_iff_of_perm (perm : permuted.Perm constraints) (name : String) :
    name ∈ mentioned objective permuted ↔ name ∈ mentioned objective constraints := by
  simp only [mentioned, List.flatMap_cons, List.mem_append, List.mem_flatMap,
    mem_presentConstraints_iff perm]

/-- Constraints in another order are read as the same rows in that order. -/
theorem readProblem_permuted (read : readProblem objective constraints goal = .ok program)
    (distinct : ∀ first ∈ mentioned objective constraints,
      ∀ second ∈ mentioned objective constraints,
        variableNumber first = variableNumber second → first = second)
    (perm : permuted.Perm constraints) :
    readProblem objective permuted goal =
      .ok (withRows program (permuted.filterMap (rowOf program.names))) := by
  obtain ⟨present, written, relations, names, wanted, accepted, found, named, asked, rfl⟩ :=
    readProblem_eq_ok_iff.1 read
  have again := mapM_eq_ok_filterMap accepted fun text => (mem_presentConstraints_iff perm text).1
  refine readProblem_eq_ok_iff.2 ⟨fun empty => present ?_, written, _, names, wanted, again, ?_,
    named, asked, (withRows_programOf again _ wanted names).symm⟩
  · rw [List.eq_nil_iff_forall_not_mem] at empty ⊢
    exact fun text listed => empty text ((mem_presentConstraints_iff perm text).2 listed)
  · exact sortByNumber_congr found (mem_mentioned_iff_of_perm perm) distinct

/-- The layout of a text makes no difference to the problem that is read of it, if no two of its
identifiers share a number. Blank constraints anywhere, and blanks at the ends of the objective and
of the constraints, give the same program. Every constraint that is not blank gives one row, which
is read of this constraint and of the variables alone; so the constraints in another order give the
program that differs in the order of its rows only, and that in the same way. -/
theorem readProblem_layout (read : readProblem objective constraints goal = .ok program)
    (distinct : ∀ first ∈ mentioned objective constraints,
      ∀ second ∈ mentioned objective constraints,
        variableNumber first = variableNumber second → first = second) :
    (∀ padded respaced, Padded objective padded → Respaced constraints respaced →
      readProblem padded respaced goal = .ok program) ∧
    (∀ constraint ∈ constraints, (rowOf (α := α) program.names constraint).isSome ↔
      ¬ Blank (constraint.getD "").toList) ∧
    program = withRows program (constraints.filterMap (rowOf program.names)) ∧
    ∀ permuted, permuted.Perm constraints → readProblem objective permuted goal =
      .ok (withRows program (permuted.filterMap (rowOf program.names))) := by
  refine ⟨fun padded respaced padding spacing => ?_, fun constraint listed => ?_, ?_,
    fun permuted perm => readProblem_permuted read distinct perm⟩
  · rw [readProblem_respaced padding spacing, read]
  · rw [← trimmed_eq_empty_iff]
    constructor
    · intro given empty
      rw [rowOf, empty] at given
      cases given
    · intro present
      obtain ⟨-, -, relations, names, wanted, accepted, -⟩ := readProblem_eq_ok_iff.1 read
      have member : trimmed constraint ∈ presentConstraints constraints :=
        List.mem_filter.2 ⟨List.mem_map_of_mem listed, by simpa using present⟩
      obtain ⟨relation, -, accepts⟩ := exists_output accepted member
      rw [rowOf, accepts]
      rfl
  · have same := readProblem_permuted read distinct (.refl constraints)
    exact Except.ok.inj (read.symm.trans same)

/-- A program whose variables appear in another order than that of their numbers. -/
def lateFirst : Program Rat where
  objective := [0, 2, 1]
  constraints := [[1, 0, 0], [0, 0, 1]]
  senses := [.atMost, .atLeast]
  rhs := [4, 1]
  goal := .maximize
  names := ["x1", "x2", "x10"]

theorem readProblem_layout_lateFirst :
    readProblem (some "x10 + 2x2") [some "x1 <= 4", none, some " x10 >= 1"] (some .maximize) =
        .ok lateFirst ∧
      readProblem (some "\tx10 + 2x2 ") [some "  ", some "x1 <= 4 ", none, some " x10 >= 1"]
        (some .maximize) = .ok lateFirst ∧
      readProblem (some "x10 + 2x2") [some " x10 >= 1", some "x1 <= 4", none] (some .maximize) =
        .ok { lateFirst with
          constraints := [[0, 0, 1], [1, 0, 0]]
          senses := [.atLeast, .atMost]
          rhs := [1, 4] } := by
  have read : readProblem (some "x10 + 2x2") [some "x1 <= 4", none, some " x10 >= 1"]
      (some .maximize) = .ok lateFirst := by
    decide +kernel
  have distinct :
      ∀ first ∈ mentioned (some "x10 + 2x2") [some "x1 <= 4", none, some " x10 >= 1"],
        ∀ second ∈ mentioned (some "x10 + 2x2") [some "x1 <= 4", none, some " x10 >= 1"],
          variableNumber first = variableNumber second → first = second := by
    decide +kernel
  obtain ⟨layout, -, -, order⟩ := readProblem_layout read distinct
  have blank {text : List Char} (all : text.all isBlank = true) : Blank text :=
    List.all_eq_true.1 all
  have nothing : Blank [] := blank rfl
  have space : Blank [' '] := blank (by decide)
  have objective : Padded (some "x10 + 2x2") (some "\tx10 + 2x2 ") :=
    .around (blank (by decide : ['\t'].all isBlank = true)) space "x10 + 2x2"
  have constraints : Respaced [some "x1 <= 4", none, some " x10 >= 1"]
      [some "  ", some "x1 <= 4 ", none, some " x10 >= 1"] := by
    refine .blank (blank (by decide +kernel)) (.padded ?_ (.padded .absent (.padded ?_ .nil)))
    · exact .around nothing space "x1 <= 4"
    · exact .around nothing nothing " x10 >= 1"
  refine ⟨read, layout _ _ objective constraints, ?_⟩
  rw [order [some " x10 >= 1", some "x1 <= 4", none] (by decide)]
  decide +kernel

end Order

end Simplex.Text

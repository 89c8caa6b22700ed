import Simplex.Proofs.FiniteDouble
import Simplex.Proofs.Text.Constraint
import Simplex.Service.Failure

/-!
# Texts with one equals sign

Every symbol of a relation ends in an equals sign and holds no other, so a text has exactly one
relation when it has exactly one equals sign, and the character before that sign says which. A
constraint is therefore read when it is parted by a single equals sign with a finite number after
it: `readConstraint_singleEquals`.
-/

namespace Simplex.Text

section Parting

variable {text before after : List Char}

/-- A text that one equals sign parts. -/
structure SingleEquals (text before after : List Char) : Prop where
  parts : text = before ++ '=' :: after
  before : '=' ∉ before
  after : '=' ∉ after

theorem SingleEquals.count (single : SingleEquals text before after) : text.count '=' = 1 := by
  rw [single.parts, List.count_append, List.count_cons_self,
    List.count_eq_zero.2 single.before, List.count_eq_zero.2 single.after]

/-- A text is parted by one equals sign when it has exactly one. -/
theorem exists_singleEquals_iff :
    (∃ before after, SingleEquals text before after) ↔ text.count '=' = 1 := by
  refine ⟨fun ⟨_, _, single⟩ => single.count, fun one => ?_⟩
  have present : '=' ∈ text := List.count_pos_iff.1 (by omega)
  obtain ⟨before, after, parts⟩ := List.append_of_mem present
  rw [parts, List.count_append, List.count_cons_self] at one
  exact ⟨before, after, parts, List.count_eq_zero.1 (by omega), List.count_eq_zero.1 (by omega)⟩

end Parting

section Relation

variable {text before after left right : List Char} {sense : Sense}

/-- The text before the symbol that an equals sign ends, and the relation of that symbol, given the
text before the equals sign. -/
def relationBefore (before : List Char) : List Char × Sense :=
  match before.getLast? with
  | some '<' => (before.dropLast, .atMost)
  | some '>' => (before.dropLast, .atLeast)
  | _ => (before, .equal)

/-- Only the last character before the equals sign counts. -/
theorem relationBefore_cons_cons (first second : Char) (rest : List Char) :
    relationBefore (first :: second :: rest) =
      (first :: (relationBefore (second :: rest)).1, (relationBefore (second :: rest)).2) := by
  unfold relationBefore
  rw [List.getLast?_cons_cons, List.dropLast_cons_cons]
  split <;> rfl

theorem relationBefore_subset (before : List Char) : (relationBefore before).1 ⊆ before := by
  unfold relationBefore
  split
  · exact before.dropLast_subset
  · exact before.dropLast_subset
  · exact List.Subset.refl _

/-- The first relation of a text ends in the first equals sign. -/
theorem cutAtRelation?_append_equals (absent : '=' ∉ before) (after : List Char) :
    cutAtRelation? (before ++ '=' :: after) =
      some ((relationBefore before).1, (relationBefore before).2, after) := by
  induction before with
  | nil => rfl
  | cons first before ih =>
    have later := ih (List.not_mem_of_not_mem_cons absent)
    have different : first ≠ '=' := fun equal => absent (equal ▸ List.mem_cons_self)
    cases before with
    | nil =>
      by_cases less : first = '<'
      · rw [less]
        rfl
      by_cases greater : first = '>'
      · rw [greater]
        rfl
      have plain : isRelationStart first = false := by
        simp [isRelationStart, less, greater, different]
      rw [List.cons_append, cutAtRelation?_cons plain, later]
      simp [relationBefore, less, greater]
    | cons second before =>
      have unequal : second ≠ '=' := fun equal => absent (by simp [equal])
      rw [List.cons_append, List.cons_append, cutAtRelation?, ← List.cons_append, later,
        relationBefore_cons_cons]
      · rfl
      · rintro rest - ⟨⟩
        exact unequal rfl
      · rintro rest - ⟨⟩
        exact unequal rfl
      · exact different

theorem equals_mem_symbol (sense : Sense) : '=' ∈ sense.symbol.toList := by
  cases sense <;> simp [Sense.symbol]

/-- A text is parted around its relation when it has exactly one equals sign. -/
theorem splitRelation?_eq_some_iff : splitRelation? text = some (left, sense, right) ↔
    ∃ before, SingleEquals text before right ∧ relationBefore before = (left, sense) := by
  constructor
  · intro found
    obtain ⟨split, single⟩ := eq_append_of_splitRelation? found
    have present : '=' ∈ text := by simp [split, equals_mem_symbol]
    obtain ⟨before, after, parts, first⟩ := List.eq_append_cons_of_mem present
    have cut := cutAtRelation?_of_splitRelation? found
    rw [parts, cutAtRelation?_append_equals first, Option.some.injEq, Prod.mk.injEq,
      Prod.mk.injEq] at cut
    obtain ⟨rfl, rfl, rfl⟩ := cut
    exact ⟨before, ⟨parts, first, single⟩, rfl⟩
  · rintro ⟨before, ⟨rfl, first, single⟩, parts⟩
    rw [splitRelation?_eq_filter, cutAtRelation?_append_equals first, parts]
    simpa using single

/-- A text is not parted when it has no equals sign or several. -/
theorem splitRelation?_eq_none_iff : splitRelation? text = none ↔ text.count '=' ≠ 1 := by
  rw [Ne, ← exists_singleEquals_iff, Option.eq_none_iff_forall_ne_some]
  constructor
  · rintro unparted ⟨before, after, single⟩
    exact unparted _ (splitRelation?_eq_some_iff.2 ⟨before, single, rfl⟩)
  · rintro several ⟨left, sense, right⟩ parted
    obtain ⟨before, single, -⟩ := splitRelation?_eq_some_iff.1 parted
    exact several ⟨before, right, single⟩

end Relation

section Number

variable {text : List Char} {value : Float}

/-- The text without its blanks is a number that the double stands for, and that is finite. -/
def DenotesFinite (text : List Char) (value : Float) : Prop :=
  ∃ numeral, readNumeral? digitValue? (trim text) = some numeral ∧ numeral.toFloat = value ∧
    value.isFinite = true

/-- Words denote no finite double. -/
theorem exists_finite_of_isFinite {numeral : Numeral} (finite : numeral.toFloat.isFinite = true) :
    ∃ decimal, numeral = .finite decimal := by
  match numeral with
  | .finite decimal => exact ⟨decimal, rfl⟩
  | .infinite true => exact absurd finite (by decide +kernel)
  | .infinite false => exact absurd finite (by decide +kernel)
  | .notANumber => exact absurd finite (by decide +kernel)

theorem readFinite?_eq_some_iff_denotesFinite :
    readFinite? text = some value ↔ DenotesFinite text value := by
  rw [readFinite?_eq_some_iff]
  constructor
  · rintro ⟨decimal, read, finite, denotes⟩
    exact ⟨_, read, denotes, Double.finite_iff_isFinite.1 finite⟩
  · rintro ⟨numeral, read, denotes, finite⟩
    obtain ⟨decimal, rfl⟩ := exists_finite_of_isFinite (denotes ▸ finite)
    exact ⟨decimal, read, Double.finite_iff_isFinite.2 finite, denotes⟩

end Number

section Decision

variable {written : String} {relation : Constraint Float} {fault : ProgramFault}

/-- How a text is read that one equals sign parts, with a finite number after it. -/
structure ReadsAround (written : String) (before after : List Char)
    (relation : Constraint Float) : Prop where
  single : SingleEquals written.toList before after
  rhs : DenotesFinite after relation.rhs
  expression : relation.expression = String.ofList (trim (relationBefore before).1)
  sense : relation.sense = (relationBefore before).2

theorem readConstraint_eq_ok_iff_readsAround : readConstraint written = .ok relation ↔
    ∃ before after, ReadsAround written before after relation := by
  rw [readConstraint_eq_ok_iff]
  constructor
  · rintro ⟨left, right, parted, bound, expression⟩
    obtain ⟨before, single, parts⟩ := splitRelation?_eq_some_iff.1 parted
    exact ⟨before, right, single, readFinite?_eq_some_iff_denotesFinite.1 bound,
      by rw [parts, expression], by rw [parts]⟩
  · rintro ⟨before, after, single, bound, expression, sense⟩
    have parts : relationBefore before = ((relationBefore before).1, relation.sense) :=
      Prod.ext rfl sense.symm
    have parted := splitRelation?_eq_some_iff.2 ⟨before, single, parts⟩
    exact ⟨_, after, parted, readFinite?_eq_some_iff_denotesFinite.2 bound, expression⟩

/-- The left side that is read holds no equals sign. -/
theorem ReadsAround.equals_not_mem {before after : List Char}
    (reads : ReadsAround written before after relation) :
    '=' ∉ relation.expression.toList := by
  rw [reads.expression, String.toList_ofList]
  intro member
  obtain ⟨front, back, -, -, split⟩ := exists_around_trimBy isBlank (relationBefore before).1
  have inLeft : '=' ∈ (relationBefore before).1 := by
    rw [split]
    exact List.mem_append_left _ (List.mem_append_right _ member)
  exact reads.single.before (relationBefore_subset before inLeft)

theorem readFinite?_eq_none_iff {text : List Char} :
    readFinite? (α := Float) text = none ↔ ¬ ∃ value, DenotesFinite text value := by
  rw [Option.eq_none_iff_forall_ne_some, not_exists]
  exact forall_congr' fun value => not_congr readFinite?_eq_some_iff_denotesFinite

/-- A text without exactly one equals sign is refused for its format, and one without a finite
number after it for its right side. -/
theorem readConstraint_eq_error_iff_count : readConstraint (α := Float) written = .error fault ↔
    (written.toList.count '=' ≠ 1 ∧ fault = .constraintFormat written) ∨
    ((∃ before after, SingleEquals written.toList before after ∧
      ¬ ∃ value, DenotesFinite after value) ∧ fault = .rightHandSide written) := by
  rw [readConstraint_eq_error_iff, splitRelation?_eq_none_iff]
  refine or_congr_right ⟨?_, ?_⟩
  · rintro ⟨left, sense, right, parted, unread, reported⟩
    obtain ⟨before, single, -⟩ := splitRelation?_eq_some_iff.1 parted
    exact ⟨⟨before, right, single, readFinite?_eq_none_iff.1 unread⟩, reported⟩
  · rintro ⟨⟨before, after, single, unread⟩, reported⟩
    exact ⟨_, _, after, splitRelation?_eq_some_iff.2 ⟨before, single, rfl⟩,
      readFinite?_eq_none_iff.2 unread, reported⟩

/-- A constraint is read exactly if it has one equals sign and the text after that sign denotes a
finite double, which is then the right side. The character before the sign makes the relation one
of less or more, and what is before the symbol, without the blanks at its ends, is the left side,
which has no equals sign. Any other text is refused, and always as a malformed constraint. -/
theorem readConstraint_singleEquals (written : String) :
    ((∃ relation : Constraint Float, readConstraint written = .ok relation) ↔
      written.toList.count '=' = 1 ∧ ∃ before after value,
        SingleEquals written.toList before after ∧ DenotesFinite after value) ∧
    (∀ relation : Constraint Float, readConstraint written = .ok relation →
      (∃ before after, ReadsAround written before after relation) ∧
        '=' ∉ relation.expression.toList) ∧
    ∀ fault, readConstraint (α := Float) written = .error fault →
      ((written.toList.count '=' ≠ 1 ∧ fault = .constraintFormat written) ∨
        ((∃ before after, SingleEquals written.toList before after ∧
          ¬ ∃ value, DenotesFinite after value) ∧ fault = .rightHandSide written)) ∧
      (Failure.program fault).solverKind? = some "MalformedConstraintError" := by
  refine ⟨⟨?_, ?_⟩, fun relation read => ?_, fun fault failed => ?_⟩
  · rintro ⟨relation, read⟩
    obtain ⟨before, after, reads⟩ := readConstraint_eq_ok_iff_readsAround.1 read
    exact ⟨reads.single.count, before, after, relation.rhs, reads.single, reads.rhs⟩
  · rintro ⟨-, before, after, value, single, denotes⟩
    exact ⟨⟨_, _, value⟩, readConstraint_eq_ok_iff_readsAround.2
      ⟨before, after, single, denotes, rfl, rfl⟩⟩
  · obtain ⟨before, after, reads⟩ := readConstraint_eq_ok_iff_readsAround.1 read
    exact ⟨⟨before, after, reads⟩, reads.equals_not_mem⟩
  · have reason := readConstraint_eq_error_iff_count.1 failed
    refine ⟨reason, ?_⟩
    rcases reason with ⟨-, rfl⟩ | ⟨-, rfl⟩ <;> rfl

/-- Where symbols seem to overlap, the one with an equals sign counts. -/
example : splitRelation? "x1 <>= 2".toList =
    some ("x1 <".toList, .atLeast, " 2".toList) := by
  decide +kernel

end Decision

end Simplex.Text

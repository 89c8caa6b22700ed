import Simplex.Proofs.Text.Expression

/-!
# Identifiers in an expression

What is looked for in a text depends on the text before it through one question only: whether that
ends in a character that keeps an `x` from beginning an identifier. Identifiers are therefore found
piece by piece wherever a text is parted before a character that does not continue a word, and
the identifiers of an expression are those of its fragments: `identifiersAfter_eq_fragments`.
Every fragment that is a term holds one identifier, the name of the term, so a term is never
missed: `name_mem_identifiers`.
-/

namespace Simplex.Text

variable {before other : Option Char} {text rest front back name : List Char}

section Parting

theorem identifiersAfter_cons (before : Option Char) (char : Char) (rest : List Char) :
    identifiersAfter before (char :: rest) =
      (identifierAt? before (char :: rest)).toList ++ identifiersAfter (some char) rest :=
  rfl

theorem identifierAt?_of_ne {char : Char} (different : char ≠ 'x') :
    identifierAt? before (char :: rest) = none := by
  simp [identifierAt?, different]

/-- Of the text before only its last character counts, and of that only whether it may belong to
an identifier. -/
theorem identifiersAfter_congr
    (same : before.any isIdentifierStart = other.any isIdentifierStart) (text : List Char) :
    identifiersAfter before text = identifiersAfter other text := by
  cases text with
  | nil => rfl
  | cons char rest =>
    have first : identifierAt? before (char :: rest) = identifierAt? other (char :: rest) := by
      unfold identifierAt?
      split
      · rw [same]
      · rfl
    rw [identifiersAfter_cons, identifiersAfter_cons, first]

theorem identifiersAfter_append_of_absent (absent : 'x' ∉ front) (before : Option Char)
    (rest : List Char) : identifiersAfter before (front ++ rest) =
      identifiersAfter (front.getLast?.or before) rest := by
  induction front generalizing before with
  | nil => rfl
  | cons char front ih =>
    have different : char ≠ 'x' := fun equal => absent (equal ▸ List.mem_cons_self)
    have later := ih (List.not_mem_of_not_mem_cons absent) (some char)
    rw [List.cons_append, identifiersAfter_cons, identifierAt?_of_ne different, later,
      List.getLast?_cons]
    cases front.getLast? <;> rfl

theorem identifiersAfter_eq_nil (absent : 'x' ∉ text) (before : Option Char) :
    identifiersAfter before text = [] := by
  rw [← List.append_nil text, identifiersAfter_append_of_absent absent]
  rfl

/-- Whether an identifier begins a text is seen before the end of the word. -/
theorem identifierAt?_append (separate : ∀ char ∈ rest.head?, isWord char = false)
    (before : Option Char) (char : Char) (text : List Char) :
    identifierAt? before (char :: text ++ rest) = identifierAt? before (char :: text) := by
  have stop : ∀ next ∈ rest.head?, isDigit next = false := fun next first =>
    isDigit_eq_false_of_isWord_eq_false (separate next first)
  by_cases start : char = 'x'
  · subst start
    cases text with
    | nil =>
      cases rest with
      | nil => rfl
      | cons next rest =>
        have leading : isLeadingDigit next = false := by
          rw [Bool.eq_false_iff]
          intro leading
          have digit := stop next rfl
          rw [isDigit_of_isLeadingDigit leading] at digit
          cases digit
        simp [identifierAt?, leading]
    | cons lead text =>
      -- The digits of the identifier may reach the end of the text, but not go on after it.
      have none : rest.takeWhile isDigit = [] ∧ rest.dropWhile isDigit = rest := by
        cases rest with
        | nil => exact ⟨rfl, rfl⟩
        | cons next rest => simp [stop next rfl]
      have digits : (text ++ rest).takeWhile isDigit = text.takeWhile isDigit := by
        rw [List.takeWhile_append]
        split_ifs with all
        · rw [none.1, List.append_nil, (List.takeWhile_prefix _).eq_of_length all]
        · rfl
      have following : ((text ++ rest).dropWhile isDigit).head?.any isWord =
          (text.dropWhile isDigit).head?.any isWord := by
        rw [List.dropWhile_append]
        split_ifs with all
        · rw [none.2, List.isEmpty_iff.1 all]
          cases rest with
          | nil => rfl
          | cons next rest => exact separate next rfl
        · cases remaining : text.dropWhile isDigit with
          | nil => simp [remaining] at all
          | cons next remaining => rfl
      simp only [List.cons_append, identifierAt?, digits, following]
  · rw [List.cons_append, identifierAt?_of_ne start, identifierAt?_of_ne start]

/-- Parting a text before a character that does not continue a word parts its identifiers. -/
theorem identifiersAfter_append (separate : ∀ char ∈ rest.head?, isWord char = false)
    (before : Option Char) (text : List Char) :
    identifiersAfter before (text ++ rest) =
      identifiersAfter before text ++ identifiersAfter (text.getLast?.or before) rest := by
  induction text generalizing before with
  | nil => rfl
  | cons char text ih =>
    have first := identifierAt?_append separate before char text
    rw [List.cons_append] at first
    rw [List.cons_append, identifiersAfter_cons, first, ih, identifiersAfter_cons,
      List.append_assoc, List.getLast?_cons]
    cases text.getLast? <;> rfl

end Parting

section Front

/-- What may stand before a variable in a term holds no identifier and hides none. -/
theorem identifiersAfter_beforeVariable_append
    (allowed : ∀ char ∈ front, isBeforeVariable char = true) (text : List Char) :
    identifiersAfter none (front ++ text) = identifiersAfter none text := by
  have absent : 'x' ∉ front := fun member => ne_x_of_isBeforeVariable (allowed 'x' member) rfl
  have clear : (front.getLast?.or none).any isIdentifierStart = false := by
    cases last : front.getLast? with
    | none => rfl
    | some char =>
      have before := allowed char (List.mem_of_getLast? last)
      exact isIdentifierStart_eq_false_of_isBeforeVariable before
  rw [identifiersAfter_append_of_absent absent]
  exact identifiersAfter_congr clear text

theorem not_mem_of_blank (blank : Blank text) : 'x' ∉ text := fun member =>
  absurd (blank 'x' member) (by decide)

/-- Blanks at the ends of a text are no part of its identifiers. -/
theorem identifiersAfter_trim (text : List Char) :
    identifiersAfter none (trim text) = identifiersAfter none text := by
  obtain ⟨front, back, blankFront, blankBack, split⟩ := exists_around_trimBy isBlank text
  have allowed : ∀ char ∈ front, isBeforeVariable char = true := fun char member =>
    isBeforeVariable_of_isBlank (blankFront char member)
  have separate : ∀ char ∈ back.head?, isWord char = false := fun char first =>
    isWord_eq_false_of_isBlank (blankBack char (List.mem_of_mem_head? first))
  calc identifiersAfter none (trim text)
      = identifiersAfter none (front ++ trim text) :=
        (identifiersAfter_beforeVariable_append allowed _).symm
    _ = identifiersAfter none (front ++ trim text ++ back) := by
        rw [identifiersAfter_append separate,
          identifiersAfter_eq_nil (not_mem_of_blank blankBack), List.append_nil]
    _ = identifiersAfter none text := congrArg (identifiersAfter none) split.symm

end Front

section Fragments

/-- What precedes a sign has no part in the identifiers after it. -/
theorem identifiersAfter_signLed (led : SignLed text) (before : Option Char) :
    identifiersAfter before text = identifiersAfter none text := by
  cases led with
  | @intro sign rest leading unsigned =>
    have different : sign ≠ 'x' := ne_x_of_isBeforeVariable (isBeforeVariable_of_isSign leading)
    rw [identifiersAfter_cons, identifiersAfter_cons, identifierAt?_of_ne different,
      identifierAt?_of_ne different]

theorem isWord_eq_false_of_isSign {char : Char} (sign : isSign char = true) :
    isWord char = false := by
  rcases isSign_iff.1 sign with rfl | rfl <;> decide +kernel

/-- Identifiers are found piece by piece between the signs. -/
theorem identifiersAfter_joined {pieces : List (List Char)}
    (led : ∀ piece ∈ pieces, SignLed piece) (before : Option Char) (text : List Char) :
    identifiersAfter before (text ++ pieces.flatten) =
      identifiersAfter before text ++ pieces.flatMap (identifiersAfter none) := by
  induction pieces generalizing before text with
  | nil => simp
  | cons piece pieces ih =>
    have first := led piece List.mem_cons_self
    have later := ih fun other member => led other (List.mem_cons_of_mem _ member)
    have separate : ∀ char ∈ (piece ++ pieces.flatten).head?, isWord char = false := by
      cases first with
      | intro leading unsigned =>
        rintro char ⟨⟩
        exact isWord_eq_false_of_isSign leading
    rw [List.flatten_cons, identifiersAfter_append separate, later,
      identifiersAfter_signLed first, List.flatMap_cons]

/-- The identifiers of an expression are those of its fragments. -/
theorem identifiersAfter_eq_fragments (text : List Char) :
    identifiersAfter none text = (fragments text).flatMap (identifiersAfter none) := by
  obtain ⟨first, further, pieces, cut⟩ := exists_cut text
  have joined : first ++ further.flatten = text := by
    rw [← List.flatten_cons, ← pieces, flatten_cutAtSigns]
  have trimmed (pieces : List (List Char)) :
      ((pieces.map trim).filter fun piece => !piece.isEmpty).flatMap (identifiersAfter none) =
        pieces.flatMap (identifiersAfter none) := by
    induction pieces with
    | nil => rfl
    | cons piece pieces ih =>
      rw [List.map_cons, List.flatMap_cons, ← identifiersAfter_trim piece]
      cases trim piece with
      | nil => exact ih
      | cons char rest => rw [List.filter_cons_of_pos rfl, List.flatMap_cons, ih]
  rw [fragments, pieces, trimmed, List.flatMap_cons, ← identifiersAfter_joined cut.further,
    joined]

end Fragments

section Names

/-- A variable is the one identifier in it. -/
theorem identifiersAfter_of_isVariable (variableName : isVariable name = true)
    (clear : before.any isIdentifierStart = false) : identifiersAfter before name = [name] := by
  obtain ⟨lead, digits, rfl, leading, digit⟩ := exists_of_isVariable variableName
  have absent : 'x' ∉ lead :: digits := by
    intro member
    rcases List.mem_cons.1 member with rfl | later
    · exact absurd leading (by decide)
    · exact absurd (digit 'x' later) (by decide)
  have taken : digits.takeWhile isDigit = digits := List.takeWhile_eq_self_iff.2 digit
  have dropped : digits.dropWhile isDigit = [] := List.dropWhile_eq_nil_iff.2 digit
  rw [identifiersAfter_cons, identifiersAfter_eq_nil absent]
  simp [identifierAt?, clear, leading, taken, dropped]

theorem isVariable_of_identifierAt? (found : identifierAt? before text = some name) :
    isVariable name = true := by
  unfold identifierAt? at found
  split at found
  · rename_i lead rest
    simp only [Option.ite_none_right_eq_some, Option.some.injEq] at found
    obtain ⟨⟨-, leading, -⟩, rfl⟩ := found
    rw [isVariable, leading, Bool.true_and]
    exact List.all_eq_true.2 fun char member => List.mem_takeWhile_imp member
  · cases found

/-- Identifiers are variables. -/
theorem isVariable_of_mem_identifiersAfter (member : name ∈ identifiersAfter before text) :
    isVariable name = true := by
  induction text generalizing before with
  | nil => cases member
  | cons char rest ih =>
    rw [identifiersAfter_cons, List.mem_append, Option.mem_toList] at member
    rcases member with first | later
    · exact isVariable_of_identifierAt? first
    · exact ih later

/-- A fragment that is a term holds the name of the term and no other identifier. -/
theorem identifiersAfter_of_readTerm? {term : Term} (read : readTerm? text = some term) :
    identifiersAfter none text = [term.name.toList] := by
  obtain ⟨variableName, front, frontChars, split⟩ := exists_append_name_of_readTerm? read
  rw [split, identifiersAfter_beforeVariable_append frontChars,
    identifiersAfter_of_isVariable variableName rfl]

theorem mem_identifiers_iff {text name : String} :
    name ∈ identifiers text ↔ name.toList ∈ identifiersAfter none text.toList := by
  rw [identifiers, List.mem_eraseDups, List.mem_map]
  constructor
  · rintro ⟨found, member, rfl⟩
    rwa [String.toList_ofList]
  · exact fun member => ⟨_, member, String.ofList_toList⟩

theorem isVariable_of_mem_identifiers {text name : String} (member : name ∈ identifiers text) :
    isVariable name.toList = true :=
  isVariable_of_mem_identifiersAfter (mem_identifiers_iff.1 member)

/-- The name of every term of an expression is found as an identifier. -/
theorem name_mem_identifiers {expression : String} {term : Term}
    (member : term ∈ terms expression) : term.name ∈ identifiers expression := by
  obtain ⟨fragment, listed, read⟩ := List.mem_filterMap.1 member
  rw [mem_identifiers_iff, identifiersAfter_eq_fragments]
  refine List.mem_flatMap.2 ⟨fragment, listed, ?_⟩
  rw [identifiersAfter_of_readTerm? read]
  exact List.mem_singleton_self _

end Names

end Simplex.Text

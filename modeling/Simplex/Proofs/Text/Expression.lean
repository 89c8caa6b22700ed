import Simplex.Proofs.Text.Term

/-!
# Fragments of an expression

A cut before every sign is undone by joining the pieces, and joining pieces that carry a sign in
front is undone by the cut: `cutAtSigns_joined`. Blanks at the ends of an expression make no
difference to its fragments.
-/

namespace Simplex.Text

section Cut

variable {sign : Char} {first text back : List Char} {further : List (List Char)}

/-- A text without signs. -/
def Unsigned (text : List Char) : Prop := ∀ char ∈ text, isSign char = false

/-- A sign and a text without signs. -/
inductive SignLed : List Char → Prop
  | intro {sign : Char} {rest : List Char} (leading : isSign sign = true)
      (unsigned : Unsigned rest) : SignLed (sign :: rest)

/-- The pieces that a cut before every sign leaves. -/
structure Cut (first : List Char) (further : List (List Char)) : Prop where
  first : Unsigned first
  further : ∀ piece ∈ further, SignLed piece

theorem Unsigned.append {front : List Char} (left : Unsigned front) (right : Unsigned text) :
    Unsigned (front ++ text) := fun char member =>
  (List.mem_append.1 member).elim (left char) (right char)

theorem unsigned_of_blank (blank : Blank text) : Unsigned text := fun char member =>
  isSign_eq_false_of_isBlank (blank char member)

/-- Blanks after a piece do not change that it begins with its only sign. -/
theorem SignLed.append (led : SignLed text) (unsigned : Unsigned back) :
    SignLed (text ++ back) := by
  cases led with
  | intro leading rest => exact .intro leading (rest.append unsigned)

theorem cutAtSigns_ne_nil (text : List Char) : cutAtSigns text ≠ [] := by
  fun_induction cutAtSigns text <;> simp

theorem cutAtSigns_sign (leading : isSign sign = true) (text : List Char) :
    cutAtSigns (sign :: text) = [] :: (cutAtSigns text).modifyHead (sign :: ·) := by
  cases pieces : cutAtSigns text with
  | nil => exact absurd pieces (cutAtSigns_ne_nil text)
  | cons piece rest => simp [cutAtSigns, pieces, leading]

theorem cutAtSigns_unsigned_append (unsigned : Unsigned first) (text : List Char) :
    cutAtSigns (first ++ text) = (cutAtSigns text).modifyHead (first ++ ·) := by
  induction first with
  | nil =>
    rw [List.nil_append]
    cases cutAtSigns text <;> rfl
  | cons char first ih =>
    have plain := unsigned char List.mem_cons_self
    have rest := ih fun other member => unsigned other (List.mem_cons_of_mem _ member)
    cases pieces : cutAtSigns text with
    | nil => exact absurd pieces (cutAtSigns_ne_nil text)
    | cons piece further => simp [cutAtSigns, rest, pieces, plain]

/-- The cut finds the pieces that a text was joined from. -/
theorem cutAtSigns_joined (cut : Cut first further) :
    cutAtSigns (first ++ further.flatten) = first :: further := by
  rw [cutAtSigns_unsigned_append cut.first]
  suffices joined : cutAtSigns further.flatten = [] :: further by simp [joined]
  have led := cut.further
  clear cut
  induction further with
  | nil => rfl
  | cons piece further ih =>
    have later := ih fun other member => led other (List.mem_cons_of_mem _ member)
    cases led piece List.mem_cons_self with
    | intro leading unsigned =>
      rw [List.flatten_cons, List.cons_append, cutAtSigns_sign leading,
        cutAtSigns_unsigned_append unsigned, later]
      simp

/-- Every text is joined from the pieces of its cut. -/
theorem exists_cut (text : List Char) :
    ∃ first further, cutAtSigns text = first :: further ∧ Cut first further := by
  induction text with
  | nil => exact ⟨[], [], rfl, by simp [Unsigned], by simp⟩
  | cons char text ih =>
    obtain ⟨first, further, pieces, cut⟩ := ih
    cases sign : isSign char with
    | true =>
      refine ⟨[], (char :: first) :: further, by simp [cutAtSigns_sign sign, pieces],
        by simp [Unsigned], fun piece member => ?_⟩
      rcases List.mem_cons.1 member with rfl | later
      · exact .intro sign cut.first
      · exact cut.further piece later
    | false =>
      refine ⟨char :: first, further, by simp [cutAtSigns, pieces, sign], fun other member => ?_,
        cut.further⟩
      rcases List.mem_cons.1 member with rfl | later
      · exact sign
      · exact cut.first other later

/-- A text without signs at the end of another belongs to its last piece. -/
theorem cutAtSigns_append_unsigned (unsigned : Unsigned back) (text : List Char) :
    ∃ front last, cutAtSigns text = front ++ [last] ∧
      cutAtSigns (text ++ back) = front ++ [last ++ back] := by
  obtain ⟨first, further, pieces, cut⟩ := exists_cut text
  have joined : first ++ further.flatten = text := by
    rw [← List.flatten_cons, ← pieces, flatten_cutAtSigns]
  -- Where no sign is left, the last piece is the first one.
  rcases List.eq_nil_or_concat further with rfl | ⟨front, last, rfl⟩
  · have whole : Cut (first ++ back) [] := ⟨cut.first.append unsigned, by simp⟩
    have recut := cutAtSigns_joined whole
    exact ⟨[], first, pieces, by simpa [← joined] using recut⟩
  · have whole : Cut first (front ++ [last ++ back]) := by
      refine ⟨cut.first, fun piece member => ?_⟩
      rcases List.mem_append.1 member with inFront | isLast
      · exact cut.further piece (by simp [inFront])
      · rw [List.mem_singleton.1 isLast]
        exact (cut.further last (by simp)).append unsigned
    have recut := cutAtSigns_joined whole
    exact ⟨first :: front, last, by simpa using pieces, by simpa [← joined] using recut⟩

end Cut

section Fragments

variable {sign : Char} {front back rest : List Char}

theorem fragments_blank_append (blank : Blank front) (text : List Char) :
    fragments (front ++ text) = fragments text := by
  unfold fragments
  rw [cutAtSigns_unsigned_append (unsigned_of_blank blank)]
  cases cutAtSigns text with
  | nil => rfl
  | cons piece pieces =>
    have trimmed : trim (front ++ piece) = trim piece := trimBy_append_left blank piece
    simp [trimmed]

theorem fragments_append_blank (blank : Blank back) (text : List Char) :
    fragments (text ++ back) = fragments text := by
  obtain ⟨front, last, pieces, extended⟩ :=
    cutAtSigns_append_unsigned (unsigned_of_blank blank) text
  have trimmed : trim (last ++ back) = trim last := trimBy_append_right blank last
  simp [fragments, pieces, extended, trimmed]

/-- Blanks at the ends of an expression are no part of its fragments. -/
theorem fragments_trim (text : List Char) : fragments (trim text) = fragments text := by
  obtain ⟨front, back, before, after, split⟩ := exists_around_trimBy isBlank text
  calc fragments (trim text)
      = fragments (front ++ trim text) := (fragments_blank_append before _).symm
    _ = fragments (front ++ trim text ++ back) := (fragments_append_blank after _).symm
    _ = fragments text := congrArg fragments split.symm

/-- A sign begins a new fragment. -/
theorem fragments_append_sign (signed : isSign sign = true) (front rest : List Char) :
    fragments (front ++ sign :: rest) = fragments front ++ fragments (sign :: rest) := by
  obtain ⟨first, further, pieces, cut⟩ := exists_cut front
  obtain ⟨next, later, nextPieces, nextCut⟩ := exists_cut rest
  have led : ∀ piece ∈ (sign :: next) :: later, SignLed piece :=
    List.forall_mem_cons.2 ⟨.intro signed nextCut.first, nextCut.further⟩
  have whole : Cut first (further ++ (sign :: next) :: later) :=
    ⟨cut.first, List.forall_mem_append.2 ⟨cut.further, led⟩⟩
  have frontParts : first ++ further.flatten = front := by
    rw [← List.flatten_cons, ← pieces, flatten_cutAtSigns]
  have restParts : next ++ later.flatten = rest := by
    rw [← List.flatten_cons, ← nextPieces, flatten_cutAtSigns]
  have joined : first ++ (further ++ (sign :: next) :: later).flatten = front ++ sign :: rest := by
    simp [← frontParts, ← restParts]
  have recut := cutAtSigns_joined whole
  rw [joined] at recut
  rw [fragments, fragments, fragments, recut, pieces, cutAtSigns_sign signed, nextPieces,
    ← List.cons_append, List.map_append, List.filter_append]
  rfl

/-- A text with at most one sign, in front, is one fragment. -/
theorem fragments_eq_singleton (sign : Option Bool) (unsigned : Unsigned rest)
    (kept : Kept isBlank (signChars sign ++ rest)) (nonempty : rest ≠ []) :
    fragments (signChars sign ++ rest) = [signChars sign ++ rest] := by
  have trimmed : trim (signChars sign ++ rest) = signChars sign ++ rest := kept.trimBy_eq
  have single : Cut rest [] := ⟨unsigned, by simp⟩
  have pieces := cutAtSigns_joined single
  rw [List.flatten_nil, List.append_nil] at pieces
  cases sign with
  | none =>
    rw [signChars, List.nil_append] at trimmed ⊢
    simp [fragments, pieces, trimmed, nonempty]
  | some negative =>
    have leading : isSign (if negative then '-' else '+') = true := by cases negative <;> rfl
    have empty : trim [] = [] := rfl
    rw [signChars, List.singleton_append] at trimmed ⊢
    simp [fragments, cutAtSigns_sign leading, pieces, trimmed, empty]

end Fragments

section Accounts

/-- What becomes of a fragment: a text that has a form is returned as the term that the form says,
and any other one is skipped as it stands. -/
inductive Accounts : List Char → Term ⊕ String → Prop
  | returned (form : TermForm) : Accounts form.chars (.inl form.toTerm)
  | skipped (text : List Char) (formless : ∀ form : TermForm, form.chars ≠ text) :
      Accounts text (.inr (String.ofList text))

/-- What is done with a fragment. -/
def outcome (fragment : List Char) : Term ⊕ String :=
  match readTerm? fragment with
  | some term => .inl term
  | none => .inr (String.ofList fragment)

theorem accounts_outcome (fragment : List Char) : Accounts fragment (outcome fragment) := by
  unfold outcome
  cases read : readTerm? fragment with
  | some term =>
    obtain ⟨form, rfl, rfl⟩ := readTerm?_eq_some_iff.1 read
    exact .returned form
  | none =>
    refine .skipped fragment fun form same => ?_
    rw [← same, form.readTerm?_chars] at read
    cases read

theorem terms_eq_filterMap (expression : String) :
    terms expression = ((fragments expression.toList).map outcome).filterMap Sum.getLeft? := by
  rw [terms, List.filterMap_map]
  refine List.filterMap_congr fun fragment _ => ?_
  simp only [Function.comp, outcome]
  cases readTerm? fragment <;> rfl

theorem skipped_eq_filterMap (expression : String) :
    skipped expression = ((fragments expression.toList).map outcome).filterMap Sum.getRight? := by
  rw [skipped, List.filterMap_map, ← List.filterMap_eq_map, List.filterMap_filter]
  refine List.filterMap_congr fun fragment _ => ?_
  simp only [Function.comp, outcome]
  cases readTerm? fragment <;> rfl

variable {α : Type} [Scalar α]

/-- The number that a form has been written with, as it is read by itself, or one if there is
none. -/
def TermForm.Writes (form : TermForm) (magnitude : α) : Prop :=
  match form.number with
  | none => magnitude = 1
  | some literal => ∃ value, readNumeral? digitValue? literal.chars = some (.finite value) ∧
      magnitude = Scalar.ofDecimal value

/-- The coefficient of a form is the number it was written with, negated after a minus, and that
number is always readable. -/
theorem TermForm.exists_writes (form : TermForm) :
    ∃ magnitude : α,
      form.Writes magnitude ∧
        form.toTerm.coefficient = if form.sign = some true then -magnitude else magnitude := by
  unfold Writes toTerm Term.coefficient
  cases form.number with
  | none => exact ⟨1, rfl, by simp⟩
  | some literal =>
    have read : readNumeral? digitValue? literal.chars = some (.finite (literal.decimal false)) :=
      literal.readNumeral?_chars none
    exact ⟨_, ⟨_, read, rfl⟩, by simp⟩

/-- The reader of terms accounts for the whole of every expression. The pieces of the cut before
its signs make it up again, and those that are not blank are, in their order, the returned terms
and the skipped fragments. A fragment is returned exactly if it has a form, and then whatever form
it has says the same: its variable, and the number it was written with, which is always readable,
negated after a minus. -/
theorem terms_account (α : Type) [Scalar α] (expression : String) :
    (∃ first further outcomes, Cut first further ∧
      first ++ further.flatten = expression.toList ∧
      List.Forall₂ Accounts
        (((first :: further).map trim).filter fun piece => !piece.isEmpty) outcomes ∧
      terms expression = outcomes.filterMap Sum.getLeft? ∧
      skipped expression = outcomes.filterMap Sum.getRight?) ∧
    (∀ form other : TermForm, form.chars = other.chars → form.toTerm = other.toTerm) ∧
    ∀ form : TermForm, form.toTerm.name.toList = form.name ∧ ∃ magnitude : α,
      form.Writes magnitude ∧
        form.toTerm.coefficient = if form.sign = some true then -magnitude else magnitude := by
  refine ⟨?_, fun form other => TermForm.toTerm_eq_of_chars_eq, fun form =>
    ⟨String.toList_ofList, form.exists_writes⟩⟩
  obtain ⟨first, further, pieces, cut⟩ := exists_cut expression.toList
  refine ⟨first, further, (fragments expression.toList).map outcome, cut, ?_, ?_,
    terms_eq_filterMap expression, skipped_eq_filterMap expression⟩
  · rw [← List.flatten_cons, ← pieces, flatten_cutAtSigns]
  · rw [fragments, pieces, List.forall₂_map_right_iff]
    exact List.forall₂_same.2 fun fragment _ => accounts_outcome fragment

/-- A bare sign and a product are skipped, and what is around them is returned. -/
example : terms "2x1 + 3 * x2 - x1*x2 + .5 x3 +" =
      [⟨false, some ⟨false, 2, 0⟩, "x1"⟩, ⟨false, some ⟨false, 3, 0⟩, "x2"⟩,
        ⟨false, some ⟨false, 5, -1⟩, "x3"⟩] ∧
    skipped "2x1 + 3 * x2 - x1*x2 + .5 x3 +" = ["- x1*x2", "+"] := by
  decide +kernel

end Accounts

end Simplex.Text

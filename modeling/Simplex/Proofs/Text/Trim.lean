import Mathlib
import Simplex.Text.Blank

/-!
# Texts without their ends

Trimming takes nothing but dropped characters off the two ends of a text, and as many of them as
there are. It therefore does not see what is added at the ends: `trimBy_append_right` and
`trimBy_append_left` say so of each end.
-/

namespace Simplex.Text

section Dropped

variable {drop : Char → Bool} {char : Char} {text front back : List Char}

/-- Both ends of a text are kept by a trimming. -/
structure Kept (drop : Char → Bool) (text : List Char) : Prop where
  first : ∀ char ∈ text.head?, drop char = false
  last : ∀ char ∈ text.getLast?, drop char = false

theorem trimBy_eq_rdropWhile (drop : Char → Bool) (text : List Char) :
    trimBy drop text = (text.dropWhile drop).rdropWhile drop :=
  rfl

theorem trimBy_append_left (dropped : ∀ char ∈ front, drop char = true) (text : List Char) :
    trimBy drop (front ++ text) = trimBy drop text := by
  rw [trimBy_eq_rdropWhile, List.dropWhile_append_of_pos dropped, trimBy_eq_rdropWhile]

theorem trimBy_append_right (dropped : ∀ char ∈ back, drop char = true) (text : List Char) :
    trimBy drop (text ++ back) = trimBy drop text := by
  rw [trimBy_eq_rdropWhile, trimBy_eq_rdropWhile, List.dropWhile_append]
  split_ifs with empty
  · rw [List.isEmpty_iff.1 empty, List.dropWhile_eq_nil_iff.2 dropped]
  · rw [List.rdropWhile, List.rdropWhile, List.reverse_append,
      List.dropWhile_append_of_pos (by simpa using dropped)]

/-- A text whose ends are kept stays as it is. -/
theorem Kept.trimBy_eq (kept : Kept drop text) : trimBy drop text = text := by
  have front : text.dropWhile drop = text := by
    cases text with
    | nil => rfl
    | cons char rest => rw [List.dropWhile_cons_of_neg (by simp [kept.first char rfl])]
  rw [trimBy_eq_rdropWhile, front]
  refine List.rdropWhile_eq_self_iff.2 fun nonempty => ?_
  rw [kept.last _ (List.getLast?_eq_some_getLast nonempty)]
  exact Bool.false_ne_true

/-- Dropped characters around a text whose ends are kept are what trimming takes off. -/
theorem Kept.trimBy_around (kept : Kept drop text) (before : ∀ char ∈ front, drop char = true)
    (after : ∀ char ∈ back, drop char = true) : trimBy drop (front ++ text ++ back) = text := by
  rw [trimBy_append_right after, trimBy_append_left before, kept.trimBy_eq]

/-- Nothing but dropped characters is missing at the ends of a trimmed text. -/
theorem exists_around_trimBy (drop : Char → Bool) (text : List Char) :
    ∃ front back, (∀ char ∈ front, drop char = true) ∧ (∀ char ∈ back, drop char = true) ∧
      text = front ++ trimBy drop text ++ back := by
  refine ⟨text.takeWhile drop, (text.dropWhile drop).rtakeWhile drop, ?_, ?_, ?_⟩
  · exact fun char member => List.mem_takeWhile_imp member
  · exact fun char member => List.mem_rtakeWhile_imp member
  · have ends : trimBy drop text ++ (text.dropWhile drop).rtakeWhile drop =
        text.dropWhile drop := by
      rw [trimBy_eq_rdropWhile, List.rdropWhile, List.rtakeWhile, ← List.reverse_append,
        List.takeWhile_append_dropWhile, List.reverse_reverse]
    rw [List.append_assoc, ends, List.takeWhile_append_dropWhile]

theorem trimBy_eq_nil_iff : trimBy drop text = [] ↔ ∀ char ∈ text, drop char = true := by
  rw [trimBy_eq_rdropWhile, List.rdropWhile_eq_nil_iff]
  constructor
  · intro dropped char member
    rw [← List.takeWhile_append_dropWhile (p := drop) (l := text), List.mem_append] at member
    exact member.elim List.mem_takeWhile_imp (dropped char)
  · intro dropped char member
    exact dropped char ((List.dropWhile_sublist drop).subset member)

theorem dropWhile_append_cons (kept : drop char = false) (front back : List Char) :
    (front ++ char :: back).dropWhile drop = front.dropWhile drop ++ char :: back := by
  induction front with
  | nil => simp [kept]
  | cons first front ih =>
    rw [List.cons_append, List.dropWhile_cons, List.dropWhile_cons, ih]
    split_ifs <;> rfl

/-- A character that is kept parts what is dropped in front from what is dropped at the end. -/
theorem trimBy_append_cons (kept : drop char = false) (front back : List Char) :
    trimBy drop (front ++ char :: back) =
      front.dropWhile drop ++ char :: back.rdropWhile drop := by
  rw [trimBy_eq_rdropWhile, dropWhile_append_cons kept, List.rdropWhile, List.rdropWhile]
  simp [dropWhile_append_cons kept]

end Dropped

/-- A text of blanks only. -/
def Blank (text : List Char) : Prop := ∀ char ∈ text, isBlank char = true

instance (text : List Char) : Decidable (Blank text) :=
  inferInstanceAs (Decidable (∀ char ∈ text, isBlank char = true))

theorem skipBlanks_append {front : List Char} (blank : Blank front) (text : List Char) :
    skipBlanks (front ++ text) = skipBlanks text :=
  List.dropWhile_append_of_pos blank

/-- There is nothing to skip before a character that is no blank. -/
theorem skipBlanks_eq_self {text : List Char} (stop : ∀ char ∈ text.head?, isBlank char = false) :
    skipBlanks text = text := by
  cases text with
  | nil => rfl
  | cons char rest => exact List.dropWhile_cons_of_neg (by simp [stop char rfl])

theorem skipBlanks_of_blank_append {front text : List Char} (blank : Blank front)
    (stop : ∀ char ∈ text.head?, isBlank char = false) : skipBlanks (front ++ text) = text := by
  rw [skipBlanks_append blank, skipBlanks_eq_self stop]

/-- What is skipped are blanks. -/
theorem exists_blank_append_skipBlanks (text : List Char) :
    ∃ front, Blank front ∧ text = front ++ skipBlanks text :=
  ⟨text.takeWhile isBlank, fun _ member => List.mem_takeWhile_imp member,
    (List.takeWhile_append_dropWhile).symm⟩

end Simplex.Text

import Simplex.Text.Integer
import Simplex.Text.Word

/-!
# Identifiers of variables

A variable is written `x` and its number: a digit from 1 to 9 and further decimal
digits of any script. An identifier is not preceded by an ASCII letter or an
underscore and not followed by a word character; what precedes it may be a digit.
-/

namespace Simplex.Text

/-- Whether a character keeps the `x` after it from beginning an identifier. -/
def isIdentifierStart (char : Char) : Bool :=
  decide ('A' ≤ char ∧ char ≤ 'Z') || decide ('a' ≤ char ∧ char ≤ 'z') || char == '_'

/-- The identifier that begins a text, given the character before the text. -/
def identifierAt? (before : Option Char) : List Char → Option (List Char)
  | 'x' :: lead :: rest =>
    let digits := rest.takeWhile isDigit
    if ¬ before.any isIdentifierStart ∧ isLeadingDigit lead
        ∧ ¬ (rest.dropWhile isDigit).head?.any isWord then
      some ('x' :: lead :: digits)
    else none
  | _ => none

/-- The identifiers of a text, in order, given the character before the text. -/
def identifiersAfter : Option Char → List Char → List (List Char)
  | _, [] => []
  | before, char :: rest =>
    (identifierAt? before (char :: rest)).toList ++ identifiersAfter (some char) rest

/-- The distinct identifiers of a text, in order of first appearance. -/
def identifiers (text : String) : List String :=
  ((identifiersAfter none text.toList).map String.ofList).eraseDups

/-- The number of a variable: what follows the first character of its name. -/
def variableNumber (name : String) : Except IntegerFault Int :=
  readInteger (name.toList.drop 1)

/-- A name with its number. -/
def numberedName (name : String) : Except IntegerFault (Int × String) :=
  (variableNumber name).map (·, name)

/-- A numbered name put in front of the first one whose number is not smaller. -/
def insertNumbered (new : Int × String) : List (Int × String) → List (Int × String)
  | [] => [new]
  | first :: rest =>
    if new.1 ≤ first.1 then new :: first :: rest else first :: insertNumbered new rest

/-- Inserting adds the new name and nothing else. -/
theorem insertNumbered_perm (new : Int × String) (names : List (Int × String)) :
    (insertNumbered new names).Perm (new :: names) := by
  fun_induction insertNumbered new names with
  | case1 => exact .refl _
  | case2 => exact .refl _
  | case3 first rest _ ih => exact (ih.cons first).trans (.swap new first rest)

/-- Inserting keeps the numbers in order. -/
theorem pairwise_insertNumbered (new : Int × String) {names : List (Int × String)}
    (ordered : names.Pairwise fun first second => first.1 ≤ second.1) :
    (insertNumbered new names).Pairwise fun first second => first.1 ≤ second.1 := by
  fun_induction insertNumbered new names with
  | case1 => simp
  | case2 first rest small =>
    have bound := (List.pairwise_cons.1 ordered).1
    refine List.pairwise_cons.2 ⟨fun later member => ?_, ordered⟩
    rcases List.mem_cons.1 member with rfl | inRest
    · exact small
    · exact Int.le_trans small (bound later inRest)
  | case3 first rest large ih =>
    have parts := List.pairwise_cons.1 ordered
    refine List.pairwise_cons.2 ⟨fun later member => ?_, ih parts.2⟩
    rcases List.mem_cons.1 ((insertNumbered_perm new rest).mem_iff.1 member) with rfl | inRest
    · omega
    · exact parts.1 later inRest

/-- The distinct names of a list in the order of their numbers. Names that share a
number, in digits of different scripts, stand in order of first appearance, and of
several names without a number the first one is reported. Both are free choices on
which no result depends: of a sorted list it is only used that it holds every name
once and that the numbers do not decrease along it. -/
def sortByNumber (names : List String) : Except IntegerFault (List String) :=
  (names.eraseDups.mapM numberedName).map fun numbered =>
    (numbered.foldr insertNumbered []).map Prod.snd

end Simplex.Text

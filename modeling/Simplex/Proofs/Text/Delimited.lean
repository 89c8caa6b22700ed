import Simplex.Proofs.Text.Variables

/-!
# Where identifiers stand

The pattern of an identifier, read position by position, fits in one way at most: a match with fewer
digits than follow each other would be followed by a digit, which is a word character
(`Matched.delimited`), and since matches hold no `x` but their first character they do not overlap
(`Matched.stop_le`). A search that goes on behind each match therefore finds every match, and
identifiers are the texts of the matches without repetitions, by first appearance:
`identifiers_delimited`.
-/

namespace Simplex.Text

section FirstAppearance

variable {α : Type} [BEq α] [LawfulBEq α]

/-- Leaving out some values does not change which of two others appears first. -/
theorem idxOf_lt_of_idxOf_filter_lt {values : List α} {keep : α → Bool} {first second : α}
    (firstKept : keep first = true) (secondKept : keep second = true)
    (before : (values.filter keep).idxOf first < (values.filter keep).idxOf second) :
    values.idxOf first < values.idxOf second := by
  induction values with
  | nil => exact before
  | cons value values ih =>
    by_cases kept : keep value = true
    · rw [List.filter_cons_of_pos kept] at before
      by_cases isSecond : value = second
      · simp [isSecond] at before
      · by_cases isFirst : value = first
        · simp [isFirst, isFirst ▸ isSecond]
        · simp only [List.idxOf_cons_ne _ isFirst, List.idxOf_cons_ne _ isSecond] at before ⊢
          exact Nat.succ_lt_succ (ih (Nat.lt_of_succ_lt_succ before))
    · have isFirst : value ≠ first := fun same => kept (same ▸ firstKept)
      have isSecond : value ≠ second := fun same => kept (same ▸ secondKept)
      rw [List.filter_cons_of_neg kept] at before
      rw [List.idxOf_cons_ne _ isFirst, List.idxOf_cons_ne _ isSecond]
      exact Nat.succ_lt_succ (ih before)

/-- Values stay in the order of their first appearance when repetitions are left out. -/
theorem pairwise_idxOf_eraseDups (values : List α) :
    values.eraseDups.Pairwise fun first second => values.idxOf first < values.idxOf second := by
  match values with
  | [] => simp
  | value :: values =>
    rw [List.eraseDups_cons, List.pairwise_cons]
    have kept {later : α}
        (member : later ∈ (values.filter fun later => !later == value).eraseDups) :
        (!later == value) = true :=
      (List.mem_filter.1 (List.mem_eraseDups.1 member)).2
    have other {later : α}
        (member : later ∈ (values.filter fun later => !later == value).eraseDups) :
        value ≠ later := by
      rintro rfl
      simpa using kept member
    refine ⟨fun later member => ?_, ?_⟩
    · rw [List.idxOf_cons_self, List.idxOf_cons_ne _ (other member)]
      exact Nat.succ_pos _
    · refine (pairwise_idxOf_eraseDups (values.filter fun later => !later == value)).imp_of_mem ?_
      intro first second firstMember secondMember before
      rw [List.idxOf_cons_ne _ (other firstMember), List.idxOf_cons_ne _ (other secondMember)]
      exact Nat.succ_lt_succ
        (idxOf_lt_of_idxOf_filter_lt (kept firstMember) (kept secondMember) before)
termination_by values.length
decreasing_by exact Nat.lt_succ_of_le (List.length_filter_le _ _)

end FirstAppearance

section Matches

variable {before : Option Char} {text name back : List Char} {start stop later laterStop : Nat}

/-- The character before a position, given the one before the text. -/
def characterBefore (before : Option Char) (text : List Char) : Nat → Option Char
  | 0 => before
  | position + 1 => text[position]?

/-- The pattern of an identifier fits the characters from `start` up to `stop`: an `x` that neither
an ASCII letter nor an underscore precedes, a digit from 1 to 9, any number of further decimal
digits, and no word character after them. -/
structure Matched (text : List Char) (start stop : Nat) : Prop where
  clear : ∀ char ∈ characterBefore none text start, isIdentifierStart char = false
  letter : text[start]? = some 'x'
  lead : ∃ char ∈ text[start + 1]?, isLeadingDigit char = true
  long : start + 2 ≤ stop
  digits : ∀ index, start + 2 ≤ index → index < stop → ∃ char ∈ text[index]?, isDigit char = true
  separate : ∀ char ∈ text[stop]?, isWord char = false

/-- The characters from `start` up to `stop` are an identifier: the pattern fits them, and no
further digit follows. -/
structure Delimited (text : List Char) (start stop : Nat) : Prop
    extends Matched text start stop where
  maximal : ∀ char ∈ text[stop]?, isDigit char = false

/-- There is no match with fewer digits than follow each other: the next digit would be a word
character after it. -/
theorem Matched.delimited (matched : Matched text start stop) : Delimited text start stop :=
  ⟨matched, fun char next => isDigit_eq_false_of_isWord_eq_false (matched.separate char next)⟩

/-- After its `x` a match holds digits only. -/
theorem Matched.isDigit_of_lt (matched : Matched text start stop) {index : Nat}
    (after : start < index) (inside : index < stop) :
    ∃ char ∈ text[index]?, isDigit char = true := by
  by_cases first : index = start + 1
  · obtain ⟨char, present, leading⟩ := matched.lead
    exact ⟨char, first ▸ present, isDigit_of_isLeadingDigit leading⟩
  · exact matched.digits index (by omega) inside

/-- Matches do not overlap. -/
theorem Matched.stop_le (matched : Matched text start stop)
    (other : Matched text later laterStop) (after : start < later) : stop ≤ later := by
  by_contra inside
  obtain ⟨char, present, digit⟩ := matched.isDigit_of_lt after (not_le.1 inside)
  rw [other.letter] at present
  obtain rfl := Option.some.inj present
  exact absurd digit (by decide)

/-- An identifier begins a text when the text begins with a variable that no word character
follows. -/
theorem identifierAt?_eq_some_iff : identifierAt? before text = some name ↔
    (∀ char ∈ before, isIdentifierStart char = false) ∧ isVariable name = true ∧
      ∃ back, text = name ++ back ∧ ∀ char ∈ back.head?, isWord char = false := by
  have clear : (∀ char ∈ before, isIdentifierStart char = false) ↔
      before.any isIdentifierStart = false := by
    cases before <;> simp
  rw [clear]
  constructor
  · intro found
    have variableName := isVariable_of_identifierAt? found
    unfold identifierAt? at found
    split at found
    · rename_i lead rest
      simp only [Option.ite_none_right_eq_some, Option.some.injEq] at found
      obtain ⟨⟨start, -, separate⟩, rfl⟩ := found
      refine ⟨by simpa using start, variableName, rest.dropWhile isDigit, ?_, ?_⟩
      · rw [List.cons_append, List.cons_append, List.takeWhile_append_dropWhile]
      · intro char first
        rw [first] at separate
        simpa using separate
    · cases found
  · rintro ⟨start, variableName, back, rfl, separate⟩
    obtain ⟨lead, digits, rfl, leading, digit⟩ := exists_of_isVariable variableName
    have taken : digits.takeWhile isDigit = digits := List.takeWhile_eq_self_iff.2 digit
    have dropped : digits.dropWhile isDigit = [] := List.dropWhile_eq_nil_iff.2 digit
    rw [identifierAt?_append separate]
    simp [identifierAt?, start, leading, taken, dropped]

theorem drop_eq_cons {position : Nat} {char : Char} (present : text[position]? = some char) :
    text.drop position = char :: text.drop (position + 1) := by
  obtain ⟨inside, rfl⟩ := List.getElem?_eq_some_iff.1 present
  exact List.drop_eq_getElem_cons inside

/-- The characters of a match are a variable. -/
theorem Matched.isVariable_extract (matched : Matched text start stop) :
    isVariable (text.extract start stop) = true := by
  obtain ⟨lead, second, leading⟩ := matched.lead
  have long := matched.long
  obtain ⟨count, length⟩ : ∃ count, stop - start = count + 2 := ⟨stop - start - 2, by omega⟩
  rw [List.extract_eq_take_drop, drop_eq_cons matched.letter, drop_eq_cons second, length,
    List.take_succ_cons, List.take_succ_cons, isVariable, leading, Bool.true_and, List.all_eq_true]
  intro char member
  obtain ⟨index, listed⟩ := List.mem_iff_getElem?.1 member
  rw [List.getElem?_take, List.getElem?_drop] at listed
  split_ifs at listed with inside
  obtain ⟨digit, present, isDigit⟩ := matched.digits (start + 1 + 1 + index) (by omega) (by omega)
  rw [listed] at present
  rwa [Option.some.inj present]

/-- A match ends inside the text. -/
theorem Matched.stop_le_length (matched : Matched text start stop) : stop ≤ text.length := by
  have long := matched.long
  obtain ⟨char, present, -⟩ := matched.isDigit_of_lt (show start < stop - 1 by omega) (by omega)
  obtain ⟨inside, -⟩ := List.getElem?_eq_some_iff.1 present
  omega

theorem Matched.add_length (matched : Matched text start stop) :
    start + (text.extract start stop).length = stop := by
  have inside := matched.stop_le_length
  have long := matched.long
  rw [List.extract_eq_take_drop, List.length_take, List.length_drop]
  omega

/-- The identifier that begins at a position is the text of the match there. -/
theorem identifierAt?_drop_eq_some_iff :
    identifierAt? (characterBefore none text start) (text.drop start) = some name ↔
      ∃ stop, Matched text start stop ∧ text.extract start stop = name := by
  rw [identifierAt?_eq_some_iff]
  constructor
  · rintro ⟨clear, variableName, back, split, separate⟩
    obtain ⟨lead, digits, rfl, leading, digit⟩ := exists_of_isVariable variableName
    have place (index : Nat) : text[start + index]? = ('x' :: lead :: digits ++ back)[index]? := by
      rw [← split, List.getElem?_drop]
    refine ⟨start + (digits.length + 2), ⟨clear, place 0, ⟨lead, place 1, leading⟩, by omega,
      fun index low high => ?_, ?_⟩, ?_⟩
    · obtain ⟨offset, rfl⟩ : ∃ offset, index = start + (offset + 2) :=
        ⟨index - start - 2, by omega⟩
      have inside : offset < digits.length := by omega
      refine ⟨digits[offset], ?_, digit _ (List.getElem_mem inside)⟩
      rw [place, List.cons_append, List.cons_append, List.getElem?_cons_succ,
        List.getElem?_cons_succ, List.getElem?_append_left inside]
      exact List.getElem?_eq_getElem inside
    · rw [place, List.cons_append, List.cons_append, List.getElem?_cons_succ,
        List.getElem?_cons_succ, List.getElem?_append_right le_rfl, Nat.sub_self,
        ← List.head?_eq_getElem?]
      exact separate
    · rw [List.extract_eq_take_drop, split]
      simp
  · rintro ⟨stop, matched, rfl⟩
    have inside := matched.stop_le_length
    have long := matched.long
    refine ⟨matched.clear, matched.isVariable_extract, text.drop stop, ?_, ?_⟩
    · have behind : text.drop stop = (text.drop start).drop (stop - start) := by
        rw [List.drop_drop, show start + (stop - start) = stop by omega]
      rw [List.extract_eq_take_drop, behind, List.take_append_drop]
    · rw [List.head?_drop]
      exact matched.separate

/-- The identifiers of a text, position by position. -/
theorem identifiersAfter_eq_filterMap (before : Option Char) (text : List Char) :
    identifiersAfter before text = (List.range text.length).filterMap fun position =>
      identifierAt? (characterBefore before text position) (text.drop position) := by
  induction text generalizing before with
  | nil => rfl
  | cons char rest ih =>
    have shifted (position : Nat) :
        characterBefore before (char :: rest) (position + 1) =
          characterBefore (some char) rest position := by
      cases position <;> rfl
    rw [identifiersAfter_cons, ih, List.length_cons, List.range_succ_eq_map, List.filterMap_cons,
      List.filterMap_map]
    simp only [Function.comp_def, shifted, List.drop_succ_cons, List.drop_zero]
    change (identifierAt? before (char :: rest)).toList ++ _ = _
    cases found : identifierAt? before (char :: rest) <;> simp [characterBefore, found]

/-- A search that goes on from a position: it finds the first match that begins there or later, and
goes on where that match ends. -/
inductive Search (text : List Char) : Nat → List (Nat × Nat) → Prop
  | finished {position} (absent : ∀ start stop, position ≤ start → ¬ Matched text start stop) :
      Search text position []
  | found {position start stop rest} (after : position ≤ start) (matched : Matched text start stop)
      (first : ∀ earlier earlierStop, position ≤ earlier → earlier < start →
        ¬ Matched text earlier earlierStop)
      (further : Search text stop rest) : Search text position ((start, stop) :: rest)

/-- A list of all matches in their order is what a search finds. -/
theorem Search.of_mem_iff {places : List (Nat × Nat)} {position : Nat}
    (listed : ∀ start stop, (start, stop) ∈ places ↔ Matched text start stop ∧ position ≤ start)
    (ordered : places.Pairwise fun earlier later => earlier.2 ≤ later.1) :
    Search text position places := by
  induction places generalizing position with
  | nil =>
    exact .finished fun start stop after matched =>
      List.not_mem_nil ((listed start stop).2 ⟨matched, after⟩)
  | cons place rest ih =>
    obtain ⟨start, stop⟩ := place
    obtain ⟨before, ordered⟩ := List.pairwise_cons.1 ordered
    obtain ⟨matched, after⟩ := (listed start stop).1 List.mem_cons_self
    have long := matched.long
    refine .found after matched (fun earlier earlierStop late early other => ?_)
      (ih (fun later laterStop => ⟨fun member => ?_, fun ⟨other, late⟩ => ?_⟩) ordered)
    · rcases List.mem_cons.1 ((listed earlier earlierStop).2 ⟨other, late⟩) with same | member
      · exact absurd (Prod.mk.inj same).1 early.ne
      · have behind := before _ member
        simp only at behind
        omega
    · exact ⟨((listed later laterStop).1 (List.mem_cons_of_mem _ member)).1, before _ member⟩
    · rcases List.mem_cons.1 ((listed later laterStop).2 ⟨other, by omega⟩) with same | member
      · have behind := (Prod.mk.inj same).1
        omega
      · exact member

/-- The places of all matches of a text, in order. -/
def matchPlaces (text : List Char) : List (Nat × Nat) :=
  (List.range text.length).filterMap fun start =>
    (identifierAt? (characterBefore none text start) (text.drop start)).map fun name =>
      (start, start + name.length)

/-- The place that a position gives is that of the match there. -/
theorem map_identifierAt?_eq_some_iff {position : Nat} {place : Nat × Nat} :
    (identifierAt? (characterBefore none text position) (text.drop position)).map
        (fun name => (position, position + name.length)) = some place ↔
      place.1 = position ∧ Matched text place.1 place.2 := by
  obtain ⟨start, stop⟩ := place
  simp only [Option.map_eq_some_iff, identifierAt?_drop_eq_some_iff, Prod.mk.injEq]
  constructor
  · rintro ⟨name, ⟨stop, matched, rfl⟩, rfl, rfl⟩
    exact ⟨rfl, matched.add_length.symm ▸ matched⟩
  · rintro ⟨rfl, matched⟩
    exact ⟨_, ⟨stop, matched, rfl⟩, rfl, matched.add_length⟩

theorem mem_matchPlaces_iff : (start, stop) ∈ matchPlaces text ↔ Matched text start stop := by
  simp only [matchPlaces, List.mem_filterMap, List.mem_range, map_identifierAt?_eq_some_iff]
  constructor
  · rintro ⟨position, -, -, matched⟩
    exact matched
  · intro matched
    obtain ⟨inside, -⟩ := List.getElem?_eq_some_iff.1 matched.letter
    exact ⟨start, inside, rfl, matched⟩

theorem pairwise_matchPlaces (text : List Char) :
    (matchPlaces text).Pairwise fun earlier later => earlier.2 ≤ later.1 := by
  rw [matchPlaces, List.pairwise_filterMap]
  refine List.pairwise_lt_range.imp fun {first second} before earlier found later other => ?_
  obtain ⟨rfl, matched⟩ := map_identifierAt?_eq_some_iff.1 found
  obtain ⟨rfl, another⟩ := map_identifierAt?_eq_some_iff.1 other
  exact matched.stop_le another before

/-- The identifiers of a text, with repetitions, are the texts of its matches. -/
theorem identifiersAfter_eq_map (text : List Char) : identifiersAfter none text =
    (matchPlaces text).map fun place => text.extract place.1 place.2 := by
  rw [identifiersAfter_eq_filterMap, matchPlaces, List.map_filterMap]
  refine List.filterMap_congr fun position _ => ?_
  cases found : identifierAt? (characterBefore none text position) (text.drop position) with
  | none => rfl
  | some name =>
    obtain ⟨stop, matched, rfl⟩ := identifierAt?_drop_eq_some_iff.1 found
    simp only [Option.map_some, matched.add_length]

/-- The texts of the given places. -/
def textsAt (text : List Char) (places : List (Nat × Nat)) : List String :=
  places.map fun place => String.ofList (text.extract place.1 place.2)

theorem identifiers_eq_eraseDups (text : String) :
    identifiers text = (textsAt text.toList (matchPlaces text.toList)).eraseDups := by
  rw [identifiers, identifiersAfter_eq_map, List.map_map, textsAt]
  rfl

/-- The identifiers of a text are the texts between its delimiters: the pattern fits nothing but
the delimited places, these lie one behind the other, and the search behind each match finds all of
them. The identifiers are their texts, each once, by first appearance. -/
theorem identifiers_delimited (text : String) :
    (∀ start stop, Matched text.toList start stop → Delimited text.toList start stop) ∧
    ∃ places : List (Nat × Nat),
      (∀ start stop, (start, stop) ∈ places ↔ Delimited text.toList start stop) ∧
      (places.Pairwise fun earlier later => earlier.2 ≤ later.1) ∧
      Search text.toList 0 places ∧
      (identifiers text).Nodup ∧
      (∀ name, name ∈ identifiers text ↔ name ∈ textsAt text.toList places) ∧
      (identifiers text).Pairwise fun first second =>
        (textsAt text.toList places).idxOf first < (textsAt text.toList places).idxOf second := by
  have listed (start stop : Nat) :
      (start, stop) ∈ matchPlaces text.toList ↔ Delimited text.toList start stop :=
    mem_matchPlaces_iff.trans ⟨Matched.delimited, Delimited.toMatched⟩
  refine ⟨fun start stop => Matched.delimited, matchPlaces text.toList, listed,
    pairwise_matchPlaces _, .of_mem_iff ?_ (pairwise_matchPlaces _), ?_⟩
  · intro start stop
    rw [mem_matchPlaces_iff, and_iff_left (Nat.zero_le start)]
  · rw [identifiers_eq_eraseDups]
    exact ⟨nodup_eraseDups _, fun name => List.mem_eraseDups, pairwise_idxOf_eraseDups _⟩

-- A letter and a superscript end the run of digits, but continue the word.
example : identifiers "x12x3 + 4x5² - x6 + x3" = ["x3", "x6"] := by decide +kernel

end Matches

end Simplex.Text

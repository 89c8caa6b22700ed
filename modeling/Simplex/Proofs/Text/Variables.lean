import Simplex.Proofs.Text.Identifier

/-!
# Variables in the order of their numbers

Numbering a list of names fails at the first name that has no number, and a variable has none only
when it has too many digits (`variableNumber_eq`). Otherwise the sorted list holds every name of the
given one exactly once, and the numbers do not decrease along it: `Sorted.of_sortByNumber`.
-/

namespace Simplex.Text

section Traversal

variable {α β ε : Type} {f : α → Except ε β} {inputs others : List α} {outputs : List β}
  {fault : ε}

/-- A traversal succeeds with the results of its members. -/
theorem mapM_eq_ok_iff : inputs.mapM f = .ok outputs ↔
    List.Forall₂ (fun input output => f input = .ok output) inputs outputs := by
  induction inputs generalizing outputs with
  | nil =>
    rw [List.forall₂_nil_left_iff, List.mapM_nil]
    exact ⟨fun done => (Except.ok.inj done).symm, fun empty => empty ▸ rfl⟩
  | cons input inputs ih =>
    rw [List.mapM_cons, List.forall₂_cons_left_iff]
    cases first : f input with
    | error fault => simp [bind, Except.bind]
    | ok output =>
      cases later : inputs.mapM f with
      | error fault => simp [bind, Except.bind, ← ih, later]
      | ok rest => simp [bind, Except.bind, pure, Except.pure, ← ih, later, eq_comm]

/-- Every member of a traversal that succeeds has its result. -/
theorem exists_output (traversed : inputs.mapM f = .ok outputs) {input : α}
    (member : input ∈ inputs) : ∃ output ∈ outputs, f input = .ok output := by
  have results := mapM_eq_ok_iff.1 traversed
  clear traversed
  induction results with
  | nil => cases member
  | @cons first output rest outputs read _ ih =>
    rcases List.mem_cons.1 member with rfl | later
    · exact ⟨output, List.mem_cons_self, read⟩
    · obtain ⟨found, listed, result⟩ := ih later
      exact ⟨found, List.mem_cons_of_mem _ listed, result⟩

/-- Every result of a traversal is the result of a member. -/
theorem exists_input (traversed : inputs.mapM f = .ok outputs) {output : β}
    (member : output ∈ outputs) : ∃ input ∈ inputs, f input = .ok output := by
  have results := mapM_eq_ok_iff.1 traversed
  clear traversed
  induction results with
  | nil => cases member
  | @cons input first inputs rest read _ ih =>
    rcases List.mem_cons.1 member with rfl | later
    · exact ⟨input, List.mem_cons_self, read⟩
    · obtain ⟨found, listed, result⟩ := ih later
      exact ⟨found, List.mem_cons_of_mem _ listed, result⟩

/-- A traversal that fails does so at the first member that fails. -/
theorem exists_first_fault (failed : inputs.mapM f = .error fault) :
    ∃ earlier input later, inputs = earlier ++ input :: later ∧
      (∀ other ∈ earlier, ∃ output, f other = .ok output) ∧ f input = .error fault := by
  induction inputs with
  | nil => cases failed
  | cons input inputs ih =>
    rw [List.mapM_cons] at failed
    cases first : f input with
    | error found =>
      rw [first] at failed
      obtain rfl : found = fault := Except.error.inj failed
      exact ⟨[], input, inputs, rfl, by simp, first⟩
    | ok output =>
      have later : inputs.mapM f = .error fault := by
        cases rest : inputs.mapM f <;> simp_all [bind, Except.bind, pure, Except.pure]
      obtain ⟨earlier, other, further, rfl, accepted, refused⟩ := ih later
      refine ⟨input :: earlier, other, further, rfl, fun member listed => ?_, refused⟩
      rcases List.mem_cons.1 listed with rfl | inEarlier
      · exact ⟨output, first⟩
      · exact accepted member inEarlier

/-- The results of a traversal are those of its members. -/
theorem filterMap_of_mapM_eq_ok (traversed : inputs.mapM f = .ok outputs) :
    inputs.filterMap (fun input => (f input).toOption) = outputs := by
  have results := mapM_eq_ok_iff.1 traversed
  clear traversed
  induction results with
  | nil => rfl
  | cons first _ ih => rw [List.filterMap_cons_some (by rw [first]; rfl), ih]

/-- A traversal of members of another one that succeeds also succeeds. -/
theorem mapM_eq_ok_filterMap (traversed : inputs.mapM f = .ok outputs)
    (members : ∀ other ∈ others, other ∈ inputs) :
    others.mapM f = .ok (others.filterMap fun other => (f other).toOption) := by
  cases again : others.mapM f with
  | ok results => rw [filterMap_of_mapM_eq_ok again]
  | error fault =>
    obtain ⟨earlier, other, later, rfl, -, refused⟩ := exists_first_fault again
    obtain ⟨output, -, accepted⟩ := exists_output traversed (members other (by simp))
    rw [refused] at accepted
    cases accepted

theorem nodup_eraseDups [BEq α] [LawfulBEq α] (values : List α) : values.eraseDups.Nodup := by
  match values with
  | [] => simp
  | value :: values =>
    rw [List.eraseDups_cons, List.nodup_cons]
    refine ⟨fun member => ?_, nodup_eraseDups _⟩
    have kept := (List.mem_filter.1 (List.mem_eraseDups.1 member)).2
    simp at kept
termination_by values.length
decreasing_by exact Nat.lt_succ_of_le (List.length_filter_le _ _)

end Traversal

section Number

variable {name : String}

/-- The number of digits in the name of a variable. -/
def digitCount (name : String) : Nat := (name.toList.drop 1).length

/-- The number that the digits of a name spell. -/
def spelledNumber (name : String) : Nat :=
  Decimal.ofDigits ((name.toList.drop 1).filterMap digitValue?)

/-- A variable has the number its digits spell, unless there are too many of them. -/
theorem variableNumber_eq (variableName : isVariable name.toList = true) :
    variableNumber name =
      if integerDigitLimit < digitCount name then .error (.tooLong (digitCount name))
      else .ok (spelledNumber name) := by
  unfold variableNumber digitCount spelledNumber
  obtain ⟨lead, rest, split, leading, digits⟩ := exists_of_isVariable variableName
  have digit : ∀ char ∈ lead :: rest, isDigit char = true :=
    List.forall_mem_cons.2 ⟨isDigit_of_isLeadingDigit leading, digits⟩
  rw [split]
  exact readInteger_of_digits digit (List.cons_ne_nil _ _)

end Number

section Sorting

variable {names others sorted : List String} {fault : IntegerFault}

/-- The names of one list without repetitions, in the order of their numbers. -/
structure Sorted (names sorted : List String) : Prop where
  distinct : sorted.Nodup
  mem_iff : ∀ name, name ∈ sorted ↔ name ∈ names
  ordered : ∃ numbers, sorted.mapM variableNumber = .ok numbers ∧ numbers.Pairwise (· ≤ ·)

theorem numberedName_eq_ok_iff {name : String} {numbered : Int × String} :
    numberedName name = .ok numbered ↔
      variableNumber name = .ok numbered.1 ∧ numbered.2 = name := by
  obtain ⟨number, text⟩ := numbered
  cases read : variableNumber name <;> simp [numberedName, read, Except.map, eq_comm]

theorem foldr_insertNumbered_perm (numbered : List (Int × String)) :
    (numbered.foldr insertNumbered []).Perm numbered := by
  induction numbered with
  | nil => exact .refl _
  | cons first rest ih => exact (insertNumbered_perm first _).trans (ih.cons first)

theorem pairwise_foldr_insertNumbered (numbered : List (Int × String)) :
    (numbered.foldr insertNumbered []).Pairwise fun first second => first.1 ≤ second.1 := by
  induction numbered with
  | nil => exact .nil
  | cons first rest ih => exact pairwise_insertNumbered first ih

/-- What sorting by number gives. -/
theorem Sorted.of_sortByNumber (found : sortByNumber names = .ok sorted) :
    Sorted names sorted := by
  unfold sortByNumber at found
  cases traversed : names.eraseDups.mapM numberedName with
  | error fault =>
    rw [traversed] at found
    cases found
  | ok numbered =>
    rw [traversed] at found
    obtain rfl := Except.ok.inj found
    -- Numbering keeps every name and sorting permutes the numbered names.
    have labels : numbered.map Prod.snd = names.eraseDups := by
      rw [← List.forall₂_eq_eq_eq, List.forall₂_map_left_iff]
      exact ((mapM_eq_ok_iff.1 traversed).imp
        fun _ _ read => (numberedName_eq_ok_iff.1 read).2).flip
    have perm := foldr_insertNumbered_perm numbered
    have permNames := (perm.map Prod.snd).trans (List.Perm.of_eq labels)
    have valued : ∀ pair ∈ numbered.foldr insertNumbered [],
        variableNumber pair.2 = .ok pair.1 := by
      intro pair member
      obtain ⟨name, -, read⟩ := exists_input traversed (perm.mem_iff.1 member)
      obtain ⟨value, same⟩ := numberedName_eq_ok_iff.1 read
      rw [same, value]
    refine ⟨permNames.nodup_iff.2 (nodup_eraseDups _),
      fun name => permNames.mem_iff.trans List.mem_eraseDups,
      (numbered.foldr insertNumbered []).map Prod.fst, mapM_eq_ok_iff.2 ?_,
      List.pairwise_map.2 (pairwise_foldr_insertNumbered numbered)⟩
    rw [List.forall₂_map_left_iff, List.forall₂_map_right_iff]
    exact List.forall₂_same.2 valued

/-- Sorting by number fails only at a name that has no number. -/
theorem exists_of_sortByNumber_eq_error (failed : sortByNumber names = .error fault) :
    ∃ name ∈ names, variableNumber name = .error fault := by
  unfold sortByNumber at failed
  cases traversed : names.eraseDups.mapM numberedName with
  | ok numbered =>
    rw [traversed] at failed
    cases failed
  | error found =>
    rw [traversed] at failed
    obtain rfl := Except.error.inj failed
    obtain ⟨earlier, name, later, split, -, unnumbered⟩ := exists_first_fault traversed
    have member : name ∈ names.eraseDups := split ▸ List.mem_append_right _ List.mem_cons_self
    refine ⟨name, List.mem_eraseDups.1 member, ?_⟩
    cases read : variableNumber name with
    | ok number => simp [numberedName, read, Except.map] at unnumbered
    | error fault => simpa [numberedName, read, Except.map] using unnumbered

/-- Every name of a sorted list has a number. -/
theorem Sorted.exists_number (sorting : Sorted names sorted) {name : String}
    (member : name ∈ names) : ∃ number, variableNumber name = .ok number := by
  obtain ⟨numbers, read, -⟩ := sorting.ordered
  obtain ⟨number, -, valued⟩ := exists_output read ((sorting.mem_iff name).2 member)
  exact ⟨number, valued⟩

/-- Two names have their numbers in order, as far as they have numbers. -/
def NumberLE (first second : String) : Prop :=
  ∀ low, variableNumber first = .ok low → ∀ high, variableNumber second = .ok high → low ≤ high

theorem toOption_variableNumber_eq_some_iff {name : String} {number : Int} :
    (variableNumber name).toOption = some number ↔ variableNumber name = .ok number := by
  cases variableNumber name <;> simp [Except.toOption]

theorem Sorted.pairwise (sorting : Sorted names sorted) : sorted.Pairwise NumberLE := by
  obtain ⟨numbers, read, ordered⟩ := sorting.ordered
  rw [← filterMap_of_mapM_eq_ok read, List.pairwise_filterMap] at ordered
  simp only [toOption_variableNumber_eq_some_iff] at ordered
  exact ordered

/-- Names that have different numbers are sorted alike in whatever order they are given. -/
theorem sortByNumber_congr (found : sortByNumber names = .ok sorted)
    (same : ∀ name, name ∈ others ↔ name ∈ names)
    (distinct : ∀ first ∈ names, ∀ second ∈ names,
      variableNumber first = variableNumber second → first = second) :
    sortByNumber others = .ok sorted := by
  have sorting : Sorted names sorted := .of_sortByNumber found
  cases again : sortByNumber others with
  | error fault =>
    obtain ⟨name, listed, unnumbered⟩ := exists_of_sortByNumber_eq_error again
    obtain ⟨number, numbered⟩ := sorting.exists_number ((same name).1 listed)
    rw [unnumbered] at numbered
    cases numbered
  | ok result =>
    have resorting : Sorted others result := .of_sortByNumber again
    have members (name : String) : name ∈ result ↔ name ∈ sorted := by
      rw [resorting.mem_iff, same, sorting.mem_iff]
    have perm := (List.perm_ext_iff_of_nodup resorting.distinct sorting.distinct).2 members
    refine congrArg Except.ok (perm.eq_of_pairwise ?_ resorting.pairwise sorting.pairwise)
    intro first second inResult inSorted le ge
    have firstListed := (sorting.mem_iff first).1 ((members first).1 inResult)
    have secondListed := (sorting.mem_iff second).1 inSorted
    obtain ⟨low, lowRead⟩ := sorting.exists_number firstListed
    obtain ⟨high, highRead⟩ := sorting.exists_number secondListed
    obtain rfl : low = high :=
      (le low lowRead high highRead).antisymm (ge high highRead low lowRead)
    exact distinct first firstListed second secondListed (lowRead.trans highRead.symm)

end Sorting

end Simplex.Text

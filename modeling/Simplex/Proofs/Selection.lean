import Simplex.Proofs.Ordering
import Simplex.Selection

/-!
# What a running best selects

Among ordered finite values both scans select the same thing, the first pair whose value
no other pair undercuts. `IsFirstLeast` says this of a pair by the place where it stands
in the list, and one more value changes it by `IsFirstLeast.concat` in either scan. A scan
that starts from infinity misses the values that do not lie below it (`foldl_better`).
Whatever the arithmetic, a scan selects one of the values it is given.
-/

namespace Simplex.Selection

variable {ι : Type}

section Scanned

variable {α : Type} [Scalar α]

theorem mem_of_foldl_better {values : List (ι × α)} {pair : ι × α}
    (found : values.foldl better none = some pair) : pair ∈ values := by
  induction values using List.reverseRecOn with
  | nil => cases found
  | append_singleton values next ih =>
    rw [List.foldl_concat, better] at found
    split_ifs at found
    · rw [← Option.some.inj found]
      exact List.mem_append_right _ (List.mem_singleton_self next)
    · exact List.mem_append_left _ (ih found)

/-- The label found is that of a scanned value. -/
theorem exists_mem_of_firstLeast? {values : List (ι × α)} {label : ι}
    (found : firstLeast? values = some label) : ∃ value, (label, value) ∈ values := by
  obtain ⟨pair, scanned, rfl⟩ := Option.map_eq_some_iff.1 found
  exact ⟨pair.2, mem_of_foldl_better scanned⟩

theorem foldl_smaller_mem (first : ι × α) (rest : List (ι × α)) :
    rest.foldl smaller first ∈ first :: rest := by
  induction rest generalizing first with
  | nil => exact List.mem_singleton_self first
  | cons next rest ih =>
    rw [List.foldl_cons]
    rcases List.mem_cons.1 (ih (smaller first next)) with kept | later
    · rw [kept, smaller]
      split_ifs <;> simp
    · exact List.mem_cons_of_mem _ (List.mem_cons_of_mem _ later)

/-- The index found is that of a scanned value. -/
theorem lt_of_leastIndex? {values : List α} {index : Nat}
    (found : leastIndex? values = some index) : index < values.length := by
  unfold leastIndex? at found
  split at found
  · rename_i unordered position
    rw [← Option.some.inj found]
    exact (List.findIdx?_eq_some_iff_getElem.1 position).1
  · split at found
    · cases found
    · rename_i first rest listed
      have member := foldl_smaller_mem first rest
      rw [← listed] at member
      obtain ⟨pair, position, swapped⟩ := List.mem_map.1 member
      rw [← Option.some.inj found, ← swapped]
      exact (List.getElem?_eq_some_iff.1 (List.mem_zipIdx_iff_getElem?.1 position)).1

end Scanned

section Least

variable {α : Type} [Scalar α] {values : List (ι × α)} {pair : ι × α}

/-- All labelled values compare with themselves. -/
def Ordered (values : List (ι × α)) : Prop := ∀ pair ∈ values, ¬ Scalar.Unordered pair.2

/-- The pair stands in the list behind greater values only and before values that are
no smaller. -/
def IsFirstLeast (values : List (ι × α)) (pair : ι × α) : Prop :=
  ∃ before after, values = before ++ pair :: after ∧
    (∀ earlier ∈ before, pair.2 < earlier.2) ∧ ∀ later ∈ after, pair.2 ≤ later.2

theorem IsFirstLeast.mem (least : IsFirstLeast values pair) : pair ∈ values := by
  obtain ⟨before, after, rfl, -, -⟩ := least
  simp

theorem isFirstLeast_singleton (pair : ι × α) : IsFirstLeast [pair] pair :=
  ⟨[], [], by simp⟩

theorem getElem?_labelled {α : Type} (values : List α) (index : Nat) :
    (values.zipIdx.map Prod.swap)[index]? = values[index]?.map (index, ·) := by
  simp only [List.getElem?_map, List.getElem?_zipIdx, Option.map_map, Nat.zero_add]
  rfl

/-- The first least value of a list labelled with its positions stands at its label, behind
greater values only. -/
theorem IsFirstLeast.getElem? {values : List α} {index : Nat} {value : α}
    (least : IsFirstLeast (values.zipIdx.map Prod.swap) (index, value)) :
    values[index]? = some value ∧
      ∀ earlier < index, ∀ other, values[earlier]? = some other → value < other := by
  obtain ⟨before, after, listed, smaller, -⟩ := least
  have place := getElem?_labelled values before.length
  rw [listed, List.getElem?_append_right le_rfl, Nat.sub_self, List.getElem?_cons_zero] at place
  obtain ⟨own, position, same⟩ := Option.map_eq_some_iff.1 place.symm
  obtain ⟨rfl, rfl⟩ := Prod.mk.inj same
  refine ⟨position, fun earlier inside other present => ?_⟩
  have label := getElem?_labelled values earlier
  rw [listed, List.getElem?_append_left inside, present, Option.map_some] at label
  exact smaller (earlier, other) (List.mem_of_getElem? label)

variable [OrderedScalar α]

theorem IsFirstLeast.le (least : IsFirstLeast values pair) (ordered : Ordered values) :
    ∀ other ∈ values, pair.2 ≤ other.2 := by
  have own := ordered pair least.mem
  obtain ⟨before, after, rfl, smaller, least⟩ := least
  intro other member
  have otherOrdered := ordered other member
  rcases List.mem_append.1 member with earlier | rest
  · have below := (OrderedScalar.lt_iff_not_le own otherOrdered).1 (smaller other earlier)
    exact (OrderedScalar.le_total own otherOrdered).resolve_right below
  · rcases List.mem_cons.1 rest with rfl | later
    · exact not_not.1 own
    · exact least other later

/-- A further value takes over exactly when it is strictly smaller. -/
theorem IsFirstLeast.concat (least : IsFirstLeast values pair) (next : ι × α)
    (ordered : Ordered (values ++ [next])) :
    IsFirstLeast (values ++ [next]) (if next.2 < pair.2 then next else pair) := by
  have listed : Ordered values := fun other member => ordered other (List.mem_append_left _ member)
  have nextOrdered := ordered next (by simp)
  have own := listed pair least.mem
  by_cases below : next.2 < pair.2
  · rw [if_pos below]
    refine ⟨values, [], rfl, ?_, by simp⟩
    intro earlier member
    rw [OrderedScalar.lt_iff_not_le nextOrdered (listed earlier member)]
    rw [OrderedScalar.lt_iff_not_le nextOrdered own] at below
    exact fun above => below (OrderedScalar.le_trans (least.le listed earlier member) above)
  · rw [if_neg below]
    rw [OrderedScalar.lt_iff_not_le nextOrdered own, not_not] at below
    obtain ⟨before, after, rfl, smaller, least⟩ := least
    refine ⟨before, after ++ [next], by simp, smaller, ?_⟩
    intro later member
    rcases List.mem_append.1 member with listed | last
    · exact least later listed
    · rwa [List.mem_singleton.1 last]

theorem foldl_smaller (first : ι × α) (rest : List (ι × α)) (ordered : Ordered (first :: rest)) :
    IsFirstLeast (first :: rest) (rest.foldl smaller first) := by
  induction rest using List.reverseRecOn with
  | nil => exact isFirstLeast_singleton first
  | append_singleton rest next ih =>
    rw [List.foldl_concat, ← List.cons_append]
    rw [← List.cons_append] at ordered
    refine (ih fun pair member => ordered pair ?_).concat next ordered
    exact List.mem_append_left _ member

/-- The index found is the first one of a value that no other one undercuts. -/
theorem leastIndex?_eq_some {values : List α} {index : Nat}
    (ordered : ∀ value ∈ values, ¬ Scalar.Unordered value)
    (found : leastIndex? values = some index) :
    ∃ value, values[index]? = some value ∧ (∀ other ∈ values, value ≤ other) ∧
      ∀ earlier < index, ∀ other, values[earlier]? = some other → value < other := by
  have none_unordered :
      values.findIdx? (fun value => decide (Scalar.Unordered value)) = none := by
    rw [List.findIdx?_eq_none_iff]
    exact fun value member => decide_eq_false (ordered value member)
  rw [leastIndex?, none_unordered] at found
  cases listed : values.zipIdx.map Prod.swap with
  | nil => simp [listed] at found
  | cons first rest =>
    simp only [listed, Option.some.injEq] at found
    have labelled : Ordered (first :: rest) := by
      rw [← listed]
      rintro _ member
      obtain ⟨pair, present, rfl⟩ := List.mem_map.1 member
      exact ordered pair.1 (List.fst_mem_of_mem_zipIdx present)
    have least := foldl_smaller first rest labelled
    subst found
    obtain ⟨position, greater⟩ := IsFirstLeast.getElem? (listed.symm ▸ least)
    refine ⟨_, position, fun other member => ?_, greater⟩
    obtain ⟨place, present⟩ := List.mem_iff_getElem?.1 member
    have label := getElem?_labelled values place
    rw [listed, present, Option.map_some] at label
    exact least.le labelled (place, other) (List.mem_of_getElem? label)

end Least

section Bounded

variable {α : Type} [Scalar α] [BoundedScalar α] {values : List (ι × α)}

/-- A scan that starts from infinity ends at the first least pair, and at nothing only when no
value lies below infinity. -/
theorem foldl_better (values : List (ι × α)) (ordered : Ordered values) :
    match values.foldl better none with
    | none => ∀ pair ∈ values, ¬ Scalar.BelowInfinity pair.2
    | some pair => Scalar.BelowInfinity pair.2 ∧ IsFirstLeast values pair := by
  induction values using List.reverseRecOn with
  | nil => simp
  | append_singleton values next ih =>
    have listed : Ordered values := fun pair member => ordered pair (List.mem_append_left _ member)
    have nextOrdered := ordered next (by simp)
    have scanned := ih listed
    rw [List.foldl_concat]
    cases found : values.foldl better none with
    | none =>
      rw [found] at scanned
      by_cases below : Scalar.BelowInfinity next.2
      · have improves : Scalar.Improves next.2 none := below
        simp only [better, Option.map_none, if_pos improves]
        refine ⟨below, values, [], rfl, fun earlier member => ?_, by simp⟩
        exact lt_of_belowInfinity nextOrdered (listed earlier member) below (scanned earlier member)
      · have stays : ¬ Scalar.Improves next.2 none := below
        simp only [better, Option.map_none, if_neg stays]
        intro pair member
        rcases List.mem_append.1 member with earlier | last
        · exact scanned pair earlier
        · rwa [List.mem_singleton.1 last]
    | some pair =>
      rw [found] at scanned
      obtain ⟨below, least⟩ := scanned
      have next_step := least.concat next ordered
      by_cases smaller : next.2 < pair.2
      · rw [if_pos smaller] at next_step
        have improves : Scalar.Improves next.2 (some pair.2) := smaller
        simp only [better, Option.map_some, if_pos improves]
        exact ⟨belowInfinity_of_lt nextOrdered (listed pair least.mem) smaller below, next_step⟩
      · rw [if_neg smaller] at next_step
        have stays : ¬ Scalar.Improves next.2 (some pair.2) := smaller
        simp only [better, Option.map_some, if_neg stays]
        exact ⟨below, next_step⟩

theorem isFirstLeast_of_firstLeast? (ordered : Ordered values) {label : ι}
    (found : firstLeast? values = some label) :
    ∃ value, Scalar.BelowInfinity value ∧ IsFirstLeast values (label, value) := by
  have scanned := foldl_better values ordered
  obtain ⟨pair, equal, rfl⟩ := Option.map_eq_some_iff.1 found
  rw [equal] at scanned
  exact ⟨pair.2, scanned⟩

theorem firstLeast?_eq_none_iff_above (ordered : Ordered values) :
    firstLeast? values = none ↔ ∀ pair ∈ values, ¬ Scalar.BelowInfinity pair.2 := by
  have scanned := foldl_better values ordered
  constructor
  · intro absent
    rwa [Option.map_eq_none_iff.1 absent] at scanned
  · intro above
    rw [firstLeast?, Option.map_eq_none_iff]
    cases found : values.foldl better none with
    | none => rfl
    | some pair =>
      rw [found] at scanned
      exact absurd scanned.1 (above pair scanned.2.mem)

end Bounded

section Exact

variable {values : List (ι × Rat)}

theorem ordered_exact (values : List (ι × Rat)) : Ordered values :=
  fun pair _ => not_unordered pair.2

theorem firstLeast?_eq_some {label : ι} (found : firstLeast? values = some label) :
    ∃ value, IsFirstLeast values (label, value) := by
  obtain ⟨value, -, least⟩ := isFirstLeast_of_firstLeast? (ordered_exact values) found
  exact ⟨value, least⟩

/-- In exact arithmetic a scan ends at nothing only when there is nothing to scan. -/
theorem firstLeast?_eq_none_iff : firstLeast? values = none ↔ values = [] := by
  rw [firstLeast?_eq_none_iff_above (ordered_exact values), List.eq_nil_iff_forall_not_mem]
  have below : ∀ value : Rat, Scalar.BelowInfinity value := by
    intro value bound infinite
    cases infinite
  exact forall₂_congr fun pair _ => by simp [below]

end Exact

end Simplex.Selection

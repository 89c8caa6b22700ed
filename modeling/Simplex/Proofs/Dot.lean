import Mathlib

/-!
# Products of lists

`dot` pairs two lists position by position, which is how a row of coefficients is
applied to a point. `dot_eq_sum` reads it as a sum over positions, the form in
which rows of a table are compared.
-/

namespace Simplex

/-- The sum of the products of two lists, position by position. -/
def dot (coefficients values : List Rat) : Rat :=
  (List.zipWith (· * ·) coefficients values).sum

@[simp] theorem dot_nil_right (coefficients : List Rat) : dot coefficients [] = 0 := by
  simp [dot]

@[simp] theorem dot_cons (coefficient value : Rat) (coefficients values : List Rat) :
    dot (coefficient :: coefficients) (value :: values) =
      coefficient * value + dot coefficients values := by
  simp [dot]

/-- Lists that are cut at the same position are multiplied part by part. -/
theorem dot_append {first second : List Rat} (rest others : List Rat)
    (fits : first.length = second.length) :
    dot (first ++ rest) (second ++ others) = dot first second + dot rest others := by
  induction first generalizing second with
  | nil =>
    obtain rfl : second = [] := List.length_eq_zero_iff.1 fits.symm
    simp
  | cons coefficient coefficients ih =>
    cases second with
    | nil => simp at fits
    | cons value values =>
      have shorter : dot (coefficients ++ rest) (values ++ others) =
          dot coefficients values + dot rest others := ih (by simpa using fits)
      rw [List.cons_append, List.cons_append, dot_cons, dot_cons, shorter]
      ring

/-- A list of two parts' length consists of such parts. -/
theorem exists_append_of_length {values : List Rat} {front back : Nat}
    (length : values.length = front + back) :
    ∃ first second, values = first ++ second ∧ first.length = front ∧ second.length = back :=
  ⟨values.take front, values.drop front, (List.take_append_drop front values).symm,
    by simp [length], by simp [length]⟩

/-- A product is the sum over the positions of one of the lists. -/
theorem dot_eq_sum {coefficients : List Rat} (values : List Rat) {count : Nat}
    (fits : coefficients.length ≤ count) :
    dot coefficients values =
      ∑ index ∈ Finset.range count, coefficients.getD index 0 * values.getD index 0 := by
  induction coefficients generalizing values count with
  | nil => simp [dot]
  | cons coefficient coefficients ih =>
    cases values with
    | nil => simp
    | cons value values =>
      obtain ⟨smaller, rfl⟩ : ∃ smaller, count = smaller + 1 :=
        ⟨count - 1, by simp only [List.length_cons] at fits; omega⟩
      have inside : coefficients.length ≤ smaller := by simpa using fits
      rw [dot_cons, ih values inside, Finset.sum_range_succ']
      simp only [List.getD_cons_succ, List.getD_cons_zero]
      ring

/-- The sum of a list runs over its positions. -/
theorem sum_eq_sum_getD (values : List Rat) :
    values.sum = ∑ index ∈ Finset.range values.length, values.getD index 0 := by
  induction values with
  | nil => simp
  | cons value values ih =>
    rw [List.sum_cons, ih, List.length_cons, Finset.sum_range_succ']
    simp only [List.getD_cons_succ, List.getD_cons_zero]
    ring

/-- Scaling the coefficients scales the product. -/
theorem dot_map_mul (factor : Rat) (coefficients values : List Rat) :
    dot (coefficients.map (factor * ·)) values = factor * dot coefficients values := by
  induction coefficients generalizing values with
  | nil => simp [dot]
  | cons coefficient coefficients ih =>
    cases values with
    | nil => simp
    | cons value values =>
      rw [List.map_cons, dot_cons, dot_cons, ih]
      ring

/-- Zero coefficients contribute nothing. -/
@[simp] theorem dot_replicate_zero (count : Nat) (values : List Rat) :
    dot (List.replicate count 0) values = 0 := by
  have scaled := dot_map_mul 0 (List.replicate count 0) values
  simpa using scaled

/-- The sum of the magnitudes of a list. -/
def absSum (values : List Rat) : Rat := (values.map (|·|)).sum

theorem absSum_eq_sum (values : List Rat) :
    absSum values = ∑ index ∈ Finset.range values.length, |values.getD index 0| := by
  rw [absSum, sum_eq_sum_getD, List.length_map]
  apply Finset.sum_congr rfl
  intro index member
  have inside := Finset.mem_range.1 member
  rw [List.getD_eq_getElem _ _ (by simpa using inside), List.getD_eq_getElem _ _ inside,
    List.getElem_map]

/-- Values that differ little give products that differ little. -/
theorem dot_le_of_near (coefficients : List Rat) {values others : List Rat} {gap : Rat}
    (near : ∀ index, |values.getD index 0 - others.getD index 0| ≤ gap) :
    dot coefficients values ≤ dot coefficients others + gap * absSum coefficients := by
  rw [dot_eq_sum values le_rfl, dot_eq_sum others le_rfl, absSum_eq_sum, Finset.mul_sum,
    ← Finset.sum_add_distrib]
  apply Finset.sum_le_sum
  intro index _
  have change := mul_le_mul_of_nonneg_left (near index) (abs_nonneg (coefficients.getD index 0))
  have bounded := (le_abs_self _).trans
    ((abs_mul (coefficients.getD index 0) (values.getD index 0 - others.getD index 0)).le.trans
      change)
  linarith

/-- The point reached from another one by going a number of times along a direction. -/
def along (point direction : List Rat) (times : Rat) : List Rat :=
  List.zipWith (fun start change => start + times * change) point direction

@[simp] theorem length_along (point direction : List Rat) (times : Rat) :
    (along point direction times).length = min point.length direction.length := by
  simp [along]

/-- A product changes along a direction by the product with the direction. -/
theorem dot_along (coefficients : List Rat) {point direction : List Rat}
    (fits : point.length = direction.length) (times : Rat) :
    dot coefficients (along point direction times) =
      dot coefficients point + times * dot coefficients direction := by
  induction coefficients generalizing point direction with
  | nil => simp [dot]
  | cons coefficient coefficients ih =>
    cases point with
    | nil =>
      obtain rfl : direction = [] := List.length_eq_zero_iff.1 fits.symm
      simp [along]
    | cons start point =>
      cases direction with
      | nil => simp at fits
      | cons change direction =>
        have rest := ih (by simpa using fits)
        simp only [along, List.zipWith_cons_cons, dot_cons] at rest ⊢
        rw [rest]
        ring

end Simplex

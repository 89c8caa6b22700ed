import Simplex.Proofs.Standard

/-!
# Rows as combinations of the initial rows

The entries of a row under the auxiliary columns are the weights with which the initial
constraint rows make it up; the objective row has the initial objective row in addition.
Pivots on constraint rows keep this, whatever columns they choose.
-/

namespace Simplex

open Finset

namespace Table

variable {initial table : Table Rat} {height width base : Nat}

/-- Every row is the combination of the initial constraint rows that its entries from the
column `base` on describe, and the objective row adds the initial objective row. -/
def CombinedFrom (initial : Table Rat) (height base : Nat) (table : Table Rat) : Prop :=
  ∀ row ≤ height, ∀ column, table.entry row column =
    (if row = height then initial.entry height column else 0) +
      ∑ weight ∈ range height, table.entry row (base + weight) * initial.entry weight column

/-- A pivot on a constraint row keeps the rows combinations of the initial ones. -/
theorem CombinedFrom.pivot (combined : CombinedFrom initial height base table)
    (sized : table.Sized height width) {pivotRow : Nat} (pivotColumn : Nat)
    (inside : pivotRow < height) :
    CombinedFrom initial height base (table.pivot pivotRow pivotColumn) := by
  intro row bound column
  have pivotCombined := combined pivotRow inside.le column
  rw [if_neg inside.ne, zero_add] at pivotCombined
  simp only [sized.entry_pivot pivotColumn inside.le]
  by_cases same : row = pivotRow
  · simp only [same, if_true, if_neg inside.ne, zero_add]
    rw [pivotCombined, sum_div]
    apply sum_congr rfl
    intro weight _
    ring
  · simp only [if_neg same]
    rw [combined row bound column, pivotCombined, sum_div, mul_sum, add_sub_assoc,
      ← sum_sub_distrib]
    congr 1
    apply sum_congr rfl
    intro weight _
    ring

end Table

namespace Program

open Table

variable {program : Program Rat}

/-- A program of upper bounds starts from the combinations with the unit weights. -/
theorem Fits.combinedFrom_primalTableau (fits : program.Fits)
    (senses : ∀ sense ∈ program.senses, sense = .atMost) :
    CombinedFrom program.primalTableau.table program.constraints.length
      program.objective.length program.primalTableau.table := by
  intro row bound column
  rcases bound.lt_or_eq with inside | rfl
  · obtain ⟨relation, listed⟩ := fits.exists_relation inside
    have atMost := senses _ (mem_of_mem_relations (List.mem_of_getElem? listed)).2.1
    have unit : ∀ weight ∈ range program.constraints.length,
        program.primalTableau.table.entry row (program.objective.length + weight) *
            program.primalTableau.table.entry weight column =
          if row = weight then program.primalTableau.table.entry row column else 0 := by
      intro weight member
      rw [(fits.entry_primalTableau listed).1 weight (mem_range.1 member), atMost]
      by_cases same : row = weight
      · simp [same, auxiliarySign]
      · simp [same, Ne.symm same]
    rw [if_neg inside.ne, zero_add, sum_congr rfl unit, sum_ite_eq,
      if_pos (mem_range.2 inside)]
  · have vanishes : ∀ weight ∈ range program.constraints.length,
        program.primalTableau.table.entry program.constraints.length
            (program.objective.length + weight) *
          program.primalTableau.table.entry weight column = 0 := by
      intro weight member
      rw [fits.cost_primalTableau.1 weight (mem_range.1 member), zero_mul]
    rw [if_pos rfl, sum_eq_zero vanishes, add_zero]

/-- Every frame of a run from the table of a program of upper bounds combines its rows. -/
theorem Fits.combinedFrom_frames (fits : program.Fits)
    (senses : ∀ sense ∈ program.senses, sense = .atMost) (options : Options Rat)
    {tableau : Tableau Rat} (table : tableau.table = program.primalTableau.table)
    (basis : List Nat) :
    ∀ frame ∈ (tableau.run options).frames basis,
      CombinedFrom program.primalTableau.table program.constraints.length
        program.objective.length frame.table := by
  have sized : tableau.table.Sized program.constraints.length
      (program.objective.length + program.constraints.length + 2) :=
    table ▸ fits.sized_primalTableau
  have kept : ∀ frame ∈ (tableau.run options).frames basis,
      RowEquivalent program.constraints.length
        (program.objective.length + program.constraints.length + 2) tableau.table frame.table ∧
      CombinedFrom program.primalTableau.table program.constraints.length
        program.objective.length frame.table := by
    refine Tableau.frames_induction ⟨sized.rowEquivalent_self, ?_⟩ ?_
    · rw [table]
      exact fits.combinedFrom_primalTableau senses
    · rintro frame row column ⟨equivalent, combined⟩ chosen
      obtain ⟨inside, positive, -⟩ := ratio_le_of_leaving? chosen.leaving
      rw [equivalent.sized.height_eq] at inside
      exact ⟨equivalent.pivot inside.le positive.ne',
        combined.pivot equivalent.sized column inside⟩
  exact fun frame member => (kept frame member).2

end Program

end Simplex

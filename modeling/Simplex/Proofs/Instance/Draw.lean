import Simplex.Proofs.Instance.Interval

/-!
# What a sampler draws

A sampler whose fractions lie between zero and one draws numbers that lie in their interval, as long
as it rounds monotonically and keeps the ends: `liesIn_draw` is the step and `repeatDraw_spec` the
run. The sampler of the twister does so, in any state: `twister_draws` and `twister_rounds`.
-/

namespace Simplex.Sampler

open Double

section Drawing

variable {σ : Type} {sampler : Sampler σ Float} {state : σ}

/-- The state of the source after a number of fractions were drawn. -/
def after (sampler : Sampler σ Float) (state : σ) : Nat → σ
  | 0 => state
  | count + 1 => (sampler.fraction (sampler.after state count)).2

/-- Whatever is drawn from a state on lies between zero and one, without the one. -/
def DrawsFractions (sampler : Sampler σ Float) (state : σ) : Prop :=
  ∀ count, 0 ≤ (sampler.fraction (sampler.after state count)).1 ∧
    (sampler.fraction (sampler.after state count)).1 < 1

/-- Positive doubles are rounded monotonically, and those that stand for multiples of a thousandth
are kept. -/
structure RoundsToThousandths (sampler : Sampler σ Float) : Prop where
  mono : ∀ {first second : Float}, Scalar.Finite first → Scalar.Finite second →
    0 < Double.toRat first → first ≤ second → sampler.round first ≤ sampler.round second
  keeps : ∀ {value : Float} {number : Rat}, StandsFor value number → 0 < number →
    (∃ count : Nat, number * 1000 = count) → sampler.round value = value

theorem after_succ (sampler : Sampler σ Float) (state : σ) (count : Nat) :
    sampler.after state (count + 1) = sampler.after (sampler.fraction state).2 count := by
  induction count with
  | zero => rfl
  | succ count ih => rw [after, ih, after]

/-- What is drawn after the first fraction is drawn from the next state. -/
theorem DrawsFractions.next (draws : sampler.DrawsFractions state) :
    sampler.DrawsFractions (sampler.fraction state).2 := by
  intro count
  rw [← after_succ]
  exact draws (count + 1)

/-- A number drawn from an interval whose ends are multiples of a thousandth lies in it. -/
theorem liesIn_draw {low high : Float} {least most : Rat} (rounds : sampler.RoundsToThousandths)
    (draws : sampler.DrawsFractions state) (spans : Spans low high least most)
    (lowest : ∃ count : Nat, least * 1000 = count) (highest : ∃ count : Nat, most * 1000 = count) :
    LiesIn least most (sampler.draw low high state).1 := by
  obtain ⟨nonnegative, less⟩ := draws 0
  change 0 ≤ (sampler.fraction state).1 at nonnegative
  change (sampler.fraction state).1 < 1 at less
  have fraction := standsFor_zero.liesIn standsFor_one nonnegative (Double.le_of_lt less)
  obtain ⟨above, below⟩ := spans.between_bounds fraction.finite fraction.least_le fraction.le_most
  have point := spans.lower.liesIn spans.upper above below
  have lowPositive : 0 < Double.toRat low := spans.lower.toRat_eq.symm ▸ spans.positive
  have pointPositive := spans.positive.trans_le point.least_le
  have roundedAbove := rounds.mono spans.lower.finite point.finite lowPositive above
  have roundedBelow := rounds.mono point.finite spans.upper.finite pointPositive below
  rw [rounds.keeps spans.lower spans.positive lowest] at roundedAbove
  rw [rounds.keeps spans.upper (spans.positive.trans spans.ordered) highest] at roundedBelow
  exact spans.lower.liesIn spans.upper roundedAbove roundedBelow

/-- What one drawing preserves of the source and says of the result, any number of drawings does. -/
theorem repeatDraw_spec {β : Type} {one : σ → β × σ} {Holds : σ → Prop} {Good : β → Prop}
    (step : ∀ state, Holds state → Good (one state).1 ∧ Holds (one state).2) (count : Nat)
    (holds : Holds state) :
    (repeatDraw one count state).1.length = count ∧
      (∀ value ∈ (repeatDraw one count state).1, Good value) ∧
        Holds (repeatDraw one count state).2 := by
  induction count generalizing state with
  | zero => exact ⟨rfl, by simp [repeatDraw], holds⟩
  | succ count ih =>
    obtain ⟨good, next⟩ := step state holds
    obtain ⟨length, others, last⟩ := ih next
    exact ⟨congrArg Nat.succ length, List.forall_mem_cons.2 ⟨good, others⟩, last⟩

/-- So many doubles, all of which lie in an interval. -/
structure Drawn (count : Nat) (least most : Rat) (values : List Float) : Prop where
  length : values.length = count
  liesIn : ∀ value ∈ values, LiesIn least most value

/-- Numbers drawn from an interval lie in it, however many are drawn. -/
theorem repeatDraw_draw {low high : Float} {least most : Rat} (rounds : sampler.RoundsToThousandths)
    (spans : Spans low high least most)
    (lowest : ∃ count : Nat, least * 1000 = count) (highest : ∃ count : Nat, most * 1000 = count)
    (count : Nat) (draws : sampler.DrawsFractions state) :
    Drawn count least most (repeatDraw (sampler.draw low high) count state).1 ∧
      sampler.DrawsFractions (repeatDraw (sampler.draw low high) count state).2 := by
  have step : ∀ state, sampler.DrawsFractions state →
      LiesIn least most (sampler.draw low high state).1 ∧
        sampler.DrawsFractions (sampler.draw low high state).2 :=
    fun state draws => ⟨liesIn_draw rounds draws spans lowest highest, draws.next⟩
  obtain ⟨length, liesIn, next⟩ := repeatDraw_spec step count draws
  exact ⟨⟨length, liesIn⟩, next⟩

end Drawing

section Twister

theorem twister_rounds : twister.RoundsToThousandths where
  mono := by
    intro first second firstFinite secondFinite positive below
    have values := toRat_le_toRat firstFinite secondFinite below
    change roundToPlaces 3 first ≤ roundToPlaces 3 second
    rw [roundToPlaces_eq_nearest firstFinite positive (by decide),
      roundToPlaces_eq_nearest secondFinite (positive.trans_le values) (by decide)]
    apply nearest_le_nearest
    have thousand : (0 : Rat) ≤ 10 ^ 3 := by norm_num
    have rounded := roundEven_mono (mul_le_mul_of_nonneg_right values thousand)
    gcongr
  keeps := by
    rintro value number stands positive ⟨count, multiple⟩
    have same := stands.toRat_eq
    subst same
    change roundToPlaces 3 value = value
    have scaled : Double.toRat value * 10 ^ 3 = count := by
      rw [← multiple]
      norm_num
    rw [roundToPlaces_eq_nearest stands.finite positive (by decide), scaled, roundEven_natCast,
      ← scaled, mul_div_cancel_right₀ _ (by norm_num), nearest_toRat positive]

/-- The numerator of the next fraction. -/
def fractionNumerator (state : Twister) : Nat :=
  (state.next.1 >>> 5).toNat * 0x4000000 + (state.next.2.next.1 >>> 6).toNat

theorem fractionNumerator_lt (state : Twister) : fractionNumerator state < 2 ^ 53 := by
  have high := state.next.1.toNat_lt
  have low := state.next.2.next.1.toNat_lt
  rw [fractionNumerator, UInt32.toNat_shiftRight, UInt32.toNat_shiftRight,
    Nat.shiftRight_eq_div_pow, Nat.shiftRight_eq_div_pow]
  change _ / 2 ^ 5 * _ + _ / 2 ^ 6 < _
  omega

/-- The next fraction is the double nearest to its numerator over `2 ^ 53`. -/
theorem fraction_twister (state : Twister) :
    (twister.fraction state).1 = nearest ((fractionNumerator state : Rat) / (2 ^ 53 : Nat)) := by
  have bits : (if fractionNumerator state = 0 then 0
      else nearestBits (fractionNumerator state) (2 ^ 53)) =
        bitsNear ((fractionNumerator state : Rat) / (2 ^ 53 : Nat)) := by
    split_ifs with zero
    · simp [zero, bitsNear]
    · exact nearestBits_eq_bitsNear (Nat.pos_of_ne_zero zero) (by decide)
  rw [nearest, ← bits]
  rfl

/-- The twister draws nothing but fractions. -/
theorem twister_draws (state : Twister) : twister.DrawsFractions state := by
  intro count
  generalize twister.after state count = state
  have below := fractionNumerator_lt state
  rw [fraction_twister]
  generalize fractionNumerator state = numerator at below
  have zero : nearest 0 = 0 := rfl
  refine ⟨zero ▸ nearest_le_nearest (by positivity), ?_⟩
  have small : (numerator : Rat) / (2 ^ 53 : Nat) < 1 := by
    rw [div_lt_one (by positivity)]
    exact_mod_cast below
  rcases Nat.eq_zero_or_pos numerator with rfl | positive
  · rw [Nat.cast_zero, zero_div, zero]
    exact lt_of_toRat_lt standsFor_zero.finite standsFor_one.finite
      (by rw [standsFor_zero.toRat_eq, standsFor_one.toRat_eq]; norm_num)
  · have stands := standsFor_nearest positive below (show -1074 ≤ -53 by decide) (by decide)
    have scaled : (numerator : Rat) * 2 ^ (-53 : Int) = numerator / (2 ^ 53 : Nat) := by
      rw [zpow_neg, ← div_eq_mul_inv]
      norm_num
    rw [scaled] at stands
    exact lt_of_toRat_lt stands.finite standsFor_one.finite
      (by rw [stands.toRat_eq, standsFor_one.toRat_eq]; exact small)

end Twister

end Simplex.Sampler

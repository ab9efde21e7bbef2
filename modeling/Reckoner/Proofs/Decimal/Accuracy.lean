import Reckoner.Proofs.Decimal.Quotients

/-! How far the results of operations and of sums of series are from the exact ones. A series is followed with
the rest of its sum in view: the total and what is still to come together move by a rounding error in each
step, and where the series stops what was to come is small. -/

namespace Reckoner.Decimal.Context

open Reckoner.Numeral

variable {c : Context} {q r : ℚ}

/-! ### The error of a rounding -/

/-- The number of the epsilon, below which terms do not count. -/
def grain (c : Context) : ℚ := 10 ^ (-(c.precision : ℤ))

theorem grain_pos (c : Context) : 0 < c.grain := pow_ten_pos _

theorem pow_sub_precision (c : Context) (k : ℤ) : (10 : ℚ) ^ (k - c.precision) = 10 ^ k * c.grain := by
  rw [grain, sub_eq_add_neg, zpow_add₀ (by norm_num)]

theorem grain_le_of_le {digits : Nat} (many : digits ≤ c.precision) : c.grain ≤ 1 / 10 ^ digits := by
  rw [grain, one_div, ← zpow_natCast, ← zpow_neg]
  exact zpow_le_zpow_right₀ (by norm_num) (by omega)

theorem grain_widen (c : Context) (digits : Nat) : (c.widen digits).grain = c.grain / 10 ^ digits := by
  rw [grain, grain, show (c.widen digits).precision = c.precision + digits from rfl, Nat.cast_add, neg_add,
    zpow_add₀ (by norm_num), zpow_neg _ (digits : ℤ), zpow_natCast, div_eq_mul_inv]

theorem le_mul_grain (many : r * 10 ^ c.precision ≤ q) : r ≤ q * c.grain := by
  rwa [grain, zpow_neg, zpow_natCast, ← div_eq_mul_inv, le_div_iff₀ (by positivity)]

theorem lastPlace_le {k : ℤ} (deep : c.tiniest ≤ k - c.precision) (nonzero : q ≠ 0) (small : |q| < 10 ^ k) :
    c.lastPlace q ≤ k - c.precision := by
  have first := (log_lt_iff (abs_pos.mpr nonzero)).mpr small
  unfold lastPlace
  split <;> omega

theorem round_near {k : ℤ} (deep : c.tiniest ≤ k - c.precision) (small : |q| < 10 ^ k)
    (rounded : c.round q = .ok r) : |r - q| ≤ 10 ^ (k - c.precision) / 2 := by
  by_cases zero : q = 0
  · rw [zero, round_zero] at rounded
    cases rounded
    rw [zero, sub_zero, abs_zero]
    exact (half_pos (pow_ten_pos _)).le
  rw [eq_roundAt_of_round rounded]
  have place : (10 : ℚ) ^ c.lastPlace q ≤ 10 ^ (k - c.precision) :=
    zpow_le_zpow_right₀ (by norm_num) (lastPlace_le deep zero small)
  linarith [roundAt_error (c.lastPlace q) q]

theorem round_exact (n place : ℤ) (deep : c.tiniest ≤ place) (few : |n| < 10 ^ c.precision)
    (rounded : c.round (n * 10 ^ place) = .ok r) : r = n * 10 ^ place := by
  by_cases zero : n = 0
  · rw [zero, Int.cast_zero, zero_mul, round_zero] at rounded
    cases rounded
    rw [zero, Int.cast_zero, zero_mul]
  have unit := pow_ten_pos place
  have nonzero : (n : ℚ) * 10 ^ place ≠ 0 := mul_ne_zero (by exact_mod_cast zero) unit.ne'
  have small : |(n : ℚ) * 10 ^ place| < 10 ^ (place + c.precision) := by
    rw [abs_mul, abs_of_pos unit, mul_comm, zpow_add₀ (by norm_num), zpow_natCast]
    exact mul_lt_mul_of_pos_left (by exact_mod_cast few) unit
  have last : c.lastPlace (n * 10 ^ place) ≤ place := by
    have within := lastPlace_le (c := c) (by omega) nonzero small
    omega
  obtain ⟨k, _, same⟩ := exists_pow_eq_mul last
  rw [eq_roundAt_of_round rounded]
  have multiple := roundAt_multiple (c.lastPlace (n * 10 ^ place)) (n * k)
  push_cast at multiple
  rwa [mul_assoc, ← same] at multiple

section
variable (precise : 0 < c.precision)
include precise

theorem abs_round_le {k : ℤ} (deep : c.tiniest ≤ k) (small : |q| ≤ 10 ^ k) (rounded : c.round q = .ok r) :
    |r| ≤ 10 ^ k := by
  by_cases zero : q = 0
  · rw [zero, round_zero] at rounded
    cases rounded
    rw [abs_zero]
    exact (pow_ten_pos k).le
  rw [eq_roundAt_of_round rounded]
  refine abs_roundAt_le ?_ small
  have positive := abs_pos.mpr zero
  have first : Int.log 10 |q| ≤ k := by
    have power := (pow_log_le positive).trans small
    exact (zpow_le_zpow_iff_right₀ (by norm_num)).mp power
  unfold lastPlace
  split <;> omega

theorem le_abs_round {k : ℤ} (deep : c.tiniest ≤ k) (large : 10 ^ k ≤ |q|) (rounded : c.round q = .ok r) :
    10 ^ k ≤ |r| := by
  have positive := (pow_ten_pos k).trans_le large
  have first := (le_log_iff positive).mpr large
  rw [eq_roundAt_of_round rounded]
  by_cases low : Int.log 10 |q| < c.least
  · rw [lastPlace, if_pos low]
    exact le_abs_roundAt deep large
  · have power : (10 : ℚ) ^ k ≤ 10 ^ Int.log 10 |q| := zpow_le_zpow_right₀ (by norm_num) first
    refine power.trans (le_abs_roundAt ?_ (pow_log_le positive))
    rw [lastPlace, if_neg low]
    omega

end

theorem round_nonneg (positive : 0 ≤ q) (rounded : c.round q = .ok r) : 0 ≤ r := by
  rw [eq_roundAt_of_round rounded]
  have least : ((0 : ℤ) : ℚ) * 10 ^ c.lastPlace q ≤ roundAt (c.lastPlace q) q :=
    le_roundAt (by simpa using positive)
  simpa using least

/-! ### Results of operations -/

namespace IsRounding

variable {z : Decimal} (rounding : c.IsRounding q z)
include rounding

theorem near (deep : c.least < 0) (k : Nat) (small : |q| < 10 ^ k) :
    |z.value - q| ≤ 10 ^ k / 2 * c.grain := by
  have error := round_near (k := k) (by rw [tiniest]; omega) (by exact_mod_cast small) rounding.rounded
  rw [pow_sub_precision, zpow_natCast] at error
  linarith

theorem nonneg (positive : 0 ≤ q) : 0 ≤ z.value := round_nonneg positive rounding.rounded

end IsRounding

theorem value_ofInt (n : Int) : (ofInt n).value = n := by
  rw [ofInt, value_finite, zpow_zero, mul_one, signed]
  rcases lt_or_ge n 0 with below | above
  · rw [if_pos (by simpa using below)]
    push_cast
    rw [← Int.cast_abs, abs_of_neg below]
    simp
  · rw [if_neg (by simpa using above)]
    push_cast
    rw [← Int.cast_abs, abs_of_nonneg above]

theorem value_one : one.value = 1 := by
  have whole := value_ofInt 1
  rwa [Int.cast_one] at whole

theorem value_zero : zero.value = 0 := by
  have whole := value_ofInt 0
  rwa [Int.cast_zero] at whole

/-! ### Sums of series -/

/-- What follows in a series after the term before `index`, as a multiple of the factor carried so far: the
factor is multiplied by `ratio` and weighed by `weight` for each term, and `fuel` terms are to come. -/
def tail (ratio weight : Nat → ℚ) : Nat → Nat → ℚ
  | 0, _ => 0
  | fuel + 1, index => ratio index * (weight index + tail ratio weight fuel (index + 1))

/-- Whether the terms of a series are near those of an exact one: with the rest of the sum, a term differs
from what was to come by `drift` at most, what is to come is bounded by `size`, and after a term that does not
count it is bounded by `rest`. -/
structure Follows (c : Context) (next : Nat → Decimal → Except Signal (Decimal × Decimal))
    (tail : Nat → Nat → ℚ) (holds : Nat → ℚ → Prop) (drift size rest : ℚ) : Prop where
  last : ∀ index, tail 0 index = 0
  bounded : ∀ fuel index factor, holds index factor → |factor * tail fuel index| ≤ size
  step : ∀ fuel index factor, factor.isFinite = true → holds index factor.value →
    Reaches (fun made => made.1.isFinite = true ∧ made.2.isFinite = true ∧ holds (index + 1) made.1.value ∧
      |made.2.value + made.1.value * tail fuel (index + 1) - factor.value * tail (fuel + 1) index| ≤ drift ∧
      (|made.2.value| < c.grain → |made.1.value * tail fuel (index + 1)| ≤ rest)) (next index factor)

section
variable (precise : 0 < c.precision) (deep : c.least < 0)
include precise deep

theorem epsilon_reaches : Reaches (fun z => z.isFinite = true ∧ z.value = c.grain) c.epsilon := by
  apply (scale_reaches precise rfl _).mono
  intro z rounding
  refine ⟨rounding.isFinite, ?_⟩
  have rounded := rounding.rounded
  rw [value_one] at rounded
  have exactly := round_exact (c := c) 1 (-c.precision) (by rw [tiniest]; omega)
    (by exact_mod_cast Nat.one_lt_pow precise.ne' (by decide)) (by exact_mod_cast rounded)
  rw [exactly, grain]
  simp

theorem lt_grain {size : Decimal} (rounding : c.IsRounding |q| size) (below : size.value < c.grain) :
    |q| < c.grain := by
  by_contra large
  have least := le_abs_round precise (k := -(c.precision : ℤ)) (by rw [tiniest]; omega)
    (by rw [abs_abs]; exact not_lt.mp large) rounding.rounded
  rw [abs_of_nonneg (rounding.nonneg (abs_nonneg _))] at least
  exact absurd below (not_lt.mpr least)

variable {next : Nat → Decimal → Except Signal (Decimal × Decimal)} {tail : Nat → Nat → ℚ}
  {holds : Nat → ℚ → Prop} {drift size rest : ℚ}

/-- Each step moves the sum of the total and what is to come by the drift and a rounding at most, and the stop
drops a rest at most. -/
theorem Follows.addTerms_reaches (follows : c.Follows next tail holds drift size rest) (k : Nat)
    {aim budget : ℚ} (remains : 0 ≤ rest) (room : |aim| + budget + size < 10 ^ k) {epsilon : Decimal}
    (finite : epsilon.isFinite = true) (known : epsilon.value = c.grain) (fuel index : Nat)
    {factor total : Decimal} (carried : factor.isFinite = true) (summed : total.isFinite = true)
    (held : holds index factor.value)
    (within : |total.value + factor.value * tail fuel index - aim| + fuel * (drift + 10 ^ k / 2 * c.grain) ≤ budget) :
    Reaches (fun sum => sum.total.isFinite = true ∧ |sum.total.value - aim| ≤ budget + rest)
      (c.addTerms epsilon next fuel index factor total) := by
  have grain := c.grain_pos
  have slack : 0 < (10 : ℚ) ^ k / 2 * c.grain := by positivity
  induction fuel generalizing index factor total with
  | zero =>
    refine .ok ⟨summed, ?_⟩
    rw [follows.last, mul_zero, add_zero, Nat.cast_zero, zero_mul, add_zero] at within
    linarith
  | succ fuel ih =>
    unfold addTerms
    apply (follows.step fuel index factor carried held).andThen
    intro made stepped
    obtain ⟨carries, finite', held', moved, stops⟩ := stepped
    have small := follows.bounded fuel (index + 1) made.1.value held'
    have positive : 0 ≤ drift := (abs_nonneg _).trans moved
    have steps : (0 : ℚ) ≤ fuel * (drift + 10 ^ k / 2 * c.grain) := by positivity
    rw [Nat.cast_succ] at within
    -- The exact sum with what is still to come.
    have exactly : |total.value + made.2.value + made.1.value * tail fuel (index + 1) - aim| ≤
        |total.value + factor.value * tail (fuel + 1) index - aim| + drift := by
      have split : total.value + made.2.value + made.1.value * tail fuel (index + 1) - aim =
          (total.value + factor.value * tail (fuel + 1) index - aim) +
            (made.2.value + made.1.value * tail fuel (index + 1) - factor.value * tail (fuel + 1) index) := by ring
      rw [split]
      exact (abs_add_le _ _).trans (by linarith)
    have fits : |total.value + made.2.value| < 10 ^ k := by
      have split : total.value + made.2.value =
          (total.value + made.2.value + made.1.value * tail fuel (index + 1) - aim) + aim -
            made.1.value * tail fuel (index + 1) := by ring
      rw [split]
      refine (abs_sub _ _).trans_lt ?_
      linarith [abs_add_le (total.value + made.2.value + made.1.value * tail fuel (index + 1) - aim) aim]
    apply (add_reaches precise summed finite').andThen
    intro sum rounding
    have error := rounding.near deep k fits
    have near : |sum.value + made.1.value * tail fuel (index + 1) - aim| ≤
        |total.value + factor.value * tail (fuel + 1) index - aim| + (drift + 10 ^ k / 2 * c.grain) := by
      have split : sum.value + made.1.value * tail fuel (index + 1) - aim =
          (sum.value - (total.value + made.2.value)) +
            (total.value + made.2.value + made.1.value * tail fuel (index + 1) - aim) := by ring
      rw [split]
      exact (abs_add_le _ _).trans (by linarith)
    apply (abs_reaches precise finite').andThen
    intro size measured
    rw [isLess_eq measured.isFinite finite]
    refine .ite (fun below => .ok ⟨rounding.isFinite, ?_⟩) fun _ => ih (index + 1) carries rounding.isFinite held' ?_
    · have dropped := stops (lt_grain precise deep measured (known ▸ of_decide_eq_true below))
      have split : sum.value - aim = (sum.value + made.1.value * tail fuel (index + 1) - aim) -
          made.1.value * tail fuel (index + 1) := by ring
      rw [split]
      exact (abs_sub _ _).trans (by linarith)
    · linarith

/-- The sum of a series is near that of the exact one, as many terms as are added at most. -/
theorem Follows.sumSeries_reaches (follows : c.Follows next tail holds drift size rest) (k : Nat)
    (remains : 0 ≤ rest) {first : Decimal} (finite : first.isFinite = true) (held : holds 1 first.value)
    (room : |first.value + first.value * tail seriesBound 1| +
      seriesBound * (drift + 10 ^ k / 2 * c.grain) + size < 10 ^ k) :
    Reaches (fun sum => sum.total.isFinite = true ∧
        |sum.total.value - (first.value + first.value * tail seriesBound 1)| ≤
          seriesBound * (drift + 10 ^ k / 2 * c.grain) + rest)
      (c.sumSeries first next) := by
  apply (epsilon_reaches precise deep).andThen
  rintro epsilon ⟨small, known⟩
  refine follows.addTerms_reaches precise deep k remains room small known _ _ finite finite held ?_
  rw [sub_self, abs_zero, zero_add]

end

end Reckoner.Decimal.Context

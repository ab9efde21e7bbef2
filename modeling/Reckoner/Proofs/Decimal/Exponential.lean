import Reckoner.Proofs.Decimal.Derivation
import Reckoner.Proofs.Decimal.Elementary
import Reckoner.Proofs.Decimal.NaturalConstants
import Reckoner.Proofs.Decimal.Powers
import Reckoner.Proofs.Decimal.Whole

/-! The exponential function. Its series is near it between minus one and one. The argument is brought there by
taking off multiples of the logarithm of two, and what the rounded multiple is off by, the exponential function
makes a factor. -/

namespace Reckoner.Decimal.Context

open Finset

/-! ### The nearest whole number -/

theorem roundToWhole_halfEven {z : Decimal} (given : z.isFinite = true) :
    (z.roundToWhole .halfEven).value = nearestEven z.value ∧ (z.roundToWhole .halfEven).toInt = nearestEven z.value :=
  roundToWhole_eq .halfEven given

/-! ### The series -/

/-- What is to come of the series of the exponential function. -/
def exponentialTail (x : ℚ) : Nat → Nat → ℚ := tail (fun n => x / n) fun _ => 1

section
variable {x : ℚ} (small : |x| ≤ 1)
include small

theorem abs_exponentialTail_le (fuel : Nat) {index : Nat} (counted : 1 ≤ index) :
    |exponentialTail x fuel index| ≤ 2 / index := by
  have count : (1 : ℚ) ≤ index := by exact_mod_cast counted
  induction fuel generalizing index with
  | zero =>
    rw [exponentialTail, tail, abs_zero]
    positivity
  | succ fuel ih =>
    have rest := ih (show 1 ≤ index + 1 by omega) (by push_cast; linarith)
    have less : (2 : ℚ) / (index + 1 : Nat) ≤ 1 := by
      rw [div_le_one (by positivity)]
      push_cast
      linarith
    rw [exponentialTail, tail, ← exponentialTail, abs_mul, abs_div, abs_of_pos (by linarith : (0 : ℚ) < index)]
    calc _ ≤ 1 / (index : ℚ) * 2 := by
          refine mul_le_mul (div_le_div_of_nonneg_right small (by linarith)) ?_ (abs_nonneg _) (by positivity)
          linarith [abs_one_add_le (exponentialTail x fuel (index + 1))]
      _ = 2 / index := by ring

theorem exponential_near : |((1 + 1 * exponentialTail x seriesBound 1 : ℚ) : ℝ) - Real.exp x| ≤ 10 ^ (-110 : ℤ) := by
  let power (n : Nat) : ℚ := x ^ n / n.factorial
  have next (n : Nat) : power (n + 1) = x / (n + 1 : Nat) * power n := by
    simp only [power]
    rw [Nat.factorial_succ, pow_succ]
    push_cast
    field_simp
  have exactly : 1 + 1 * exponentialTail x seriesBound 1 = ∑ i ∈ range (seriesBound + 1), x ^ i / i.factorial := by
    have start : power 0 = 1 := by simp [power]
    have sum := mul_tail_eq_sum (fun n => x / n) (fun _ => 1) power next seriesBound 0
    rw [start] at sum
    rw [exponentialTail, sum, sum_range_succ', add_comm]
    congr 1
    · apply sum_congr rfl
      intro i _
      rw [one_mul, Nat.zero_add, Nat.add_comm 1 i]
    · simp
  have size : |(x : ℝ)| ≤ 1 := (abs_cast_le small).trans_eq Rat.cast_one
  have bound := Real.exp_bound size (show 0 < seriesBound + 1 by decide)
  rw [exactly, abs_sub_comm]
  push_cast at bound ⊢
  refine bound.trans ?_
  have power : |(x : ℝ)| ^ (seriesBound + 1) ≤ 1 := pow_le_one₀ (abs_nonneg _) size
  refine (mul_le_of_le_one_left (by positivity) power).trans ?_
  norm_num [seriesBound, Nat.factorial]

end

/-- Whether a factor is as small as the terms of the exponential function are. -/
def Falling (index : Nat) (factor : ℚ) : Prop := 1 ≤ index ∧ |factor| ≤ 2 ∧ |factor| ≤ index

section
variable {c : Context} (working : c.Working) {x : Decimal} (given : x.isFinite = true) (small : |x.value| ≤ 1)
include working given small

theorem Working.exponentialTerm_reaches {factor : Decimal} {index : Nat} (carried : factor.isFinite = true)
    (falling : Falling index factor.value) :
    Reaches (fun made => made.1 = made.2 ∧ made.2.isFinite = true ∧
        |made.2.value - factor.value * (x.value / index)| ≤ 10 * c.grain)
      (c.productTerm pure x (fun n => n) index factor) := by
  obtain ⟨counted, few, _⟩ := falling
  have fine := working.fine
  have tiny := c.grain_pos
  have count : (1 : ℚ) ≤ index := by exact_mod_cast counted
  have product : |factor.value * x.value| ≤ 2 := by
    rw [abs_mul]
    exact (mul_le_mul few small (abs_nonneg _) (by norm_num)).trans (by norm_num)
  apply (mul_reaches working.precise carried given).andThen
  intro next multiplied
  have products := multiplied.near working.deep 1 (by linarith)
  rw [pow_one] at products
  have quotient : |next.value / index - factor.value * (x.value / index)| ≤ 5 * c.grain := by
    rw [← mul_div_assoc, ← sub_div, abs_div, abs_of_pos (by linarith : (0 : ℚ) < index), div_le_iff₀ (by linarith)]
    nlinarith
  have fits : |next.value / index| < 10 := by
    rw [abs_div, abs_of_pos (by linarith : (0 : ℚ) < index), div_lt_iff₀ (by linarith)]
    linarith [abs_sub_abs_le_abs_sub next.value (factor.value * x.value)]
  have nonzero : (ofInt (index : Int)).value ≠ 0 := by
    rw [value_ofInt]
    push_cast
    linarith
  refine (div_reaches working.precise multiplied.isFinite rfl nonzero).andThen ?_
  intro term divided
  rw [value_ofInt, Int.cast_natCast] at divided
  have divisions := divided.near working.deep 1 (by rwa [pow_one])
  rw [pow_one] at divisions
  refine .ok ⟨rfl, divided.isFinite, ?_⟩
  exact (abs_sub_le _ (next.value / index) _).trans (by linarith)

theorem Working.follows_exponential :
    c.Follows (c.productTerm pure x fun n => n) (exponentialTail x.value) Falling (20 * c.grain) 4 c.grain where
  last := fun _ => rfl
  bounded := by
    intro fuel index factor ⟨counted, few, _⟩
    have rest := abs_exponentialTail_le small fuel counted
    have less : (2 : ℚ) / index ≤ 2 := div_le_self (by norm_num) (by exact_mod_cast counted)
    rw [abs_mul]
    exact (mul_le_mul few (rest.trans less) (abs_nonneg _) (by norm_num)).trans (by norm_num)
  step := by
    intro fuel index factor carried falling
    refine (working.exponentialTerm_reaches given small carried falling).mono ?_
    rintro ⟨term, made⟩ ⟨same, finite, moved⟩
    obtain rfl : term = made := same
    obtain ⟨counted, few, less⟩ := falling
    have fine := working.fine
    have tiny := c.grain_pos
    have count : (1 : ℚ) ≤ index := by exact_mod_cast counted
    have rest := abs_exponentialTail_le small fuel (show 1 ≤ index + 1 by omega)
    have half : (2 : ℚ) / (index + 1 : Nat) ≤ 1 := by
      rw [div_le_one (by positivity)]
      push_cast
      linarith
    have size : |factor.value * (x.value / index)| ≤ 1 := by
      rw [abs_mul, abs_div, abs_of_pos (by linarith : (0 : ℚ) < index), ← mul_div_assoc, div_le_one (by linarith)]
      exact (mul_le_of_le_one_right (abs_nonneg _) small).trans less
    have width : |term.value| ≤ 2 := by
      linarith [abs_sub_abs_le_abs_sub term.value (factor.value * (x.value / index))]
    refine ⟨finite, finite, ⟨by omega, width, ?_⟩, ?_, ?_⟩
    · push_cast
      linarith
    · have split : term.value + term.value * exponentialTail x.value fuel (index + 1) -
          factor.value * exponentialTail x.value (fuel + 1) index =
          (term.value - factor.value * (x.value / index)) * (1 + exponentialTail x.value fuel (index + 1)) := by
        rw [exponentialTail, tail, ← exponentialTail]
        ring
      rw [split, abs_mul]
      have next := abs_one_add_le (exponentialTail x.value fuel (index + 1))
      calc _ ≤ 10 * c.grain * 2 := mul_le_mul moved (by linarith) (abs_nonneg _) (by linarith)
        _ = 20 * c.grain := by ring
    · intro stops
      rw [abs_mul]
      exact (mul_le_mul stops.le (rest.trans half) (abs_nonneg _) tiny.le).trans (mul_one _).le

theorem Working.expSeries_near :
    Reaches (fun sum => sum.total.isFinite = true ∧ |(sum.total.value : ℝ) - Real.exp x.value| ≤ 2502 * c.grain)
      (c.expSeries x) := by
  have fine := working.fine
  have tiny := c.grain_pos
  have least := working.pow_le_grain
  have follows := working.follows_exponential given small
  have held : Falling 1 one.value := by
    rw [value_one]
    exact ⟨le_rfl, by norm_num, by norm_num⟩
  have rest := follows.bounded seriesBound 1 one.value held
  have terms : (seriesBound : ℚ) = 100 := rfl
  refine (follows.sumSeries_reaches working.precise working.deep 1 tiny.le rfl held ?_).mono
    fun sum near => ⟨near.1, ?_⟩
  · rw [terms, value_one]
    rw [value_one] at rest
    linarith [abs_one_add_le (1 * exponentialTail x.value seriesBound 1)]
  · have cast := (Rat.cast_le (K := ℝ)).mpr near.2
    have limit := exponential_near small
    rw [terms, value_one] at cast
    push_cast at cast limit
    refine (abs_sub_le _ (1 + 1 * exponentialTail x.value seriesBound 1 : ℝ) _).trans ?_
    linarith

end

/-! ### Multiples of the logarithm of two -/

theorem exp_bounds {q : ℚ} (small : |q| ≤ 9 / 10) : (36 / 100 : ℝ) ≤ Real.exp q ∧ Real.exp q ≤ 28 / 10 := by
  have size : |(q : ℝ)| ≤ 9 / 10 := (abs_cast_le small).trans_eq (by norm_num)
  obtain ⟨low, high⟩ := abs_le.mp size
  have unit : (36 / 100 : ℝ) ≤ Real.exp (-1) := by
    rw [Real.exp_neg, le_inv_comm₀ (by norm_num) (Real.exp_pos 1)]
    linarith [Real.exp_one_lt_d9]
  refine ⟨unit.trans (Real.exp_le_exp.mpr (by linarith)), ?_⟩
  have one := Real.exp_le_exp.mpr (show (q : ℝ) ≤ 1 by linarith)
  linarith [Real.exp_one_lt_d9]

section
variable {c : Context} (working : c.Working) {k : Constants} (natural : k.Natural c.precision)
include working natural

omit working natural in
theorem pow_mul_grain (digits : Nat) : 10 ^ digits * c.grain = 10 ^ ((digits : ℤ) - c.precision) := by
  rw [pow_sub_precision, zpow_natCast]

omit natural in
/-- The multiple of the logarithm of two next to an argument is little more than half of one from it. -/
theorem nearestTwos_near {x q : Decimal} (ratio : |x.value / k.lnTwo.value| < 10 ^ c.precision)
    (divided : c.IsRounding (x.value / k.lnTwo.value) q) :
    |x.value / k.lnTwo.value - nearestEven q.value| ≤ 55 / 100 := by
  have deep := working.deep
  obtain ⟨places, split⟩ : ∃ places, c.precision = places + 1 :=
    ⟨c.precision - 1, by have precise := working.precise; omega⟩
  rw [abs_sub_comm]
  rcases lt_or_ge |x.value / k.lnTwo.value| (10 ^ places) with small | large
  · have first := divided.near deep places small
    have unit := pow_mul_grain (c := c) places
    rw [split, Nat.cast_add, Nat.cast_one, sub_add_cancel_left, zpow_neg_one] at unit
    have second := nearestEven_near q.value
    rw [abs_sub_comm] at second
    exact (abs_sub_le _ q.value _).trans (by linarith)
  · -- The quotient has no digits behind the point.
    have normal : c.Normal (x.value / k.lnTwo.value) := by
      refine .inr (le_trans ?_ large)
      exact (zpow_le_one_of_nonpos₀ (by norm_num) deep.le).trans (one_le_pow₀ (by norm_num))
    obtain ⟨n, whole⟩ := normal.multipleOf divided (k := places) (by exact_mod_cast large)
    rw [split, Nat.cast_add, Nat.cast_one, add_sub_cancel_right, sub_self, zpow_zero, mul_one] at whole
    have first := divided.near deep c.precision ratio
    have unit := pow_mul_grain (c := c) c.precision
    rw [sub_self, zpow_zero] at unit
    have kept : nearestEven n = n := Rounding.whole_intCast .halfEven n
    rw [whole, kept, ← whole]
    linarith

variable {digits : Nat} (enough : digits ≤ c.precision)
include enough

/-- What is left of an argument, once the multiple of the logarithm of two next to it is taken off, is small and
off by little more than the rounding of the multiple. -/
theorem rest_near {x q m rest : Decimal} (small : |x.value| + 1 ≤ 10 ^ digits)
    (fits : |x.value| + 1 ≤ 69 / 100 * 10 ^ c.precision) (divided : c.IsRounding (x.value / k.lnTwo.value) q)
    (multiplied : c.IsRounding (nearestEven q.value * k.lnTwo.value) m)
    (subtracted : c.IsRounding (x.value - m.value) rest) :
    |rest.value| ≤ 9 / 10 ∧
      |(rest.value : ℝ) + nearestEven q.value * Real.log 2 - x.value| ≤ (53 / 100 * 10 ^ digits + 1) * c.grain := by
  have deep := working.deep
  have tiny := c.grain_pos
  have fine := working.fine
  have share : 10 ^ digits * c.grain ≤ 1 := by
    rw [pow_mul_grain]
    exact zpow_le_one_of_nonpos₀ (by norm_num) (by omega)
  have power : (1 : ℚ) ≤ 10 ^ digits := one_le_pow₀ (by norm_num)
  obtain ⟨low, high⟩ := lnTwo_bounds working natural
  have positive : 0 < k.lnTwo.value := by linarith
  have ratio : |x.value / k.lnTwo.value| < 10 ^ c.precision := by
    rw [abs_div, abs_of_pos positive, div_lt_iff₀ positive]
    have scaled := mul_le_mul_of_nonneg_left low (show (0 : ℚ) ≤ 10 ^ c.precision by positivity)
    linarith
  have step := nearestTwos_near working ratio divided
  generalize nearestEven q.value = n at multiplied step ⊢
  have apart : |n * k.lnTwo.value - x.value| ≤ 385 / 1000 := by
    have split : n * k.lnTwo.value - x.value = -(x.value / k.lnTwo.value - n) * k.lnTwo.value := by
      field_simp
      ring
    rw [split, abs_mul, abs_neg, abs_of_pos positive]
    exact (mul_le_mul step high positive.le (by norm_num)).trans_eq (by norm_num)
  have size : |n * k.lnTwo.value| < 10 ^ digits := by
    linarith [abs_sub_abs_le_abs_sub (n * k.lnTwo.value) x.value]
  have third := multiplied.near deep digits size
  have left : |x.value - m.value| ≤ 885 / 1000 := by
    rw [abs_sub_comm]
    exact (abs_sub_le _ (n * k.lnTwo.value) _).trans (by linarith)
  have fourth := subtracted.near deep 0 (by linarith)
  rw [pow_zero] at fourth
  refine ⟨by linarith [abs_sub_abs_le_abs_sub rest.value (x.value - m.value)], ?_⟩
  have count : |(n : ℝ)| ≤ 145 / 100 * 10 ^ digits := by
    have bound : |(n : ℚ)| ≤ 145 / 100 * 10 ^ digits := by
      rw [abs_mul, abs_of_pos positive] at size
      nlinarith [abs_nonneg (n : ℚ)]
    exact (abs_cast_le bound).trans_eq (by norm_num)
  have drift : |(n : ℝ) * (k.lnTwo.value - Real.log 2)| ≤ 145 / 100 * 10 ^ digits * (1 / 50 * c.grain) := by
    rw [abs_mul]
    exact mul_le_mul count (lnTwo_near natural) (abs_nonneg _) (by positivity)
  have split : (rest.value : ℝ) + n * Real.log 2 - x.value =
      (rest.value - (x.value - m.value)) - (m.value - n * k.lnTwo.value) - n * (k.lnTwo.value - Real.log 2) := by ring
  have third := (Rat.cast_le (K := ℝ)).mpr third
  have fourth := (Rat.cast_le (K := ℝ)).mpr fourth
  push_cast at third fourth
  rw [split]
  refine (abs_sub _ _).trans ?_
  have parts := abs_sub ((rest.value : ℝ) - (x.value - m.value)) (m.value - n * k.lnTwo.value)
  have real : (0 : ℝ) < c.grain := Rat.cast_pos.mpr tiny
  have product : (0 : ℝ) ≤ 10 ^ digits * c.grain := by positivity
  linarith

/-- What the exponential function of an argument is found as is near that of an argument next to it. -/
theorem expWork_near (finite : k.AllFinite) (refuses : c.refusesSubnormal = true) {x : Decimal}
    (given : x.isFinite = true)
    (small : |x.value| + 1 ≤ 10 ^ digits) (fits : |x.value| + 1 ≤ 69 / 100 * 10 ^ c.precision) :
    Yields (fun z => z.isFinite = true ∧ ∃ moved : ℝ, |moved| ≤ (53 / 100 * 10 ^ digits + 1) * c.grain ∧
        Within (7000 * c.grain : ℝ) z.value (Real.exp (x.value + moved))) (c.expWork k x) := by
  have precise := working.precise
  have fine := working.fine_real
  have tiny : (0 : ℝ) < c.grain := Rat.cast_pos.mpr c.grain_pos
  have nonzero : k.lnTwo.value ≠ 0 := by linarith [(lnTwo_bounds working natural).1]
  refine (lift_yields (div_reaches precise given finite.lnTwo nonzero).yields).andThen ?_
  intro q divided
  obtain ⟨whole, part⟩ := roundToWhole_halfEven divided.isFinite
  have sound := isFinite_roundToWhole .halfEven divided.isFinite
  dsimp only
  rw [part]
  refine (lift_yields (mul_reaches precise sound finite.lnTwo).yields).andThen ?_
  intro m multiplied
  rw [whole] at multiplied
  refine (lift_yields (sub_reaches precise given multiplied.isFinite).yields).andThen ?_
  intro rest subtracted
  obtain ⟨less, moved⟩ := rest_near working natural enough small fits divided multiplied subtracted
  generalize nearestEven q.value = n at moved ⊢
  have series := working.expSeries_near subtracted.isFinite (less.trans (by norm_num))
  refine (lift_yields series.yields).andThen ?_
  rintro sum ⟨summed, near⟩
  have power := power_concludes precise refuses (b := 2) le_rfl (by decide) n
  refine (lift_yields power.yields).andThen ?_
  rintro scale ⟨scaled, close⟩
  refine lift_yields ?_
  intro z found
  have rounding := (mul_reaches precise summed scaled).yields z found
  refine ⟨rounding.isFinite, _, moved, ?_⟩
  have last := ((normal_of_round refuses rounding.rounded).within rounding).cast
  have close := close.cast
  push_cast at last close
  -- The exponential function of what is left is not small, so its error is one in parts of it as well.
  have below := (exp_bounds less).1
  have first : Within (6950 * c.grain : ℝ) sum.total.value (Real.exp rest.value) := by
    rw [Within, abs_of_pos (Real.exp_pos _)]
    nlinarith
  have product := last.trans (first.mul close (by linarith)) (by linarith)
  have whole : Real.exp rest.value * 2 ^ n = Real.exp (x.value + (rest.value + n * Real.log 2 - x.value)) := by
    rw [add_sub_cancel, Real.exp_add, mul_comm (n : ℝ), ← Real.rpow_def_of_pos (by norm_num), Real.rpow_intCast]
  rw [← whole]
  refine product.mono ?_
  have square : (c.grain : ℝ) * c.grain ≤ 1 / 10 ^ 6 * c.grain := mul_le_mul_of_nonneg_right fine tiny.le
  nlinarith

end

end Reckoner.Decimal.Context

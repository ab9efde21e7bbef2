import Reckoner.Proofs.Decimal.Accuracy
import Mathlib.Analysis.Complex.ExponentialBounds
import Mathlib.Analysis.SpecialFunctions.Trigonometric.Bounds
import Mathlib.Analysis.SpecialFunctions.Trigonometric.Series
import Mathlib.Analysis.SpecificLimits.Normed

/-! The series of the sine and the cosine. For an angle of at most 3.2 each is near the exact sum of the
same terms, and that sum is near the sine or cosine itself, in every context with 6 to 110 digits. -/

namespace Reckoner.Decimal.Context

open Finset

/-! ### The exact sums -/

/-- What is to come, times the factor carried so far, is a sum of weighed powers. -/
theorem mul_tail_eq_sum (ratio weight power : Nat → ℚ) (next : ∀ n, power (n + 1) = ratio (n + 1) * power n)
    (fuel n : Nat) : power n * tail ratio weight fuel (n + 1) =
      ∑ i ∈ range fuel, weight (n + 1 + i) * power (n + 1 + i) := by
  induction fuel generalizing n with
  | zero => simp [tail]
  | succ fuel ih =>
    rw [sum_range_succ', tail]
    have rest := ih (n + 1)
    rw [next] at rest
    have moved : ∑ i ∈ range fuel, weight (n + 1 + (i + 1)) * power (n + 1 + (i + 1)) =
        ∑ i ∈ range fuel, weight (n + 1 + 1 + i) * power (n + 1 + 1 + i) :=
      sum_congr rfl fun i _ => by rw [show n + 1 + (i + 1) = n + 1 + 1 + i by omega]
    rw [moved, ← rest, add_zero, next]
    ring

theorem pow_div_factorial_le (m : Nat) {x : ℝ} (small : |x| ≤ 16 / 5) :
    |x| ^ m / m.factorial ≤ 3 ^ 13 * (1 / 4) ^ m := by
  have size : (0 : ℝ) ≤ 4 * |x| := by positivity
  have power := Real.pow_div_factorial_le_exp (4 * |x|) size m
  have large : Real.exp (4 * |x|) ≤ 3 ^ 13 := by
    calc Real.exp (4 * |x|) ≤ Real.exp 13 := Real.exp_le_exp.mpr (by linarith)
      _ = Real.exp 1 ^ 13 := by rw [← Real.exp_nat_mul]; norm_num
      _ ≤ 3 ^ 13 := pow_le_pow_left₀ (Real.exp_pos 1).le (by linarith [Real.exp_one_lt_d9]) 13
  rw [mul_pow, mul_div_assoc] at power
  have four : (0 : ℝ) < 4 ^ m := by positivity
  rw [one_div, inv_pow, ← div_eq_mul_inv, le_div_iff₀ four, mul_comm]
  exact power.trans large

/-- Terms that shrink so fast have sums that do not change after the last one that is added. -/
theorem sum_near {term : Nat → ℝ} {limit : ℝ} (converges : HasSum term limit)
    (shrink : ∀ n, |term n| ≤ 3 ^ 13 * (1 / 16) ^ n) :
    |∑ i ∈ range (seriesBound + 1), term i - limit| ≤ 10 ^ (-110 : ℤ) := by
  have near := norm_sub_le_of_geometric_bound_of_hasSum (by norm_num) shrink converges (seriesBound + 1)
  rw [Real.norm_eq_abs] at near
  refine near.trans ?_
  norm_num [seriesBound]

theorem abs_alternating_le (m n : Nat) {x : ℝ} (small : |x| ≤ 16 / 5) (later : 2 * n ≤ m) :
    |(-1) ^ n * x ^ m / m.factorial| ≤ 3 ^ 13 * (1 / 16) ^ n := by
  have positive : (0 : ℝ) < m.factorial := by exact_mod_cast m.factorial_pos
  rw [abs_div, abs_mul, abs_pow, abs_neg, abs_one, one_pow, one_mul, abs_pow, abs_of_pos positive]
  refine (pow_div_factorial_le m small).trans (mul_le_mul_of_nonneg_left ?_ (by norm_num))
  calc (1 / 4 : ℝ) ^ m ≤ (1 / 4) ^ (2 * n) := pow_le_pow_of_le_one (by norm_num) (by norm_num) later
    _ = (1 / 16) ^ n := by rw [pow_mul]; norm_num

/-! ### Alternating series -/

/-- The terms of the sine and the cosine: each is the one before with the other sign, times the square of
the angle and divided by two more factors of the factorial. -/
def alternate (c : Context) (square : Decimal) (divisor : Nat → Int) (index : Nat) (term : Decimal) :
    Except Signal (Decimal × Decimal) := do
  let term ← c.div (← c.mul (← c.neg term) square) (ofInt (divisor index))
  return (term, term)

/-- What is to come of an alternating series. -/
def alternatingTail (square : ℚ) (divisor : Nat → Int) : Nat → Nat → ℚ :=
  tail (fun n => -(square / divisor n)) fun _ => 1

/-- Whether the divisors of a series grow as those of the sine and the cosine do. -/
structure Grows (divisor : Nat → Int) : Prop where
  first : 2 ≤ divisor 1
  second : 12 ≤ divisor 2
  later : ∀ n, 3 ≤ n → 30 ≤ divisor n

/-- Whether a factor is as small as the terms of the sine and the cosine are. -/
def Moderate (square : ℚ) (divisor : Nat → Int) (index : Nat) (factor : ℚ) : Prop :=
  1 ≤ index ∧ |factor| ≤ 6 ∧ |factor| * square ≤ 11 / 2 * divisor index

theorem abs_one_add_le (q : ℚ) : |1 + q| ≤ 1 + |q| := (abs_add_le 1 q).trans_eq (by rw [abs_one])

section
variable {divisor : Nat → Int} (grows : Grows divisor)
include grows

theorem Grows.two_le {index : Nat} (counted : 1 ≤ index) : (2 : ℚ) ≤ divisor index := by
  have first := grows.first
  have second := grows.second
  have least : 2 ≤ divisor index := by
    rcases (by omega : index = 1 ∨ index = 2 ∨ 3 ≤ index) with rfl | rfl | later
    · exact first
    · omega
    · exact le_trans (by decide) (grows.later index later)
  exact_mod_cast least

theorem Grows.twelve_le {index : Nat} (counted : 2 ≤ index) : (12 : ℚ) ≤ divisor index := by
  have least : 12 ≤ divisor index := by
    rcases (by omega : index = 2 ∨ 3 ≤ index) with rfl | later
    · exact grows.second
    · exact le_trans (by decide) (grows.later index later)
  exact_mod_cast least

variable {square : ℚ} (positive : 0 ≤ square) (small : square ≤ 256 / 25)
include positive

/-- What is to come is bounded by the next ratio, if what follows it is no more than it. -/
theorem abs_alternatingTail_succ_le {fuel index : Nat} (counted : 1 ≤ index) {bound : ℚ}
    (ratio : 2 * square ≤ bound * divisor index) (rest : |alternatingTail square divisor fuel (index + 1)| ≤ 1) :
    |alternatingTail square divisor (fuel + 1) index| ≤ bound := by
  have divides : (0 : ℚ) < divisor index := by linarith [grows.two_le counted]
  have next : |1 + alternatingTail square divisor fuel (index + 1)| ≤ 2 := by
    linarith [abs_one_add_le (alternatingTail square divisor fuel (index + 1))]
  rw [alternatingTail, tail, ← alternatingTail, abs_mul, abs_neg, abs_div, abs_of_nonneg positive,
    abs_of_pos divides]
  calc square / divisor index * |1 + alternatingTail square divisor fuel (index + 1)|
      ≤ square / divisor index * 2 := mul_le_mul_of_nonneg_left next (div_nonneg positive divides.le)
    _ = 2 * square / divisor index := by ring
    _ ≤ bound := (div_le_iff₀ divides).mpr ratio

theorem Moderate.abs_term_le {index : Nat} {factor : ℚ} (moderate : Moderate square divisor index factor) :
    |factor * square / divisor index| ≤ 11 / 2 := by
  have divides : (0 : ℚ) < divisor index := by linarith [grows.two_le moderate.1]
  rw [abs_div, abs_mul, abs_of_nonneg positive, abs_of_pos divides]
  exact (div_le_iff₀ divides).mpr moderate.2.2

include small

theorem abs_alternatingTail_le_one (fuel : Nat) {index : Nat} (counted : 3 ≤ index) :
    |alternatingTail square divisor fuel index| ≤ 1 := by
  induction fuel generalizing index with
  | zero => simp [alternatingTail, tail]
  | succ fuel ih =>
    have divides : (30 : ℚ) ≤ divisor index := by exact_mod_cast grows.later index counted
    exact abs_alternatingTail_succ_le grows positive (by omega) (by linarith) (ih (by omega))

theorem abs_alternatingTail_le_two (fuel : Nat) {index : Nat} (counted : 2 ≤ index) :
    |alternatingTail square divisor fuel index| ≤ 2 := by
  cases fuel with
  | zero => simp [alternatingTail, tail]
  | succ fuel =>
    have divides := grows.twelve_le counted
    exact abs_alternatingTail_succ_le grows positive (by omega) (by linarith)
      (abs_alternatingTail_le_one grows positive small fuel (by omega))

theorem abs_one_add_alternatingTail_le (fuel : Nat) {index : Nat} (counted : 1 ≤ index) :
    |1 + alternatingTail square divisor fuel (index + 1)| ≤ 3 := by
  have rest := abs_alternatingTail_le_two grows positive small fuel (show 2 ≤ index + 1 by omega)
  linarith [abs_one_add_le (alternatingTail square divisor fuel (index + 1))]

theorem Moderate.abs_mul_tail_le {index : Nat} {factor : ℚ} (moderate : Moderate square divisor index factor)
    (fuel : Nat) :
    |factor * alternatingTail square divisor fuel index| ≤ 33 / 2 := by
  cases fuel with
  | zero =>
    rw [alternatingTail, tail, mul_zero, abs_zero]
    norm_num
  | succ fuel =>
    have split : factor * alternatingTail square divisor (fuel + 1) index =
        -(factor * square / divisor index) * (1 + alternatingTail square divisor fuel (index + 1)) := by
      rw [alternatingTail, tail, ← alternatingTail]
      ring
    rw [split, abs_mul, abs_neg]
    calc _ ≤ (11 / 2 : ℚ) * 3 := mul_le_mul (moderate.abs_term_le grows positive)
          (abs_one_add_alternatingTail_le grows positive small fuel moderate.1) (abs_nonneg _) (by norm_num)
      _ = 33 / 2 := by norm_num

end

section
variable {c : Context} {square : ℚ}

/-- A product of two numbers that are off by a little, and itself by a little more. -/
theorem product_near {factor opposite found product size bound turn error last : ℚ} (positive : 0 ≤ square)
    (small : square ≤ bound) (large : |opposite| ≤ size) (turned : |opposite + factor| ≤ turn)
    (squared : |found - square| ≤ error) (multiplied : |product - opposite * found| ≤ last) :
    |product + factor * square| ≤ last + (size * error + turn * bound) := by
  have first : |opposite * (found - square)| ≤ size * error := by
    rw [abs_mul]
    exact mul_le_mul large squared (abs_nonneg _) ((abs_nonneg _).trans large)
  have second : |(opposite + factor) * square| ≤ turn * bound := by
    rw [abs_mul, abs_of_nonneg positive]
    exact mul_le_mul turned small positive ((abs_nonneg _).trans turned)
  have split : product + factor * square =
      (product - opposite * found) + opposite * (found - square) + (opposite + factor) * square := by ring
  rw [split]
  exact (abs_add_three _ _ _).trans (by linarith)

theorem abs_div_add_le {divisor product exact error : ℚ} (large : 2 ≤ divisor) (near : |product + exact| ≤ error) :
    |product / divisor + exact / divisor| ≤ error / 2 := by
  rw [← add_div, abs_div, abs_of_pos (by linarith : (0 : ℚ) < divisor)]
  exact div_le_div₀ ((abs_nonneg _).trans near) near (by norm_num) large

variable (precise : 0 < c.precision) (deep : c.least < 0) (fine : c.grain ≤ 1 / 10 ^ 6) {divisor : Nat → Int}
  (grows : Grows divisor) (positive : 0 ≤ square) (small : square ≤ 256 / 25)
include precise deep fine grows positive small

theorem alternate_reaches {found factor : Decimal} {index : Nat} (finite : found.isFinite = true)
    (squared : |found.value - square| ≤ 50 * c.grain) (carried : factor.isFinite = true)
    (moderate : Moderate square divisor index factor.value) :
    Reaches (fun made => made.1 = made.2 ∧ made.2.isFinite = true ∧
        |made.2.value + factor.value * square / divisor index| ≤ 210 * c.grain)
      (c.alternate found divisor index factor) := by
  have term := moderate.abs_term_le grows positive
  obtain ⟨counted, moderate, _⟩ := moderate
  have unit := c.grain_pos
  have divides := grows.two_le counted
  apply (neg_reaches precise carried).andThen
  intro opposite turned
  have turns := turned.near deep 1 (by rw [abs_neg]; linarith)
  rw [sub_neg_eq_add, pow_one] at turns
  apply (mul_reaches precise turned.isFinite finite).andThen
  intro product multiplied
  have size : |opposite.value| ≤ 6 + 1 / 100 := by
    linarith [abs_sub_abs_le_abs_add opposite.value factor.value]
  have width : |found.value| ≤ 11 := by
    linarith [abs_sub_abs_le_abs_sub found.value square, abs_of_nonneg positive]
  have fits : |opposite.value * found.value| < 10 ^ 2 := by
    rw [abs_mul]
    exact (mul_le_mul size width (abs_nonneg _) (by norm_num)).trans_lt (by norm_num)
  have products := multiplied.near deep 2 fits
  have quotients := abs_div_add_le divides (product_near positive small size turns squared products)
  have fits : |product.value / divisor index| < 10 ^ 1 := by
    linarith [abs_sub_abs_le_abs_add (product.value / divisor index) (factor.value * square / divisor index)]
  have nonzero : (ofInt (divisor index)).value ≠ 0 := by
    rw [value_ofInt]
    linarith
  apply (div_reaches precise multiplied.isFinite rfl nonzero).andThen
  intro made divided
  rw [value_ofInt] at divided
  have divisions := divided.near deep 1 fits
  refine .ok ⟨rfl, divided.isFinite, ?_⟩
  have split : made.value + factor.value * square / divisor index = (made.value - product.value / divisor index) +
      (product.value / divisor index + factor.value * square / divisor index) := by ring
  rw [split]
  exact (abs_add_le _ _).trans (by linarith)

/-- An alternating series is followed within a few roundings for each term. -/
theorem follows_alternate {found : Decimal} (finite : found.isFinite = true)
    (squared : |found.value - square| ≤ 50 * c.grain) :
    c.Follows (c.alternate found divisor) (alternatingTail square divisor) (Moderate square divisor)
      (630 * c.grain) (33 / 2) (2 * c.grain) where
  last := fun _ => rfl
  bounded := fun fuel index factor moderate => moderate.abs_mul_tail_le grows positive small fuel
  step := by
    intro fuel index factor carried moderate
    apply (alternate_reaches precise deep fine grows positive small finite squared carried moderate).mono
    rintro ⟨term, made⟩ ⟨same, finite, moved⟩
    obtain rfl : term = made := same
    have bounded := moderate.abs_term_le grows positive
    obtain ⟨counted, _, _⟩ := moderate
    have unit := c.grain_pos
    have rest := abs_alternatingTail_le_two grows positive small fuel (show 2 ≤ index + 1 by omega)
    have next := abs_one_add_alternatingTail_le grows positive small fuel counted
    have less : |term.value| ≤ 6 := by
      linarith [abs_sub_abs_le_abs_add term.value (factor.value * square / divisor index)]
    refine ⟨finite, finite, ⟨by omega, less, ?_⟩, ?_, ?_⟩
    · have next := grows.twelve_le (show 2 ≤ index + 1 by omega)
      nlinarith [abs_nonneg term.value]
    · have split : term.value + term.value * alternatingTail square divisor fuel (index + 1) -
          factor.value * alternatingTail square divisor (fuel + 1) index =
          (term.value + factor.value * square / divisor index) *
            (1 + alternatingTail square divisor fuel (index + 1)) := by
        rw [alternatingTail, tail, ← alternatingTail]
        ring
      rw [split, abs_mul]
      calc _ ≤ 210 * c.grain * 3 := mul_le_mul moved next (abs_nonneg _) (by linarith)
        _ = 630 * c.grain := by ring
    · intro stops
      rw [abs_mul]
      calc _ ≤ c.grain * 2 := mul_le_mul stops.le rest (abs_nonneg _) unit.le
        _ = 2 * c.grain := by ring

/-- The sum of an alternating series is near the exact sum of as many terms. -/
theorem alternateSum_reaches {found first : Decimal} (finite : found.isFinite = true)
    (squared : |found.value - square| ≤ 50 * c.grain) (given : first.isFinite = true)
    (moderate : Moderate square divisor 1 first.value) :
    Reaches (fun sum => sum.total.isFinite = true ∧
        |sum.total.value - (first.value + first.value * alternatingTail square divisor seriesBound 1)| ≤
          68002 * c.grain)
      (c.sumSeries first (c.alternate found divisor)) := by
  have follows := follows_alternate precise deep fine grows positive small finite squared
  have rest := moderate.abs_mul_tail_le grows positive small seriesBound
  have unit := c.grain_pos
  have terms : (seriesBound : ℚ) = 100 := rfl
  refine (follows.sumSeries_reaches precise deep 2 (by linarith) given moderate ?_).mono ?_
  · rw [terms]
    linarith [abs_add_le first.value (first.value * alternatingTail square divisor seriesBound 1), moderate.2.1]
  · intro sum near
    refine ⟨near.1, near.2.trans_eq ?_⟩
    rw [terms]
    ring

end

/-! ### The sine and the cosine -/

theorem square_reaches {c : Context} (precise : 0 < c.precision) (deep : c.least < 0) {x : Decimal}
    (given : x.isFinite = true) (small : |x.value| ≤ 16 / 5) :
    Reaches (fun z => z.isFinite = true ∧ |z.value - x.value ^ 2| ≤ 50 * c.grain) (c.mul x x) := by
  apply (mul_reaches precise given given).mono
  intro z multiplied
  refine ⟨multiplied.isFinite, ?_⟩
  have fits : |x.value * x.value| < 10 ^ 2 := by
    rw [abs_mul]
    exact (mul_le_mul small small (abs_nonneg _) (by norm_num)).trans_lt (by norm_num)
  rw [pow_two]
  linarith [multiplied.near deep 2 fits]

theorem abs_cast_le {q bound : ℚ} (small : |q| ≤ bound) : |(q : ℝ)| ≤ bound := by
  exact_mod_cast small

theorem sq_le_of_abs_le {q : ℚ} (small : |q| ≤ 16 / 5) : q ^ 2 ≤ 256 / 25 := by
  have square := sq_le_sq' (abs_le.mp small).1 (abs_le.mp small).2
  linarith

/-- The factors of the factorial that the terms of the sine are divided by. -/
def sineDivisor (index : Nat) : Int := 2 * index * (2 * index + 1)

/-- The factors of the factorial that the terms of the cosine are divided by. -/
def cosineDivisor (index : Nat) : Int := (2 * index - 1) * (2 * index)

theorem sineDivisor_grows : Grows sineDivisor where
  first := by decide
  second := by decide
  later := by
    intro n later
    have least : (3 : ℤ) ≤ n := by exact_mod_cast later
    rw [sineDivisor]
    nlinarith

theorem cosineDivisor_grows : Grows cosineDivisor where
  first := by decide
  second := by decide
  later := by
    intro n later
    have least : (3 : ℤ) ≤ n := by exact_mod_cast later
    rw [cosineDivisor]
    nlinarith

/-- The terms of an alternating series, if each one is divided by the divisor more than the one before. -/
theorem sum_eq_alternatingTail {divisor : Nat → Int} {square : ℚ} {term : Nat → ℚ}
    (next : ∀ n, term (n + 1) = -(square / divisor (n + 1)) * term n) :
    term 0 + term 0 * alternatingTail square divisor seriesBound 1 = ∑ i ∈ range (seriesBound + 1), term i := by
  rw [alternatingTail, mul_tail_eq_sum (fun n => -(square / divisor n)) (fun _ => 1) term next,
    sum_range_succ', add_comm]
  congr 1
  exact sum_congr rfl fun i _ => by rw [one_mul, Nat.zero_add, Nat.add_comm]

/-- The exact sum of the terms of an alternating series over factorials is near what the series converges to. -/
theorem alternating_near {x : ℚ} (small : |x| ≤ 16 / 5) {offset : Nat} {divisor : Nat → Int}
    (factors : ∀ n : Nat, (divisor (n + 1) : ℚ) = (2 * n + offset + 2) * (2 * n + offset + 1)) {limit : ℝ}
    (converges : HasSum (fun n => (-1) ^ n * (x : ℝ) ^ (2 * n + offset) / (2 * n + offset).factorial) limit) :
    |((x ^ offset / offset.factorial +
      x ^ offset / offset.factorial * alternatingTail (x ^ 2) divisor seriesBound 1 : ℚ) : ℝ) - limit| ≤
      10 ^ (-110 : ℤ) := by
  let term (n : Nat) : ℚ := (-1) ^ n * x ^ (2 * n + offset) / (2 * n + offset).factorial
  have next (n : Nat) : term (n + 1) = -(x ^ 2 / divisor (n + 1)) * term n := by
    have factorial : ((2 * (n + 1) + offset).factorial : ℚ) = divisor (n + 1) * (2 * n + offset).factorial := by
      rw [show 2 * (n + 1) + offset = 2 * n + offset + 1 + 1 by ring, Nat.factorial_succ, Nat.factorial_succ, factors]
      push_cast
      ring
    simp only [term, factorial]
    rw [← neg_div, ← mul_div_mul_comm]
    congr 1
    ring
  have exactly := sum_eq_alternatingTail next
  have start : term 0 = x ^ offset / offset.factorial := by simp [term]
  rw [start] at exactly
  rw [exactly]
  push_cast [term]
  exact sum_near converges fun n => abs_alternating_le (2 * n + offset) n
    ((abs_cast_le small).trans_eq (by norm_num)) (by omega)

theorem cosine_near {x : ℚ} (small : |x| ≤ 16 / 5) :
    |((1 + 1 * alternatingTail (x ^ 2) cosineDivisor seriesBound 1 : ℚ) : ℝ) - Real.cos x| ≤
      10 ^ (-110 : ℤ) := by
  have factors (n : Nat) : (cosineDivisor (n + 1) : ℚ) = (2 * n + (0 : Nat) + 2) * (2 * n + (0 : Nat) + 1) := by
    rw [cosineDivisor]
    push_cast
    ring
  have near := alternating_near small factors (Real.hasSum_cos x)
  rwa [pow_zero, Nat.factorial_zero, Nat.cast_one, div_one] at near

theorem sine_near {x : ℚ} (small : |x| ≤ 16 / 5) :
    |((x + x * alternatingTail (x ^ 2) sineDivisor seriesBound 1 : ℚ) : ℝ) - Real.sin x| ≤
      10 ^ (-110 : ℤ) := by
  have factors (n : Nat) : (sineDivisor (n + 1) : ℚ) = (2 * n + (1 : Nat) + 2) * (2 * n + (1 : Nat) + 1) := by
    rw [sineDivisor]
    push_cast
    ring
  have near := alternating_near small factors (Real.hasSum_sin x)
  rwa [pow_one, Nat.factorial_one, Nat.cast_one, div_one] at near

theorem grain_le_real {c : Context} {digits : Nat} (many : digits ≤ c.precision) : (c.grain : ℝ) ≤ 1 / 10 ^ digits :=
  ((Rat.cast_le (K := ℝ)).mpr (grain_le_of_le many)).trans_eq (by norm_num)

/-- Whether a context has the digits that the functions work with, and room for what is small. -/
structure Working (c : Context) : Prop where
  least : 6 ≤ c.precision
  most : c.precision ≤ 110
  deep : c.least < 0

namespace Working

variable {c : Context} (working : c.Working)
include working

theorem precise : 0 < c.precision := by
  have least := working.least
  omega

theorem fine : c.grain ≤ 1 / 10 ^ 6 := grain_le_of_le working.least

theorem fine_real : (c.grain : ℝ) ≤ 1 / 10 ^ 6 := grain_le_real working.least

theorem near {q : ℚ} {z : Decimal} (rounding : c.IsRounding q z) (k : Nat) (small : |q| < 10 ^ k) :
    |(z.value : ℝ) - q| ≤ 10 ^ k / 2 * c.grain := by
  have error : ((|z.value - q| : ℚ) : ℝ) ≤ ((10 ^ k / 2 * c.grain : ℚ) : ℝ) :=
    Rat.cast_le.mpr (rounding.near working.deep k small)
  push_cast at error
  exact error

theorem pow_le_grain : (10 : ℝ) ^ (-110 : ℤ) ≤ c.grain := by
  have most := working.most
  rw [grain]
  push_cast
  exact zpow_le_zpow_right₀ (by norm_num) (by omega)

theorem sum_near_limit {sum exact : ℚ} {limit : ℝ} (near : |sum - exact| ≤ 68002 * c.grain)
    (close : |(exact : ℝ) - limit| ≤ 10 ^ (-110 : ℤ)) : |(sum : ℝ) - limit| ≤ 68003 * c.grain := by
  have cast : |(sum : ℝ) - exact| ≤ 68002 * c.grain := by exact_mod_cast near
  have least := working.pow_le_grain
  exact (abs_sub_le _ (exact : ℝ) _).trans (by linarith)

variable {x : Decimal} (given : x.isFinite = true) (small : |x.value| ≤ 16 / 5)
include given small

theorem cosSeries_reaches : Reaches (fun sum => sum.total.isFinite = true ∧
    |(sum.total.value : ℝ) - Real.cos x.value| ≤ 68003 * c.grain) (c.cosSeries x) := by
  have positive := sq_nonneg x.value
  have square := sq_le_of_abs_le small
  apply (square_reaches working.precise working.deep given small).andThen
  rintro found ⟨kept, squared⟩
  have moderate : Moderate (x.value ^ 2) cosineDivisor 1 one.value := by
    refine ⟨le_rfl, ?_, ?_⟩
    · norm_num [value_one]
    · rw [value_one, abs_one, one_mul, show cosineDivisor 1 = 2 from rfl]
      push_cast
      linarith
  apply (alternateSum_reaches working.precise working.deep working.fine cosineDivisor_grows positive square
    kept squared rfl moderate).mono
  intro sum near
  refine ⟨near.1, ?_⟩
  have close := near.2
  rw [value_one] at close
  exact working.sum_near_limit close (cosine_near small)

theorem sinSeries_reaches : Reaches (fun sum => sum.total.isFinite = true ∧
    |(sum.total.value : ℝ) - Real.sin x.value| ≤ 68003 * c.grain) (c.sinSeries x) := by
  have positive := sq_nonneg x.value
  have square := sq_le_of_abs_le small
  apply (square_reaches working.precise working.deep given small).andThen
  rintro found ⟨kept, squared⟩
  have moderate : Moderate (x.value ^ 2) sineDivisor 1 x.value := by
    refine ⟨le_rfl, by linarith, ?_⟩
    rw [show sineDivisor 1 = 6 from rfl]
    push_cast
    nlinarith [abs_nonneg x.value]
  apply (alternateSum_reaches working.precise working.deep working.fine sineDivisor_grows positive square
    kept squared given moderate).mono
  intro sum near
  refine ⟨near.1, ?_⟩
  exact working.sum_near_limit near.2 (sine_near small)

end Working

end Reckoner.Decimal.Context

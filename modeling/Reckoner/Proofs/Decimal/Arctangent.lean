import Reckoner.Proofs.Decimal.Taylor
import Mathlib.Analysis.Calculus.MeanValue
import Mathlib.Analysis.Real.Pi.Bounds
import Mathlib.Analysis.SpecialFunctions.Artanh
import Mathlib.Analysis.SpecialFunctions.Complex.Arctan

/-! The series of the inverse tangent and of the inverse hyperbolic one, and the inverse tangent of one. Its angle
is halved until the tangent is small, where the series converges fast, and the sum is doubled as often. -/

namespace Reckoner.Decimal.Context

open Finset

/-! ### Half an angle -/

/-- The tangent of half the angle whose tangent is given. -/
noncomputable def halfTangent (x : ℝ) : ℝ := x / (1 + √(1 + x ^ 2))

theorem one_le_sqrt (x : ℝ) : 1 ≤ √(1 + x ^ 2) := Real.one_le_sqrt.mpr (by linarith [sq_nonneg x])

theorem two_mul_arctan_halfTangent (x : ℝ) : 2 * Real.arctan (halfTangent x) = Real.arctan x := by
  have root := one_le_sqrt x
  have square : √(1 + x ^ 2) ^ 2 = 1 + x ^ 2 := Real.sq_sqrt (by positivity)
  have less : |x| < 1 + √(1 + x ^ 2) := by
    have bound : |x| ≤ √(1 + x ^ 2) := Real.abs_le_sqrt (by linarith)
    linarith
  obtain ⟨low, high⟩ := abs_lt.mp less
  have positive : 0 < 1 + √(1 + x ^ 2) := by linarith
  have above : -1 < halfTangent x := by
    rw [halfTangent, lt_div_iff₀ positive]
    linarith
  have below : halfTangent x < 1 := by
    rw [halfTangent, div_lt_one positive]
    linarith
  rw [Real.two_mul_arctan above below]
  congr 1
  have nonzero : 1 - halfTangent x ^ 2 = 2 / (1 + √(1 + x ^ 2)) := by
    rw [halfTangent]
    field_simp
    linarith
  rw [nonzero, halfTangent]
  field_simp

theorem abs_arctan_sub_le (x y : ℝ) : |Real.arctan x - Real.arctan y| ≤ |x - y| := by
  have slope := Convex.norm_image_sub_le_of_norm_deriv_le (f := Real.arctan) (s := Set.univ) (C := 1)
    (fun z _ => Real.differentiableAt_arctan z)
    (fun z _ => by
      rw [Real.deriv_arctan, Real.norm_eq_abs, abs_of_pos (by positivity)]
      exact (div_le_one (by positivity)).mpr (by linarith [sq_nonneg z]))
    convex_univ (Set.mem_univ y) (Set.mem_univ x)
  simpa using slope

theorem abs_sqrt_sub_le {x y : ℝ} (positive : 0 ≤ x) (least : 1 ≤ y) : |√x - √y| ≤ |x - y| := by
  have product : (√x - √y) * (√x + √y) = x - y := by
    linear_combination Real.sq_sqrt positive - Real.sq_sqrt (zero_le_one.trans least)
  have sum : 1 ≤ √x + √y := by linarith [Real.sqrt_nonneg x, Real.one_le_sqrt.mpr least]
  rw [← product, abs_mul, abs_of_pos (zero_lt_one.trans_le sum)]
  exact le_mul_of_one_le_right (abs_nonneg _) sum

/-- What is near the denominator of the tangent of half an angle gives a quotient near that tangent. -/
theorem div_near_halfTangent {x below error : ℝ} (positive : 0 ≤ x) (most : x ≤ 1) (least : 19 / 10 ≤ below)
    (near : |below - (1 + √(1 + x ^ 2))| ≤ error) : |x / below - halfTangent x| ≤ error / (19 / 5) := by
  have root := one_le_sqrt x
  have split : x / below - halfTangent x =
      x * ((1 + √(1 + x ^ 2)) - below) / (below * (1 + √(1 + x ^ 2))) := by
    have first : below ≠ 0 := by linarith
    have second : 1 + √(1 + x ^ 2) ≠ 0 := by linarith
    rw [halfTangent]
    field_simp
  have product : (19 / 5 : ℝ) ≤ below * (1 + √(1 + x ^ 2)) := by
    linarith [mul_le_mul least (show 2 ≤ 1 + √(1 + x ^ 2) by linarith) (by norm_num) (by linarith)]
  have numerator : x * |below - (1 + √(1 + x ^ 2))| ≤ error := by
    linarith [mul_le_mul most near (abs_nonneg _) zero_le_one]
  rw [split, abs_div, abs_mul, abs_of_nonneg positive, abs_sub_comm, abs_of_pos (by linarith : 0 < below * _)]
  exact div_le_div₀ ((abs_nonneg _).trans near) numerator (by norm_num) product

section
variable {c : Context} (working : c.Working)
include working

theorem Working.sqrt_reaches {x : Decimal} (given : x.isFinite = true) {exact : ℝ} (least : 1 ≤ exact)
    (most : exact ≤ 2) (near : |(x.value : ℝ) - exact| ≤ 10 * c.grain) :
    Reaches (fun z => z.isFinite = true ∧ |(z.value : ℝ) - √exact| ≤ 18 * c.grain) (c.sqrt x) := by
  have fine := working.fine_real
  have tiny : (0 : ℝ) < c.grain := Rat.cast_pos.mpr c.grain_pos
  have bounds := abs_le.mp near
  have positive : 0 ≤ (x.value : ℝ) := by linarith
  have second := (abs_sqrt_sub_le positive least).trans near
  apply (Context.sqrt_reaches working.precise given).mono
  rintro z ⟨q, unit, rounding, apart, many, low, high⟩
  have low : ((q : ℝ) - unit) ^ 2 ≤ x.value := by exact_mod_cast low
  have high : (x.value : ℝ) ≤ (q + unit) ^ 2 := by exact_mod_cast high
  have apart : (0 : ℝ) ≤ unit := Rat.cast_nonneg.mpr apart
  have many : (unit : ℝ) ≤ q * c.grain := by exact_mod_cast le_mul_grain many
  have above : (q : ℝ) - unit ≤ √x.value := Real.le_sqrt_of_sq_le low
  have size : √x.value ≤ 2 := Real.sqrt_le_iff.mpr ⟨by norm_num, by linarith⟩
  have some := Real.sqrt_nonneg (x.value : ℝ)
  have positive : (0 : ℝ) ≤ q := by
    by_contra negative
    linarith [mul_neg_of_neg_of_pos (not_le.mp negative) tiny]
  have below : √x.value ≤ q + unit := Real.sqrt_le_iff.mpr ⟨by linarith, high⟩
  have few : (q : ℝ) ≤ 3 := by linarith [mul_le_mul_of_nonneg_left fine positive]
  have fits : |q| < 10 ^ 1 := by
    have less : q ≤ 3 := by exact_mod_cast few
    rw [abs_of_nonneg (by exact_mod_cast positive)]
    linarith
  have rounded := working.near rounding 1 fits
  have coarse : (unit : ℝ) ≤ 3 * c.grain := many.trans (mul_le_mul_of_nonneg_right few tiny.le)
  have first : |(q : ℝ) - √x.value| ≤ 3 * c.grain := abs_le.mpr ⟨by linarith, by linarith⟩
  refine ⟨rounding.isFinite, ?_⟩
  have split : (z.value : ℝ) - √exact = (z.value - q) + (q - √x.value) + (√x.value - √exact) := by ring
  rw [split]
  exact (abs_add_three _ _ _).trans (by linarith)

/-- The denominator of the tangent of half an angle is found within a few roundings. -/
theorem Working.denominator_reaches {x : Decimal} (given : x.isFinite = true) (positive : 0 ≤ x.value)
    (most : x.value ≤ 1) :
    Reaches (fun z => z.isFinite = true ∧ |(z.value : ℝ) - (1 + √(1 + (x.value : ℝ) ^ 2))| ≤ 23 * c.grain)
      (do c.add one (← c.sqrt (← c.add one (← c.mul x x)))) := by
  have fine := working.fine_real
  have precise := working.precise
  have square : x.value * x.value ≤ 1 := mul_le_one₀ most positive most
  have low := sq_nonneg (x.value : ℝ)
  have high : (x.value : ℝ) ^ 2 ≤ 1 := pow_le_one₀ (Rat.cast_nonneg.mpr positive) (by exact_mod_cast most)
  apply (mul_reaches precise given given).andThen
  intro found squared
  have squares := working.near squared 1 (by rw [abs_of_nonneg (by positivity)]; linarith)
  push_cast at squares
  rw [← pow_two] at squares
  have small : (found.value : ℝ) ≤ 2 := by linarith [(abs_le.mp squares).2]
  have small : found.value ≤ 2 := by exact_mod_cast small
  have apart := squared.nonneg (mul_nonneg positive positive)
  apply (add_reaches precise rfl squared.isFinite).andThen
  intro sum summed
  rw [value_one] at summed
  have sums := working.near summed 1 (by rw [abs_of_nonneg (by linarith)]; linarith)
  push_cast at sums
  have near : |(sum.value : ℝ) - (1 + (x.value : ℝ) ^ 2)| ≤ 10 * (c.grain : ℝ) := by
    have split : (sum.value : ℝ) - (1 + (x.value : ℝ) ^ 2) =
        (sum.value - (1 + found.value)) + (found.value - (x.value : ℝ) ^ 2) := by ring
    rw [split]
    exact (abs_add_le _ _).trans (by linarith)
  apply (working.sqrt_reaches summed.isFinite (by linarith) (by linarith) near).andThen
  intro r rooted
  have roots := abs_le.mp rooted.2
  have root := one_le_sqrt x.value
  have top : √(1 + (x.value : ℝ) ^ 2) ≤ 2 := Real.sqrt_le_iff.mpr ⟨by norm_num, by linarith⟩
  have low : 0 ≤ r.value := by exact_mod_cast (show (0 : ℝ) ≤ r.value by linarith)
  have high : r.value ≤ 3 := by exact_mod_cast (show (r.value : ℝ) ≤ 3 by linarith)
  apply (add_reaches precise rfl rooted.1).mono
  intro z added
  refine ⟨added.isFinite, ?_⟩
  rw [value_one] at added
  have denominators := working.near added 1 (by rw [abs_of_nonneg (by linarith)]; linarith)
  push_cast at denominators
  have split : (z.value : ℝ) - (1 + √(1 + (x.value : ℝ) ^ 2)) =
      (z.value - (1 + r.value)) + (r.value - √(1 + (x.value : ℝ) ^ 2)) := by ring
  rw [split]
  exact (abs_add_le _ _).trans (by linarith [rooted.2])

theorem Working.halfTangent_reaches {x : Decimal} (given : x.isFinite = true) (positive : 0 ≤ x.value)
    (most : x.value ≤ 1) :
    Reaches (fun z => z.isFinite = true ∧ 0 ≤ z.value ∧ |(z.value : ℝ) - halfTangent x.value| ≤ 7 * c.grain)
      (do c.div x (← c.add one (← c.sqrt (← c.add one (← c.mul x x))))) := by
  have step : Reaches (fun z => z.isFinite = true ∧ 0 ≤ z.value ∧
      |(z.value : ℝ) - halfTangent x.value| ≤ 7 * c.grain)
      ((do c.add one (← c.sqrt (← c.add one (← c.mul x x)))) >>= fun below => c.div x below) := by
    have fine := working.fine_real
    have tiny : (0 : ℝ) < c.grain := Rat.cast_pos.mpr c.grain_pos
    have root := one_le_sqrt x.value
    apply (working.denominator_reaches given positive most).andThen
    rintro below ⟨finite', near⟩
    have bounds := abs_le.mp near
    have least : (19 / 10 : ℝ) ≤ below.value := by linarith
    have above : 1 < below.value := by exact_mod_cast (show (1 : ℝ) < below.value by linarith)
    apply (div_reaches working.precise given finite' (by linarith)).mono
    intro z divided
    have quotient : 0 ≤ x.value / below.value := div_nonneg positive (by linarith)
    have fits : |x.value / below.value| < 10 ^ 0 := by
      rw [abs_of_nonneg quotient, div_lt_iff₀ (by linarith)]
      linarith
    have quotients := working.near divided 0 fits
    push_cast at quotients
    have apart := div_near_halfTangent (Rat.cast_nonneg.mpr positive) (by exact_mod_cast most) least near
    refine ⟨divided.isFinite, divided.nonneg quotient, ?_⟩
    exact (abs_sub_le _ ((x.value : ℝ) / below.value) _).trans (by linarith)
  simpa only [bind_assoc] using step

/-- Whether so many halvings have brought the angle of 45 degrees to the angle of this tangent. -/
structure Halved (c : Context) (count : Nat) (x : Decimal) : Prop where
  isFinite : x.isFinite = true
  nonneg : 0 ≤ x.value
  most : x.value ≤ 1
  shrunk : (x.value : ℝ) ≤ (1 / 2) ^ count + 14 * c.grain
  near : |2 ^ count * Real.arctan x.value - Real.pi / 4| ≤ 2 ^ (count + 1) * (7 * c.grain)

omit working in
theorem halved_one : Halved c 0 one where
  isFinite := rfl
  nonneg := by norm_num [value_one]
  most := value_one.le
  shrunk := by
    have tiny : (0 : ℝ) < c.grain := Rat.cast_pos.mpr c.grain_pos
    rw [value_one, Rat.cast_one, pow_zero]
    linarith
  near := by
    have tiny : (0 : ℝ) < c.grain := Rat.cast_pos.mpr c.grain_pos
    rw [value_one, Rat.cast_one, Real.arctan_one, pow_zero, one_mul, sub_self, abs_zero]
    positivity

theorem Working.halved_next {count : Nat} {x z : Decimal} (halved : Halved c count x) (finite : z.isFinite = true)
    (positive : 0 ≤ z.value) (near : |(z.value : ℝ) - halfTangent x.value| ≤ 7 * c.grain) :
    Halved c (count + 1) z := by
  have fine := working.fine_real
  have root := one_le_sqrt x.value
  have bounds := abs_le.mp near
  have real : (0 : ℝ) ≤ x.value := Rat.cast_nonneg.mpr halved.nonneg
  have half : halfTangent x.value ≤ x.value / 2 :=
    div_le_div_of_nonneg_left real (by norm_num) (by linarith)
  have unit : (x.value : ℝ) ≤ 1 := by exact_mod_cast halved.most
  refine ⟨finite, positive, ?_, ?_, ?_⟩
  · exact_mod_cast (show (z.value : ℝ) ≤ 1 by linarith)
  · rw [pow_succ]
    linarith [halved.shrunk]
  · have angle := (abs_arctan_sub_le z.value (halfTangent x.value)).trans near
    have doubled : (2 : ℝ) ^ (count + 1) * Real.arctan z.value - Real.pi / 4 =
        2 ^ (count + 1) * (Real.arctan z.value - Real.arctan (halfTangent x.value)) +
          (2 ^ count * Real.arctan x.value - Real.pi / 4) := by
      rw [← two_mul_arctan_halfTangent x.value, pow_succ]
      ring
    have power : (0 : ℝ) < 2 ^ (count + 1) := by positivity
    rw [doubled]
    refine (abs_add_le _ _).trans ?_
    rw [abs_mul, abs_of_pos power, pow_succ 2 (count + 1)]
    linarith [mul_le_mul_of_nonneg_left angle power.le, halved.near]

theorem Working.halveAngle_reaches (fuel : Nat) {count : Nat} {x : Decimal} (halved : Halved c count x)
    (all : count + fuel = halvingBound) :
    Reaches (fun made => made.1 ≤ halvingBound ∧ Halved c made.1 made.2 ∧ made.2.value ≤ 1 / 5)
      (c.halveAngle fuel count x) := by
  induction fuel generalizing count x with
  | zero =>
    have last : count = 8 := all
    have shrunk := halved.shrunk
    have fine := working.fine_real
    subst last
    refine .ok ⟨le_rfl, halved, ?_⟩
    have small : (x.value : ℝ) ≤ ((1 / 5 : ℚ) : ℝ) := by
      norm_num at shrunk fine ⊢
      linarith
    exact Rat.cast_le.mp small
  | succ fuel ih =>
    unfold halveAngle
    have limit : atanLimit.value = 1 / 5 := by
      rw [atanLimit, value_finite]
      norm_num [signed]
    rw [isLess_eq rfl halved.isFinite, limit]
    refine .ite ?_ fun small => .ok ⟨by omega, halved, ?_⟩
    · intro _
      have step := (working.halfTangent_reaches halved.isFinite halved.nonneg halved.most).andThen
        fun z half => ih (working.halved_next halved half.1 half.2.1 half.2.2) (by omega)
      simpa only [bind_assoc] using step
    · simpa using small

end

/-! ### Odd powers over their exponents -/

/-- A power that is the one before, turned, times a square, and its quotient by the exponent. -/
def oddTerm (c : Context) (turn : Decimal → Except Signal Decimal) (square : Decimal) (index : Nat) (power : Decimal) :
    Except Signal (Decimal × Decimal) := do
  let power ← c.mul (← turn power) square
  return (power, ← c.div power (ofInt (2 * index + 1)))

/-- What is to come of a series of odd powers over their exponents. -/
def oddTail (ratio : ℚ) : Nat → Nat → ℚ :=
  tail (fun _ => ratio) fun n => 1 / (2 * n + 1)

/-- Whether a power is as small as those of a small argument are. -/
def Small (index : Nat) (power : ℚ) : Prop := 1 ≤ index ∧ |power| ≤ 1 / 5

/-- Whether small numbers are multiplied by a sign, within a rounding. -/
structure TurnsBy (c : Context) (sign : ℚ) (turn : Decimal → Except Signal Decimal) : Prop where
  unit : |sign| = 1
  near : ∀ x : Decimal, x.isFinite = true → |x.value| ≤ 1 / 5 →
    Reaches (fun z => z.isFinite = true ∧ |z.value - sign * x.value| ≤ 1 / 2 * c.grain) (turn x)

theorem turnsBy_pure (c : Context) : c.TurnsBy 1 pure where
  unit := abs_one
  near := fun x given _ => .ok ⟨given, by
    rw [one_mul, sub_self, abs_zero]
    linarith [c.grain_pos]⟩

theorem Working.turnsBy_neg {c : Context} (working : c.Working) : c.TurnsBy (-1) c.neg where
  unit := by rw [abs_neg, abs_one]
  near := by
    intro x given small
    apply (neg_reaches working.precise given).mono
    intro z turned
    refine ⟨turned.isFinite, ?_⟩
    have turns := turned.near working.deep 0 (by rw [abs_neg]; linarith)
    rwa [neg_one_mul, ← pow_zero (10 : ℚ)]

section
variable {ratio : ℚ} (small : |ratio| ≤ 1 / 25)
include small

theorem abs_oddTail_le (fuel index : Nat) : |oddTail ratio fuel index| ≤ 1 / (2 * index + 1) := by
  induction fuel generalizing index with
  | zero =>
    rw [oddTail, tail, abs_zero]
    positivity
  | succ fuel ih =>
    have rest := ih (index + 1)
    push_cast at rest
    have weight : (0 : ℚ) < 1 / (2 * index + 1) := by positivity
    have less : (1 : ℚ) / (2 * (index + 1) + 1) ≤ 1 / (2 * index + 1) :=
      one_div_le_one_div_of_le (by positivity) (by linarith)
    have next : |1 / (2 * (index : ℚ) + 1) + oddTail ratio fuel (index + 1)| ≤ 2 * (1 / (2 * index + 1)) := by
      refine (abs_add_le _ _).trans ?_
      rw [abs_of_pos weight]
      linarith
    rw [oddTail, tail, ← oddTail, abs_mul]
    calc _ ≤ 1 / 25 * (2 * (1 / (2 * (index : ℚ) + 1))) := mul_le_mul small next (abs_nonneg _) (by norm_num)
      _ ≤ 1 / (2 * index + 1) := by linarith

theorem abs_weight_add_tail_le (fuel : Nat) {index : Nat} (counted : 1 ≤ index) :
    |1 / (2 * (index : ℚ) + 1) + oddTail ratio fuel (index + 1)| ≤ 1 := by
  have rest := abs_oddTail_le small fuel (index + 1)
  have count : (1 : ℚ) ≤ index := by exact_mod_cast counted
  push_cast at rest
  have weight : (0 : ℚ) < 1 / (2 * index + 1) := by positivity
  have first : (1 : ℚ) / (2 * index + 1) ≤ 1 / 3 := one_div_le_one_div_of_le (by norm_num) (by linarith)
  have second : (1 : ℚ) / (2 * (index + 1) + 1) ≤ 1 / 3 := one_div_le_one_div_of_le (by norm_num) (by linarith)
  refine (abs_add_le _ _).trans ?_
  rw [abs_of_pos weight]
  linarith

end

section
variable {square sign : ℚ} (positive : 0 ≤ square) (small : square ≤ 1 / 25) {c : Context} (working : c.Working)
  {turn : Decimal → Except Signal Decimal} (turns : c.TurnsBy sign turn)
include positive small working turns

theorem Working.oddTerm_reaches {found power : Decimal} {index : Nat} (finite : found.isFinite = true)
    (squared : |found.value - square| ≤ 1 / 2 * c.grain) (carried : power.isFinite = true)
    (held : Small index power.value) :
    Reaches (fun made => made.1.isFinite = true ∧ made.2.isFinite = true ∧
        |made.1.value - power.value * (sign * square)| ≤ c.grain ∧
        |made.2.value - made.1.value / (2 * (index : ℚ) + 1)| ≤ 1 / 2 * c.grain)
      (c.oddTerm turn found index power) := by
  obtain ⟨counted, held⟩ := held
  have fine := working.fine
  have tiny := c.grain_pos
  have count : (1 : ℚ) ≤ index := by exact_mod_cast counted
  apply (turns.near power carried held).andThen
  rintro turned ⟨sound, near⟩
  have width : |sign * power.value| = |power.value| := by rw [abs_mul, turns.unit, one_mul]
  have size : |turned.value| ≤ 1 / 4 := by
    linarith [abs_sub_abs_le_abs_sub turned.value (sign * power.value)]
  have width : |found.value| ≤ 1 / 4 := by
    linarith [abs_sub_abs_le_abs_sub found.value square, abs_of_nonneg positive]
  have product : |turned.value * found.value| ≤ 1 / 16 := by
    rw [abs_mul]
    exact (mul_le_mul size width (abs_nonneg _) (by norm_num)).trans (by norm_num)
  apply (mul_reaches working.precise sound finite).andThen
  intro next multiplied
  have products := multiplied.near working.deep 0 (by linarith)
  rw [pow_zero] at products
  have less : |next.value| ≤ 1 / 8 := by
    linarith [abs_sub_abs_le_abs_sub next.value (turned.value * found.value)]
  have fits : |next.value / (2 * index + 1 : ℤ)| < 10 ^ 0 := by
    push_cast
    rw [abs_div, abs_of_pos (by linarith : (0 : ℚ) < 2 * index + 1), div_lt_iff₀ (by linarith)]
    linarith
  have nonzero : (ofInt (2 * index + 1)).value ≠ 0 := by
    rw [value_ofInt]
    push_cast
    linarith
  apply (div_reaches working.precise multiplied.isFinite rfl nonzero).andThen
  intro term divided
  rw [value_ofInt] at divided
  have divisions := divided.near working.deep 0 fits
  push_cast at divisions
  rw [sub_eq_add_neg] at near
  have moved := product_near positive small size near squared products
  rw [neg_mul, ← sub_eq_add_neg, mul_assoc, mul_left_comm] at moved
  exact .ok ⟨multiplied.isFinite, divided.isFinite, by linarith, by linarith⟩

theorem Working.follows_odd {found : Decimal} (finite : found.isFinite = true)
    (squared : |found.value - square| ≤ 1 / 2 * c.grain) :
    c.Follows (c.oddTerm turn found) (oddTail (sign * square)) Small (2 * c.grain) (1 / 5) (2 * c.grain) := by
  have ratio : |sign * square| ≤ 1 / 25 := by rwa [abs_mul, turns.unit, one_mul, abs_of_nonneg positive]
  refine ⟨fun _ => rfl, ?_, ?_⟩
  · intro fuel index power ⟨_, held⟩
    have rest := abs_oddTail_le ratio fuel index
    have weight : (1 : ℚ) / (2 * index + 1) ≤ 1 := by
      rw [div_le_one (by positivity)]
      linarith [(Nat.cast_nonneg index : (0 : ℚ) ≤ index)]
    rw [abs_mul]
    exact (mul_le_mul held (rest.trans weight) (abs_nonneg _) (by norm_num)).trans (by norm_num)
  · intro fuel index power carried held
    apply (working.oddTerm_reaches positive small turns finite squared carried held).mono
    rintro ⟨next, term⟩ ⟨first, second, moved, divided⟩
    obtain ⟨counted, held⟩ := held
    have fine := working.fine
    have tiny := c.grain_pos
    have weights := abs_weight_add_tail_le ratio fuel counted
    refine ⟨first, second, ⟨by omega, ?_⟩, ?_, ?_⟩
    · have product : |power.value * (sign * square)| ≤ 1 / 5 * (1 / 25) := by
        rw [abs_mul]
        exact mul_le_mul held ratio (abs_nonneg _) (by norm_num)
      linarith [abs_sub_abs_le_abs_sub next.value (power.value * (sign * square))]
    · have split : term.value + next.value * oddTail (sign * square) fuel (index + 1) -
          power.value * oddTail (sign * square) (fuel + 1) index =
          (term.value - next.value / (2 * (index : ℚ) + 1)) + (next.value - power.value * (sign * square)) *
            (1 / (2 * (index : ℚ) + 1) + oddTail (sign * square) fuel (index + 1)) := by
        rw [oddTail, tail, ← oddTail]
        ring
      rw [split]
      refine (abs_add_le _ _).trans ?_
      rw [abs_mul]
      linarith [mul_le_mul moved weights (abs_nonneg _) tiny.le]
    · intro stops
      have rest := abs_oddTail_le ratio fuel (index + 1)
      have width : (0 : ℚ) < 2 * index + 1 := by positivity
      have less : |oddTail (sign * square) fuel (index + 1)| * (2 * index + 1) ≤ 1 := by
        rw [← le_div_iff₀ width]
        refine rest.trans (one_div_le_one_div_of_le width ?_)
        push_cast
        linarith
      have quotient : |next.value / (2 * (index : ℚ) + 1)| ≤ 3 / 2 * c.grain := by
        rw [abs_sub_comm] at divided
        linarith [abs_sub_abs_le_abs_sub (next.value / (2 * (index : ℚ) + 1)) term.value]
      have split : next.value * oddTail (sign * square) fuel (index + 1) =
          next.value / (2 * index + 1) * (oddTail (sign * square) fuel (index + 1) * (2 * index + 1)) := by
        field_simp
      rw [split, abs_mul, abs_mul (oddTail _ _ _), abs_of_pos width]
      calc _ ≤ 3 / 2 * c.grain * 1 := mul_le_mul quotient less (by positivity) (by linarith)
        _ ≤ 2 * c.grain := by linarith

end

theorem odd_near {x sign : ℚ} (unit : |sign| = 1) (small : |x| ≤ 1 / 5) {limit : ℝ}
    (converges : HasSum (fun n : Nat => (sign : ℝ) ^ n * ((x : ℝ) ^ (2 * n + 1) / (2 * n + 1))) limit) :
    |((x + x * oddTail (sign * x ^ 2) seriesBound 1 : ℚ) : ℝ) - limit| ≤ 10 ^ (-110 : ℤ) := by
  let power (n : Nat) : ℚ := sign ^ n * x ^ (2 * n + 1)
  have next (n : Nat) : power (n + 1) = sign * x ^ 2 * power n := by
    simp only [power]
    ring
  have exactly : x + x * oddTail (sign * x ^ 2) seriesBound 1 =
      ∑ i ∈ range (seriesBound + 1), sign ^ i * (x ^ (2 * i + 1) / (2 * (i : ℚ) + 1)) := by
    have start : power 0 = x := by simp [power]
    have sum := mul_tail_eq_sum (fun _ => sign * x ^ 2) (fun n => 1 / (2 * n + 1)) power next seriesBound 0
    rw [start] at sum
    rw [oddTail, sum, sum_range_succ', add_comm]
    congr 1
    · apply sum_congr rfl
      intro i _
      rw [Nat.zero_add, Nat.add_comm 1 i]
      simp only [power]
      ring
    · simp
  have size : |(x : ℝ)| ≤ 1 / 5 := (abs_cast_le small).trans_eq (by norm_num)
  have turn : |(sign : ℝ)| = 1 := by exact_mod_cast unit
  rw [exactly]
  push_cast
  apply sum_near converges
  intro n
  have width : (1 : ℝ) ≤ 2 * n + 1 := by
    have count : (0 : ℝ) ≤ n := n.cast_nonneg
    linarith
  have numerator : |(x : ℝ)| ^ (2 * n + 1) ≤ (1 / 16) ^ n := by
    calc |(x : ℝ)| ^ (2 * n + 1) ≤ (1 / 5) ^ (2 * n + 1) := pow_le_pow_left₀ (abs_nonneg _) size _
      _ ≤ (1 / 5) ^ (2 * n) := pow_le_pow_of_le_one (by norm_num) (by norm_num) (by omega)
      _ = (1 / 25) ^ n := by rw [pow_mul]; norm_num
      _ ≤ (1 / 16) ^ n := pow_le_pow_left₀ (by norm_num) (by norm_num) n
  have power : (0 : ℝ) < (1 / 16) ^ n := by positivity
  rw [abs_mul, abs_pow, turn, one_pow, one_mul, abs_div, abs_pow, abs_of_pos (by linarith : (0 : ℝ) < 2 * n + 1)]
  calc _ ≤ |(x : ℝ)| ^ (2 * n + 1) := div_le_self (by positivity) width
    _ ≤ (1 / 16) ^ n := numerator
    _ ≤ 3 ^ 13 * (1 / 16) ^ n := le_mul_of_one_le_left power.le (by norm_num)

section
variable {c : Context} (working : c.Working)
include working

/-- The sum of a series of odd powers is near what the series converges to. -/
theorem Working.oddSum_reaches {turn : Decimal → Except Signal Decimal} {sign : ℚ} (turns : c.TurnsBy sign turn)
    {x : Decimal} (given : x.isFinite = true) (most : |x.value| ≤ 1 / 5) {limit : ℝ}
    (converges : HasSum (fun n : Nat => (sign : ℝ) ^ n * ((x.value : ℝ) ^ (2 * n + 1) / (2 * n + 1))) limit) :
    Reaches (fun sum => sum.total.isFinite = true ∧ |(sum.total.value : ℝ) - limit| ≤ 253 * c.grain)
      (do c.sumSeries x (c.oddTerm turn (← c.mul x x))) := by
  have fine := working.fine
  have tiny := c.grain_pos
  have least := working.pow_le_grain
  have small : x.value ^ 2 ≤ 1 / 25 := by
    rw [← sq_abs]
    exact (pow_le_pow_left₀ (abs_nonneg _) most 2).trans_eq (by norm_num)
  have positive := sq_nonneg x.value
  apply (mul_reaches working.precise given given).andThen
  intro found multiplied
  have squared := multiplied.near working.deep 0 (by
    rw [← pow_two, abs_of_nonneg positive]
    linarith)
  rw [← pow_two, pow_zero] at squared
  have follows := working.follows_odd positive small turns multiplied.isFinite squared
  have held : Small 1 x.value := ⟨le_rfl, most⟩
  have rest := follows.bounded seriesBound 1 x.value held
  have terms : (seriesBound : ℚ) = 100 := rfl
  refine (follows.sumSeries_reaches working.precise working.deep 0 (by linarith) given held ?_).mono
    fun sum near => ⟨near.1, ?_⟩
  · rw [terms]
    linarith [abs_add_le x.value (x.value * oddTail (sign * x.value ^ 2) seriesBound 1), held.2]
  · have cast := (Rat.cast_le (K := ℝ)).mpr near.2
    rw [terms] at cast
    push_cast at cast
    have close := odd_near turns.unit most converges
    push_cast at close
    have middle := abs_sub_le (sum.total.value : ℝ)
      (x.value + x.value * oddTail (sign * x.value ^ 2) seriesBound 1 : ℝ) limit
    exact middle.trans (by linarith)

theorem Working.atanSeries_reaches {x : Decimal} (given : x.isFinite = true) (nonneg : 0 ≤ x.value)
    (most : x.value ≤ 1 / 5) :
    Reaches (fun sum => sum.total.isFinite = true ∧
      |(sum.total.value : ℝ) - Real.arctan x.value| ≤ 253 * c.grain) (c.atanSeries x) := by
  have small : |x.value| ≤ 1 / 5 := by rwa [abs_of_nonneg nonneg]
  refine working.oddSum_reaches working.turnsBy_neg given small ?_
  have converges := Real.hasSum_arctan (x := x.value) ((abs_cast_le small).trans_lt (by norm_num))
  push_cast at converges ⊢
  simpa only [mul_div_assoc] using converges

theorem Working.atanhSeries_reaches {x : Decimal} (given : x.isFinite = true) (small : |x.value| ≤ 1 / 5) :
    Reaches (fun sum => sum.total.isFinite = true ∧
      |(sum.total.value : ℝ) - Real.artanh x.value| ≤ 253 * c.grain) (c.atanhSeries x) := by
  refine working.oddSum_reaches (turnsBy_pure c) given small ?_
  have size : |(x.value : ℝ)| < 1 := (abs_cast_le small).trans_lt (by norm_num)
  obtain ⟨low, high⟩ := abs_lt.mp size
  have converges := (Real.hasSum_log_sub_log_of_abs_lt_one size).div_const 2
  rw [← Real.log_div (by linarith) (by linarith), ← one_div_mul_eq_div,
    ← Real.artanh_eq_half_log ⟨low.le, high.le⟩] at converges
  apply converges.congr_fun
  intro n
  rw [Rat.cast_one, one_pow]
  ring

theorem Working.atanReduced_reaches :
    Reaches (fun z => z.isFinite = true ∧ |(z.value : ℝ) - Real.pi / 4| ≤ 70000 * c.grain)
      (c.atanReduced one) := by
  have fine := working.fine_real
  have tiny : (0 : ℝ) < c.grain := Rat.cast_pos.mpr c.grain_pos
  apply (working.halveAngle_reaches halvingBound halved_one (Nat.zero_add _)).andThen
  intro made reached
  obtain ⟨few, halved, small⟩ := reached
  apply (working.atanSeries_reaches halved.isFinite halved.nonneg small).andThen
  intro sum summed
  apply (mul_reaches working.precise summed.1 rfl).mono
  intro z multiplied
  refine ⟨multiplied.isFinite, ?_⟩
  rw [value_ofInt] at multiplied
  have low : (1 : ℝ) ≤ 2 ^ made.1 := one_le_pow₀ (by norm_num)
  have high : (2 : ℝ) ^ made.1 ≤ 256 :=
    (pow_le_pow_right₀ (by norm_num) few).trans_eq (by norm_num [halvingBound])
  have doubled : |(sum.total.value : ℝ) * 2 ^ made.1 - 2 ^ made.1 * Real.arctan made.2.value| ≤
      256 * (253 * c.grain) := by
    have split : (sum.total.value : ℝ) * 2 ^ made.1 - 2 ^ made.1 * Real.arctan made.2.value =
        2 ^ made.1 * (sum.total.value - Real.arctan made.2.value) := by ring
    rw [split, abs_mul, abs_of_pos (by linarith : (0 : ℝ) < 2 ^ made.1)]
    exact mul_le_mul high summed.2 (abs_nonneg _) (by norm_num)
  have angle : |2 ^ made.1 * Real.arctan made.2.value - Real.pi / 4| ≤ 512 * (7 * (c.grain : ℝ)) := by
    refine halved.near.trans (mul_le_mul_of_nonneg_right ?_ (by linarith))
    rw [pow_succ]
    linarith
  have near : |(sum.total.value : ℝ) * 2 ^ made.1 - Real.pi / 4| ≤ 69000 * c.grain :=
    (abs_sub_le _ (2 ^ made.1 * Real.arctan made.2.value) _).trans (by linarith)
  have fits : |sum.total.value * ((2 ^ made.1 : ℤ) : ℚ)| < 10 ^ 0 := by
    have less : |(sum.total.value : ℝ) * 2 ^ made.1| < 1 := by
      have bounds := abs_le.mp near
      have circle := Real.pi_lt_d2
      have half := Real.pi_gt_three
      rw [abs_lt]
      constructor <;> linarith
    exact_mod_cast less
  have rounded := working.near multiplied 0 fits
  push_cast at rounded
  exact (abs_sub_le _ ((sum.total.value : ℝ) * 2 ^ made.1) _).trans (by linarith)

end

end Reckoner.Decimal.Context

import Reckoner.Proofs.Decimal.Derivation
import Reckoner.Proofs.Decimal.Powers
import Reckoner.Proofs.Decimal.Elementary

/-! The cube root by Newton's steps. The first step overshoots the root, the excess then shrinks by a third in each
step and, once it is small, is squared in each step, up to the rounding errors of one step. Where two neighbours
agree the root is as near as that. -/

namespace Reckoner.Decimal

/-! ### Newton's step -/

section
variable {K : Type} [Field K]

/-- Newton's step toward the cube root of a number. -/
def newton (a y : K) : K := (2 * y + a / y ^ 2) / 3

end

section
variable {root y : ℝ} (positive : 0 < root) (above : 0 < y)
include positive above

omit positive in
theorem newton_sub : newton (root ^ 3) y - root = (y - root) ^ 2 * (2 * y + root) / (3 * y ^ 2) := by
  rw [newton]
  field_simp
  ring

theorem root_le_newton : root ≤ newton (root ^ 3) y := by
  have excess : newton (root ^ 3) y - root = _ := newton_sub above
  have nonneg : 0 ≤ (y - root) ^ 2 * (2 * y + root) / (3 * y ^ 2) := by positivity
  linarith

theorem abs_sub_root_le : |y - root| ≤ 3 * |y - newton (root ^ 3) y| := by
  have split : y - newton (root ^ 3) y = (y - root) * ((y ^ 2 + y * root + root ^ 2) / (3 * y ^ 2)) := by
    rw [newton]
    field_simp
    ring
  have third : 1 / 3 ≤ (y ^ 2 + y * root + root ^ 2) / (3 * y ^ 2) := by
    rw [div_le_div_iff₀ (by norm_num) (by positivity)]
    nlinarith [mul_pos positive above, sq_nonneg root]
  rw [split, abs_mul, abs_of_nonneg (le_trans (by norm_num) third)]
  nlinarith [abs_nonneg (y - root)]

/-- From above, a step leaves two thirds of the excess at most. -/
theorem newton_le_linear (beyond : root ≤ y) : newton (root ^ 3) y ≤ root + 2 / 3 * (y - root) := by
  have power : root ^ 3 / y ^ 2 ≤ root := by
    rw [div_le_iff₀ (by positivity)]
    nlinarith [mul_pos positive above, pow_le_pow_left₀ positive.le beyond 2]
  rw [newton]
  linarith

/-- From above, a step squares the excess. -/
theorem newton_le_quadratic (beyond : root ≤ y) : newton (root ^ 3) y ≤ root + (y - root) ^ 2 / root := by
  have excess : newton (root ^ 3) y - root = _ := newton_sub above
  have ratio : (2 * y + root) / (3 * y ^ 2) ≤ 1 / root := by
    rw [div_le_div_iff₀ (by positivity) positive]
    nlinarith
  have product := mul_le_mul_of_nonneg_left ratio (sq_nonneg (y - root))
  rw [← mul_div_assoc, mul_one_div] at product
  linarith

theorem newton_le_below {error : ℝ} (small : error ≤ 1 / 10) (low : (1 - error) * root ≤ y) (high : y ≤ root) :
    newton (root ^ 3) y ≤ (1 + 2 * error ^ 2) * root := by
  have excess : newton (root ^ 3) y - root = _ := newton_sub above
  have size : 9 / 10 * root ≤ y := by nlinarith
  have missing : (y - root) ^ 2 ≤ (error * root) ^ 2 := by
    rw [sq_le_sq, abs_sub_comm, abs_of_nonneg (by linarith)]
    exact (le_abs_self _).trans' (by linarith)
  have ratio : (2 * y + root) / (3 * y ^ 2) ≤ 2 / root := by
    rw [div_le_div_iff₀ (by positivity) positive]
    nlinarith
  have product := mul_le_mul missing ratio (by positivity) (sq_nonneg _)
  rw [← mul_div_assoc] at product
  have whole : (error * root) ^ 2 * (2 / root) = 2 * error ^ 2 * root := by
    field_simp
  linarith

end

/-! ### The way to the root -/

/-- How far above the root a step is, as a part of it and up to rounding errors. -/
def excess : Nat → ℚ
  | 0 => 35
  | steps + 1 => if excess steps ≤ 1 / 8 then excess steps ^ 2 else 3 / 4 * excess steps

theorem excess_nonneg (steps : Nat) : 0 ≤ excess steps := by
  induction steps with
  | zero => norm_num [excess]
  | succ steps ih =>
    rw [excess]
    split
    · positivity
    · linarith

theorem excess_antitone : Antitone excess := by
  apply antitone_nat_of_succ_le
  intro steps
  have nonneg := excess_nonneg steps
  rw [excess]
  split
  · nlinarith
  · linarith

theorem excess_thirty : excess 30 ≤ 1 / 10 ^ 110 := by
  decide +kernel

/-- Whether a number has come as near to a root as so many steps lead, each with an error. -/
structure Approached (error root : ℝ) (steps : Nat) (y : ℝ) : Prop where
  low : (1 - error) * root ≤ y
  high : y ≤ (1 + excess steps + 2 * error) * root

section
variable {error root y z : ℝ} (nonneg : 0 ≤ error) (small : error ≤ 1 / 10 ^ 4) (positive : 0 < root)
  (above : 0 < y) (step : Within error z (newton (root ^ 3) y))
include nonneg small positive above step

theorem Approached.next {steps : Nat} (approached : Approached error root steps y) :
    Approached error root (steps + 1) z := by
  have least := root_le_newton positive above
  obtain ⟨low, high⟩ := step.bounds (positive.le.trans least)
  have part : (0 : ℝ) ≤ excess steps := by exact_mod_cast excess_nonneg steps
  have later : (0 : ℝ) ≤ excess (steps + 1) := by exact_mod_cast excess_nonneg (steps + 1)
  refine ⟨by nlinarith, high.trans ?_⟩
  rcases le_total root y with beyond | below
  · have linear := newton_le_linear positive above beyond
    have quadratic := newton_le_quadratic positive above beyond
    have far : y - root ≤ (excess steps + 2 * error) * root := by linarith [approached.high]
    by_cases near : excess steps ≤ 1 / 8
    · have cast : (excess steps : ℝ) ≤ ((1 / 8 : ℚ) : ℝ) := Rat.cast_le.mpr near
      norm_num at cast
      have square : (y - root) ^ 2 / root ≤ (excess steps + 2 * error) ^ 2 * root := by
        rw [div_le_iff₀ positive]
        have power := pow_le_pow_left₀ (by linarith : 0 ≤ y - root) far 2
        calc (y - root) ^ 2 ≤ ((excess steps + 2 * error) * root) ^ 2 := power
          _ = (excess steps + 2 * error) ^ 2 * root * root := by ring
      have next : (excess (steps + 1) : ℝ) = excess steps ^ 2 := by
        rw [excess, if_pos near]
        push_cast
        rfl
      rw [next]
      have factor : (1 + error) * (1 + (excess steps + 2 * error) ^ 2) ≤ 1 + (excess steps : ℝ) ^ 2 + 2 * error := by
        have cross := mul_le_mul_of_nonneg_left cast nonneg
        have tiny := mul_le_mul_of_nonneg_left small nonneg
        have total : (excess steps + 2 * error) ^ 2 ≤ (excess steps : ℝ) ^ 2 + 6 / 10 * error := by linarith
        have few : (excess steps : ℝ) ^ 2 ≤ 1 / 64 := (pow_le_pow_left₀ part cast 2).trans_eq (by norm_num)
        have rest := mul_le_mul_of_nonneg_left (show (excess steps + 2 * error) ^ 2 ≤ 1 / 10 by linarith) nonneg
        linarith
      calc (1 + error) * newton (root ^ 3) y ≤ (1 + error) * ((1 + (excess steps + 2 * error) ^ 2) * root) := by
            gcongr
            linarith
        _ = (1 + error) * (1 + (excess steps + 2 * error) ^ 2) * root := by ring
        _ ≤ _ := by gcongr
    · have cast : ((1 / 8 : ℚ) : ℝ) < excess steps := Rat.cast_lt.mpr (not_le.mp near)
      norm_num at cast
      have next : (excess (steps + 1) : ℝ) = 3 / 4 * excess steps := by
        rw [excess, if_neg near]
        push_cast
        ring
      rw [next]
      have factor : (1 + error) * (1 + 2 / 3 * (excess steps + 2 * error)) ≤
          1 + 3 / 4 * (excess steps : ℝ) + 2 * error := by
        nlinarith
      calc (1 + error) * newton (root ^ 3) y ≤ (1 + error) * ((1 + 2 / 3 * (excess steps + 2 * error)) * root) := by
            gcongr
            linarith
        _ = (1 + error) * (1 + 2 / 3 * (excess steps + 2 * error)) * root := by ring
        _ ≤ _ := by gcongr
  · have under := newton_le_below positive above (by linarith) approached.low below
    have factor : (1 + error) * (1 + 2 * error ^ 2) ≤ 1 + excess (steps + 1) + 2 * error := by nlinarith
    calc (1 + error) * newton (root ^ 3) y ≤ (1 + error) * ((1 + 2 * error ^ 2) * root) := by gcongr
      _ = (1 + error) * (1 + 2 * error ^ 2) * root := by ring
      _ ≤ _ := by gcongr

theorem Approached.first (low : 10 / 101 * root ≤ y) (high : y ≤ 101 / 100 * root) : Approached error root 0 z := by
  have least := root_le_newton positive above
  obtain ⟨bottom, top⟩ := step.bounds (positive.le.trans least)
  have power : root ^ 3 / y ^ 2 ≤ 103 * root := by
    rw [div_le_iff₀ (by positivity)]
    have square := pow_le_pow_left₀ (by positivity) low 2
    nlinarith [mul_le_mul_of_nonneg_left square positive.le]
  have start : newton (root ^ 3) y ≤ 351 / 10 * root := by
    rw [newton]
    linarith
  refine ⟨by nlinarith, ?_⟩
  rw [excess]
  push_cast
  nlinarith

theorem near_root_of_stop {stop : ℝ} (tight : stop ≤ error) (close : |z - y| ≤ stop * z) :
    |z - root| ≤ 8 * error * root := by
  have least := root_le_newton positive above
  have size : 0 < newton (root ^ 3) y := positive.trans_le least
  obtain ⟨bottom, top⟩ := step.bounds size.le
  have near := abs_sub_root_le positive above
  have reach : |y - newton (root ^ 3) y| ≤ |z - y| + |z - newton (root ^ 3) y| := by
    rw [abs_sub_comm z y]
    exact abs_sub_le _ _ _
  have moved := step
  rw [Within, abs_of_pos size] at moved
  have above' : 0 < z := by nlinarith
  have whole : newton (root ^ 3) y ≤ 101 / 100 * z := by nlinarith
  have total : |z - root| ≤ |z - y| + |y - root| := abs_sub_le _ _ _
  have part : |z - root| ≤ (4 * stop + 304 / 100 * error) * z := by nlinarith
  have bound : |z - root| ≤ 71 / 10 * error * z := by nlinarith
  obtain ⟨_, high⟩ := abs_le.mp bound
  nlinarith

end

theorem newton_cast (a y : ℚ) : ((newton a y : ℚ) : ℝ) = newton (a : ℝ) y := by
  rw [newton, newton]
  push_cast
  rfl

namespace Context

variable {c : Context}

/-! ### Steps in decimals -/

/-- Whether a context has the digits that the functions work with, and a range for squares of numbers of so many
digits before or behind the point. -/
structure Spread (c : Context) (digits : Nat) : Prop extends Working c where
  below : c.least ≤ -(2 * digits + 3)
  above : 2 * digits + 3 ≤ c.greatest
  wide : c.precision ≤ digits

/-- Whether a number has so many digits before or behind the point. -/
structure Sized (digits : Nat) (q : ℚ) : Prop where
  low : 1 ≤ q * 10 ^ digits
  high : q ≤ 10 ^ digits

theorem Sized.pos {digits : Nat} {q : ℚ} (sized : Sized digits q) : 0 < q :=
  (pos_iff_pos_of_mul_pos (zero_lt_one.trans_le sized.low)).mpr (by positivity)

section
variable {digits : Nat} (spread : c.Spread digits)
include spread

theorem Spread.spans {q : ℚ} (low : 1 ≤ q * (1000 * (10 ^ digits) ^ 2)) (high : q ≤ 1000 * (10 ^ digits) ^ 2) :
    c.Spans q := by
  have power : (1000 : ℚ) * (10 ^ digits) ^ 2 = 10 ^ (2 * digits + 3 : ℤ) := by
    rw [zpow_add₀ (by norm_num), mul_comm (2 : ℤ), zpow_mul, zpow_natCast]
    norm_num
    ring
  have positive : 0 < q := (pos_iff_pos_of_mul_pos (zero_lt_one.trans_le low)).mpr (by positivity)
  rw [power] at low high
  refine spans_of_le spread.below spread.above ?_ ?_ <;> rw [abs_of_pos positive]
  · rwa [zpow_neg, inv_le_iff_one_le_mul₀ (pow_ten_pos _)]
  · exact high

theorem Spread.settles {q : ℚ} {outcome : Except Signal Decimal} (gives : c.Gives q outcome)
    (low : 1 / 10 ≤ q * 10 ^ digits) (high : q ≤ 100 * 10 ^ digits) :
    Settles (fun z => z.isFinite = true ∧ Within (5 * c.grain) z.value q ∧
        MultipleOf (-(digits + c.precision)) z.value)
      outcome := by
  have size : (1 : ℚ) ≤ 10 ^ digits := one_le_pow₀ (by norm_num)
  have positive : 0 < q := (pos_iff_pos_of_mul_pos (lt_of_lt_of_le (by norm_num) low)).mpr (by positivity)
  have spans : c.Spans q := spread.spans (by nlinarith) (by nlinarith)
  apply (gives.settles_of_spans spread.precise spans).mono
  intro z rounding
  refine ⟨rounding.isFinite, spans.1.within rounding, ?_⟩
  have first : (10 : ℚ) ^ (-(digits + 1) : ℤ) ≤ |q| := by
    rw [abs_of_pos positive, neg_add, zpow_add₀ (by norm_num), zpow_neg, zpow_natCast, zpow_neg_one,
      ← div_eq_inv_mul, div_le_iff₀ (by positivity)]
    linarith
  refine (spans.1.multipleOf rounding first).mono ?_
  omega

theorem Spread.spans_square {q : ℚ} (sized : Sized digits q) : c.Spans (q * q) := by
  refine spread.spans ?_ ?_
  · calc (1 : ℚ) ≤ (q * 10 ^ digits) * (q * 10 ^ digits) := one_le_mul_of_one_le_of_one_le sized.low sized.low
      _ ≤ 1000 * ((q * 10 ^ digits) * (q * 10 ^ digits)) := le_mul_of_one_le_left (mul_self_nonneg _) (by norm_num)
      _ = q * q * (1000 * (10 ^ digits) ^ 2) := by ring
  · calc q * q ≤ 10 ^ digits * 10 ^ digits := mul_le_mul sized.high sized.high sized.pos.le (by positivity)
      _ = (10 ^ digits) ^ 2 := (pow_two _).symm
      _ ≤ 1000 * (10 ^ digits) ^ 2 := le_mul_of_one_le_left (sq_nonneg _) (by norm_num)

theorem newton_settles {a y : Decimal} (given : a.isFinite = true) (carried : y.isFinite = true)
    (first : Sized digits y.value) (second : Sized digits (a.value / y.value ^ 2)) :
    Settles (fun z => z.isFinite = true ∧ Within (21 * c.grain) z.value (newton a.value y.value) ∧
        MultipleOf (-(digits + c.precision)) z.value)
      (do
        let doubled ← c.mul (ofInt 2) y
        c.div (← c.add doubled (← c.div a (← c.mul y y))) (ofInt 3)) := by
  have precise := spread.precise
  have tiny := c.grain_pos
  have fine := spread.fine
  have two : (ofInt 2).value = 2 := value_ofInt 2
  have three : (ofInt 3).value = 3 := value_ofInt 3
  have above := first.pos
  have beyond := second.pos
  have square : 0 < y.value ^ 2 := by positivity
  have bound : (0 : ℚ) < 10 ^ digits := by positivity
  apply (spread.settles (mul_gives precise (x := ofInt 2) rfl carried) (by rw [two]; linarith [first.low])
    (by rw [two]; linarith [first.high])).andThen
  rintro doubled ⟨sound, twice, _⟩
  rw [two] at twice
  have squares := spread.spans_square first
  apply ((mul_gives precise carried carried).settles_of_spans precise squares).andThen
  intro found multiplied
  have near := squares.1.within multiplied
  rw [← pow_two] at near
  have found_pos : 0 < found.value := by linarith [(near.plain (by linarith) square.le).1]
  have ratio := near.div_left a.value (by linarith) (by linarith) square
  obtain ⟨low, high⟩ := ratio.plain (by linarith) beyond.le
  apply (spread.settles (div_gives precise given multiplied.isFinite found_pos.ne')
    (by linarith [mul_le_mul_of_nonneg_right low bound.le, second.low]) (by linarith [second.high])).andThen
  rintro quotient ⟨divided, rounded, _⟩
  have tiny_sq : c.grain * c.grain ≤ 1 / 10 ^ 6 * c.grain := mul_le_mul_of_nonneg_right fine tiny.le
  have quotients := rounded.trans ratio (by linarith)
  have sums := (twice.mono (show _ ≤ 102 / 10 * c.grain by linarith)).add
    (quotients.mono (show _ ≤ 102 / 10 * c.grain by linarith)) (by linarith) beyond.le
  have total : 0 < 2 * y.value + a.value / y.value ^ 2 := by linarith
  obtain ⟨low, high⟩ := sums.plain (by linarith) total.le
  apply (spread.settles (add_gives precise sound divided)
    (by linarith [mul_le_mul_of_nonneg_right low bound.le, first.low, second.low])
    (by linarith [first.high, second.high])).andThen
  rintro sum ⟨summed, rounded, _⟩
  have thirds := (rounded.trans sums (by linarith)).div_right 3
  have exactly : newton a.value y.value = (2 * y.value + a.value / y.value ^ 2) / 3 := rfl
  rw [← exactly] at thirds
  have size : 0 < newton a.value y.value := by
    rw [exactly]
    linarith
  obtain ⟨low, high⟩ := thirds.plain (by linarith) size.le
  rw [exactly] at low high
  apply (spread.settles (div_gives precise summed (y := ofInt 3) rfl (by rw [three]; norm_num))
    (by rw [three]; linarith [mul_le_mul_of_nonneg_right low bound.le, first.low, second.low])
    (by rw [three]; linarith [first.high, second.high])).mono
  rintro z ⟨found, rounded, multiple⟩
  refine ⟨found, ?_, multiple⟩
  rw [three] at rounded
  exact (rounded.trans thirds (by linarith)).mono (by linarith [mul_le_mul_of_nonneg_left tiny_sq tiny.le])

/-- Whether two neighbours agree is found, and those that do are as near as the epsilon tells. -/
theorem agree_settles {epsilon y z : Decimal} (small : epsilon.isFinite = true) (same : epsilon.value = c.grain)
    (carried : y.isFinite = true) (found : z.isFinite = true) (first : Sized digits y.value)
    (second : Sized digits z.value)
    (multiple : MultipleOf (-(digits + c.precision)) y.value) (other : MultipleOf (-(digits + c.precision)) z.value) :
    Settles (fun agree => agree = true → |z.value - y.value| ≤ 11 / 10 * c.grain * z.value)
      (do isAtMost (← c.abs (← c.sub z y)) (← c.mul epsilon z)) := by
  have precise := spread.precise
  have tiny := c.grain_pos
  have fine := spread.fine
  have wide := spread.wide
  have below := spread.below
  have above := spread.above
  have bound : (1 : ℚ) ≤ 10 ^ digits := one_le_pow₀ (by norm_num)
  have positive := second.pos
  have differences : c.Spans (z.value - y.value) := by
    refine spans_of_multipleOf (other.sub multiple) (by omega) (show (digits + 3 : ℤ) ≤ c.greatest by omega) ?_
    rw [zpow_add₀ (by norm_num), zpow_natCast, abs_le]
    norm_num
    constructor <;> linarith [first.pos, first.high, second.high]
  apply ((sub_gives precise found carried).settles_of_spans precise differences).andThen
  intro gap subtracted
  have apart := (differences.1.within subtracted).abs
  have sizes : c.Spans |gap.value| := by
    have inside := differences.of_rounding precise subtracted
    rwa [Spans, Normal, abs_eq_zero, abs_abs]
  apply ((abs_gives precise subtracted.isFinite).settles_of_spans precise sizes).andThen
  intro size measured
  have length := (sizes.1.within measured).bounds (abs_nonneg _)
  have products : c.Spans (epsilon.value * z.value) := by
    have power : 1 ≤ c.grain * 10 ^ digits := by
      rw [grain, ← zpow_natCast, ← zpow_add₀ (by norm_num)]
      exact one_le_zpow₀ (by norm_num) (by omega)
    rw [same]
    refine spread.spans ?_ (by nlinarith [second.high])
    calc (1 : ℚ) ≤ c.grain * 10 ^ digits * (z.value * 10 ^ digits) := one_le_mul_of_one_le_of_one_le power second.low
      _ ≤ 1000 * (c.grain * 10 ^ digits * (z.value * 10 ^ digits)) :=
        le_mul_of_one_le_left (by positivity) (by norm_num)
      _ = c.grain * z.value * (1000 * (10 ^ digits) ^ 2) := by ring
  apply ((mul_gives precise small found).settles_of_spans precise products).andThen
  intro limit scaled
  have most := (products.1.within scaled).bounds (by rw [same]; positivity)
  rw [same] at most
  rw [isAtMost_eq measured.isFinite scaled.isFinite]
  refine .ok ?_
  intro agree
  have le : size.value ≤ limit.value := of_decide_eq_true agree
  have gaps := (apart.bounds (abs_nonneg _)).1
  nlinarith [abs_nonneg (z.value - y.value)]

end

/-! ### All steps -/

/-- Whether a root has so few digits before or behind the point that numbers about it stay inside the range. -/
structure Inside (digits : Nat) (root : ℝ) : Prop where
  low : 10 ^ 5 ≤ root * 10 ^ digits
  high : 10 ^ 5 * root ≤ 10 ^ digits

theorem Inside.sized {digits : Nat} {root : ℝ} (inside : Inside digits root) {q : ℚ} (low : root / 1600 ≤ q)
    (high : (q : ℝ) ≤ 124 * root) : Sized digits q := by
  have power : (0 : ℝ) < 10 ^ digits := by positivity
  have scaled := mul_le_mul_of_nonneg_right low power.le
  constructor
  · exact_mod_cast (show (1 : ℝ) ≤ q * 10 ^ digits by linarith [inside.low])
  · exact_mod_cast (show (q : ℝ) ≤ 10 ^ digits by linarith [inside.high])

theorem ratio_bounds {root y : ℝ} (positive : 0 < root) (low : 9 / 100 * root ≤ y) (high : y ≤ 40 * root) :
    root / 1600 ≤ root ^ 3 / y ^ 2 ∧ root ^ 3 / y ^ 2 ≤ 124 * root := by
  have above : 0 < y := by linarith
  have square : 0 < y ^ 2 := by positivity
  rw [le_div_iff₀ square, div_le_iff₀ square]
  constructor
  · have part := mul_le_mul_of_nonneg_right (pow_le_pow_left₀ above.le high 2) positive.le
    linarith
  · have part := mul_le_mul_of_nonneg_right (pow_le_pow_left₀ (by positivity) low 2) positive.le
    linarith [pow_pos positive 3]

theorem inside_of_cube {digits : Nat} {root : ℝ} (nonneg : 0 ≤ root) {low high : ℤ} (least : 10 ^ low ≤ root ^ 3)
    (most : root ^ 3 ≤ 10 ^ high) (below : 15 - 3 * digits ≤ low) (above : high + 15 ≤ 3 * digits) :
    Inside digits root := by
  have power : (0 : ℝ) < 10 ^ digits := by positivity
  constructor
  · refine (pow_le_pow_iff_left₀ (by positivity) (by positivity) (show 3 ≠ 0 by decide)).mp ?_
    have bound : (10 : ℝ) ^ (15 - 3 * digits : ℤ) ≤ root ^ 3 := (zpow_le_zpow_right₀ (by norm_num) below).trans least
    rw [zpow_sub₀ (by norm_num), mul_comm (3 : ℤ), zpow_mul, zpow_natCast, div_le_iff₀ (by positivity)] at bound
    rw [mul_pow, ← pow_mul]
    exact_mod_cast bound
  · refine (pow_le_pow_iff_left₀ (by positivity) (by positivity) (show 3 ≠ 0 by decide)).mp ?_
    have bound : (10 : ℝ) ^ (15 : ℤ) * root ^ 3 ≤ 10 ^ (15 : ℤ) * 10 ^ high := by gcongr
    have total : (10 : ℝ) ^ (15 : ℤ) * 10 ^ high ≤ 10 ^ (digits * 3 : ℤ) := by
      rw [← zpow_add₀ (by norm_num)]
      exact zpow_le_zpow_right₀ (by norm_num) (by omega)
    rw [mul_pow, ← pow_mul, ← pow_mul]
    exact_mod_cast bound.trans total

section
variable {digits : Nat} (spread : c.Spread digits) {root : ℝ} (positive : 0 < root) (inside : Inside digits root)
  {a epsilon : Decimal} (given : a.isFinite = true) (cube : (a.value : ℝ) = root ^ 3)
  (small : epsilon.isFinite = true) (same : epsilon.value = c.grain)
include spread positive inside given cube small same

/-- One step from a number about the root. The rest of the steps is taken unless the next number agrees. -/
theorem cubeRootSteps_succ {holds : Decimal → Prop} {fuel : Nat} {y : Decimal} (carried : y.isFinite = true)
    (multiple : MultipleOf (-(digits + c.precision)) y.value) (low : 9 / 100 * root ≤ y.value)
    (high : y.value ≤ 40 * root)
    (later : ∀ z : Decimal, z.isFinite = true → MultipleOf (-(digits + c.precision)) z.value →
      Within (21 * c.grain : ℝ) z.value (newton (root ^ 3) y.value) →
      (|(z.value : ℝ) - root| ≤ 168 * c.grain * root → holds z) ∧
        Settles holds (c.cubeRootSteps epsilon a fuel z)) :
    Settles holds (c.cubeRootSteps epsilon a (fuel + 1) y) := by
  have fine := spread.fine
  have fine' := spread.fine_real
  have tiny : (0 : ℝ) < c.grain := Rat.cast_pos.mpr c.grain_pos
  have above : (0 : ℝ) < y.value := by linarith
  obtain ⟨least, most⟩ := ratio_bounds positive low high
  have first : Sized digits y.value := inside.sized (by linarith) (by linarith)
  have second : Sized digits (a.value / y.value ^ 2) := by
    refine inside.sized ?_ ?_ <;> push_cast <;> rwa [cube]
  have step : Settles holds ((do
      let doubled ← c.mul (ofInt 2) y
      c.div (← c.add doubled (← c.div a (← c.mul y y))) (ofInt 3)) >>= fun z =>
        (do isAtMost (← c.abs (← c.sub z y)) (← c.mul epsilon z)) >>= fun agree =>
          if agree then pure z else c.cubeRootSteps epsilon a fuel z) := by
    apply (newton_settles spread given carried first second).andThen
    rintro z ⟨found, near, other⟩
    have near := near.cast
    rw [newton_cast, cube] at near
    push_cast at near
    have reaches := root_le_newton positive above
    have start : newton (root ^ 3) (y.value : ℝ) ≤ 68 * root := by
      rw [newton]
      linarith
    obtain ⟨bottom, top⟩ := (near.mono (show _ ≤ 1 / 100 by linarith)).bounds (positive.le.trans reaches)
    have next : Sized digits z.value := inside.sized (by linarith) (by linarith)
    obtain ⟨stops, goes⟩ := later z found other near
    apply (agree_settles spread small same carried found first next multiple other).andThen
    intro agree close
    refine .ite (fun agrees => .ok (stops ?_)) fun _ => goes
    have close := (Rat.cast_le (K := ℝ)).mpr (close agrees)
    push_cast at close
    have stop := near_root_of_stop (by linarith) (by linarith) positive above near (by linarith) close
    linarith
  unfold cubeRootSteps
  simpa only [bind_assoc] using step

theorem cubeRootSteps_settles (fuel : Nat) {steps : Nat} (all : steps + fuel = 99) {y : Decimal}
    (carried : y.isFinite = true) (multiple : MultipleOf (-(digits + c.precision)) y.value)
    (approached : Approached (21 * c.grain) root steps y.value) :
    Settles (fun z => z.isFinite = true ∧ |(z.value : ℝ) - root| ≤ 168 * c.grain * root)
      (c.cubeRootSteps epsilon a fuel y) := by
  have fine := spread.fine_real
  have tiny : (0 : ℝ) < c.grain := Rat.cast_pos.mpr c.grain_pos
  induction fuel generalizing steps y with
  | zero =>
    have last : excess steps ≤ 1 / 10 ^ 110 := (excess_antitone (show 30 ≤ steps by omega)).trans excess_thirty
    have least := spread.pow_le_grain
    have cast := (Rat.cast_le (K := ℝ)).mpr last
    norm_num at cast least
    refine .ok ⟨carried, abs_le.mpr ⟨?_, ?_⟩⟩
    · nlinarith [approached.low]
    · nlinarith [approached.high]
  | succ fuel ih =>
    have most : (excess steps : ℝ) ≤ 35 := by
      have start := excess_antitone (Nat.zero_le steps)
      rw [show excess 0 = 35 from rfl] at start
      exact_mod_cast start
    have low : 9 / 100 * root ≤ y.value := by nlinarith [approached.low]
    apply cubeRootSteps_succ spread positive inside given cube small same carried multiple low
      (by nlinarith [approached.high])
    intro z found multiple near
    refine ⟨fun close => ⟨found, close⟩, ?_⟩
    exact ih (by omega) found multiple
      (approached.next (by linarith) (by linarith) positive (by linarith) near)

end

/-! ### The work -/

theorem value_neg_iff {negative : Bool} {coefficient : Nat} {exponent : Int}
    (nonzero : (finite negative coefficient exponent).value ≠ 0) :
    (finite negative coefficient exponent).value < 0 ↔ negative = true := by
  rw [value_finite] at nonzero ⊢
  have size : (0 : ℚ) < coefficient * 10 ^ exponent := by
    rw [← abs_signed negative, ← abs_of_pos (pow_ten_pos exponent), ← abs_mul]
    exact abs_pos.mpr nonzero
  rw [signed_eq]
  cases negative with
  | false => simpa using size.le
  | true => simpa using size

theorem value_copySign {x z : Decimal} (sound : z.isFinite = true) (positive : 0 < z.value) (given : x.isFinite = true)
    (nonzero : x.value ≠ 0) : (z.copySign x).value = if x.value < 0 then -z.value else z.value := by
  rw [← withSign_false sound positive]
  obtain ⟨s, m, e, rfl⟩ := isFinite_iff.mp sound
  obtain ⟨t, n, f, rfl⟩ := isFinite_iff.mp given
  have sign := value_neg_iff nonzero
  show (finite t m e).value = _
  cases t with
  | false => rw [if_neg (sign.not.mpr (by simp))]; rfl
  | true =>
    rw [if_pos (sign.mpr rfl)]
    simp [withSign, value_finite, signed_eq]

/-- What is near the magnitude of the root of a number is near the root with the sign of the number. -/
theorem within_copySign {x z : Decimal} (given : x.isFinite = true) (found : z.isFinite = true) {root error : ℝ}
    (nonzero : root ≠ 0) (cube : (x.value : ℝ) = root ^ 3) (small : error ≤ 1 / 2)
    (close : Within error z.value |root|) : Within error (z.copySign x).value root := by
  have positive : 0 < |root| := abs_pos.mpr nonzero
  have some : x.value ≠ 0 := by
    rintro zero
    rw [zero, Rat.cast_zero] at cube
    exact nonzero (pow_eq_zero_iff (by decide) |>.mp cube.symm)
  have least := (close.bounds positive.le).1
  have above : (0 : ℝ) < z.value := by nlinarith
  rw [value_copySign found (by exact_mod_cast above) given some]
  split
  · rename_i negative
    have side : root < 0 := by
      have cast := (Rat.cast_lt (K := ℝ)).mpr negative
      rw [cube, Rat.cast_zero] at cast
      exact (Odd.pow_neg_iff (by decide)).mp cast
    rw [abs_of_neg side] at close
    have turned := close.mul_left (-1)
    push_cast
    simpa using turned
  · rename_i other
    have side : 0 < root := by
      have cast := (Rat.cast_le (K := ℝ)).mpr (not_lt.mp other)
      rw [cube, Rat.cast_zero] at cast
      exact lt_of_le_of_ne ((Odd.pow_nonneg_iff (by decide)).mp cast) nonzero.symm
    rwa [abs_of_pos side] at close

section
variable {digits : Nat} (spread : c.Spread digits) (refuses : c.refusesSubnormal = true)
include spread refuses

omit spread refuses in
theorem pow_third_bounds {a : Decimal} (given : a.isFinite = true) {root : ℝ} (positive : 0 < root)
    (cube : (a.value : ℝ) = root ^ 3) :
    (10 : ℝ) ^ (a.adjusted.fdiv 3) ≤ root ∧ root < 10 * 10 ^ (a.adjusted.fdiv 3) := by
  have some : 0 < a.value := by
    have size := pow_pos positive 3
    rw [← cube] at size
    exact_mod_cast size
  have place := adjusted_eq given some.ne'
  rw [abs_of_pos some] at place
  have low := (le_log_iff some).mp place.le
  have high := (log_lt_iff some).mp (show _ < a.adjusted + 1 by omega)
  have third : a.adjusted.fdiv 3 * (3 : ℕ) ≤ a.adjusted ∧ a.adjusted + 1 ≤ (a.adjusted.fdiv 3 + 1) * (3 : ℕ) := by
    rw [Int.fdiv_eq_ediv_of_nonneg _ (by decide)]
    omega
  constructor
  · refine (pow_le_pow_iff_left₀ (by positivity) positive.le (show 3 ≠ 0 by decide)).mp ?_
    rw [← cube, ← zpow_natCast, ← zpow_mul]
    have cast := (Rat.cast_le (K := ℝ)).mpr low
    push_cast at cast ⊢
    exact (zpow_le_zpow_right₀ (by norm_num) third.1).trans cast
  · rw [← zpow_one_add₀ (by norm_num), add_comm]
    refine (pow_lt_pow_iff_left₀ positive.le (by positivity) (show 3 ≠ 0 by decide)).mp ?_
    rw [← cube, ← zpow_natCast, ← zpow_mul]
    have cast := (Rat.cast_lt (K := ℝ)).mpr high
    push_cast at cast ⊢
    exact cast.trans_le (zpow_le_zpow_right₀ (by norm_num) third.2)

omit spread refuses in
theorem Inside.place {root : ℝ} (inside : Inside digits root) {k : ℤ} (first : 10 ^ k ≤ root)
    (last : root < 10 * 10 ^ k) : -(digits : ℤ) + 4 ≤ k ∧ k + 5 ≤ digits := by
  have power : (0 : ℝ) < 10 ^ digits := by positivity
  constructor
  · have bound : (10 : ℝ) ^ (-(digits : ℤ) + 4) < 10 ^ k := by
      rw [zpow_add₀ (by norm_num), zpow_neg, zpow_natCast, inv_mul_lt_iff₀ power]
      have low := inside.low
      have scaled := mul_lt_mul_of_pos_right last power
      norm_num
      linarith
    exact ((zpow_lt_zpow_iff_right₀ (by norm_num)).mp bound).le
  · have bound : (10 : ℝ) ^ (k + 5) ≤ 10 ^ (digits : ℤ) := by
      rw [zpow_add₀ (by norm_num), zpow_natCast]
      have high := inside.high
      norm_num at high ⊢
      linarith
    exact (zpow_le_zpow_iff_right₀ (by norm_num)).mp bound

theorem cubeRootStart_settles {a : Decimal} (given : a.isFinite = true) {root : ℝ} (positive : 0 < root)
    (cube : (a.value : ℝ) = root ^ 3) (inside : Inside digits root) :
    Settles (fun z => z.isFinite = true ∧ MultipleOf (-(digits + c.precision)) z.value ∧
        10 / 101 * root ≤ z.value ∧ z.value ≤ 101 / 100 * root)
      (c.power (ofInt 10) (ofInt (a.adjusted.fdiv 3))) := by
  have precise := spread.precise
  have below := spread.below
  have above := spread.above
  have wide := spread.wide
  have fine := spread.fine
  have tiny := c.grain_pos
  obtain ⟨first, last⟩ := pow_third_bounds given positive cube
  generalize a.adjusted.fdiv 3 = k at first last
  have far := inside.place first last
  have room : c.Room k.natAbs := ⟨by omega, by omega⟩
  have checked : c.Checked := ⟨refuses, precise, by omega, by omega⟩
  have admitted : Yields c.Admits (c.power (ofInt 10) (ofInt k)) :=
    checked.rounds.power rfl rfl fun zero => absurd zero (by decide)
  have power := ((power_concludes precise refuses (b := 10) (by decide) le_rfl k).and admitted).grant
    fun _ without => without room
  apply power.mono
  rintro z ⟨⟨sound, near⟩, admitted⟩
  push_cast at near
  have unit := pow_ten_pos k
  obtain ⟨bottom, top⟩ := near.bounds unit.le
  have small : 6 * c.grain * 10 ^ k ≤ 1 / 1000 * 10 ^ k := mul_le_mul_of_nonneg_right (by linarith) unit.le
  refine ⟨sound, (admitted.multipleOf (k := k - 1) ?_).mono (by omega), ?_, ?_⟩
  · rw [zpow_sub_one₀ (by norm_num)]
    exact le_trans (by linarith) (le_abs_self _)
  · have cast := (Rat.cast_le (K := ℝ)).mpr (show 999 / 1000 * 10 ^ k ≤ z.value by linarith)
    push_cast at cast
    linarith
  · have cast := (Rat.cast_le (K := ℝ)).mpr (show z.value ≤ 101 / 100 * 10 ^ k by linarith)
    push_cast at cast
    linarith

/-- The cube root is found, near the real one. -/
theorem cubeRootWork_settles {x : Decimal} (given : x.isFinite = true) (short : Short c.precision x.value)
    (normal : c.Normal x.value) (small : |x.value| < 10 ^ (c.greatest + 1)) {root : ℝ} (nonzero : root ≠ 0)
    (cube : (x.value : ℝ) = root ^ 3) (inside : Inside digits |root|) :
    Settles (fun z => z.isFinite = true ∧ Within (168 * c.grain : ℝ) z.value root) (c.cubeRootWork x) := by
  have precise := spread.precise
  have below := spread.below
  have above := spread.above
  have wide := spread.wide
  have fine := spread.fine_real
  have tiny : (0 : ℝ) < c.grain := Rat.cast_pos.mpr c.grain_pos
  have positive : 0 < |root| := abs_pos.mpr nonzero
  have some : x.value ≠ 0 := by
    rintro zero
    rw [zero, Rat.cast_zero] at cube
    exact nonzero (pow_eq_zero_iff (by decide) |>.mp cube.symm)
  unfold cubeRootWork
  rw [isEqual_eq given rfl, value_zero, decide_eq_false some]
  refine .andThen (.ok rfl : Settles (· = false) _) ?_
  intro _ none
  rw [none, if_neg (by decide)]
  have magnitudes : c.Normal |x.value| := by rwa [Normal, abs_eq_zero, abs_abs]
  have few := short.abs
  have fits : c.Fits |x.value| := magnitudes.fits precise (by rwa [magnitudes.roundAt_eq few, abs_abs])
  apply ((abs_gives precise given).settles fits).andThen
  intro a rounding
  have sound := rounding.isFinite
  have cubed : (a.value : ℝ) = |root| ^ 3 := by
    rw [magnitudes.value_eq rounding few, Rat.cast_abs, cube, abs_pow]
  apply (cubeRootStart_settles spread refuses sound positive cubed inside).andThen
  intro start started
  obtain ⟨carried, multiple, low, high⟩ := started
  apply (epsilon_settles precise (by omega) (by omega)).andThen
  intro epsilon small
  obtain ⟨carried', exactly⟩ := small
  have steps : Settles (fun z => z.isFinite = true ∧ Within (168 * c.grain : ℝ) z.value |root|)
      (c.cubeRootSteps epsilon a seriesBound start) := by
    simp only [Within, abs_abs]
    apply cubeRootSteps_succ spread positive inside sound cubed carried' exactly carried multiple (by linarith)
      (by linarith)
    intro z found multiple near
    refine ⟨fun close => ⟨found, close⟩, ?_⟩
    exact cubeRootSteps_settles spread positive inside sound cubed carried' exactly 99 (show 0 + 99 = 99 from rfl)
      found multiple
      (Approached.first (by linarith) (by linarith) positive (by linarith) near low high)
  apply steps.andThen
  intro z stepped
  obtain ⟨found, close⟩ := stepped
  exact .ok ⟨isFinite_copySign found x, within_copySign given found nonzero cube (by linarith) close⟩

end

end Context

end Reckoner.Decimal

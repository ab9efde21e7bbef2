import Reckoner.Proofs.Decimal.Exponential
import Reckoner.Proofs.NumberSystem.DecimalTrigonometry

/-! The exponential function of decimals turns sums into products, up to four units of the last digit. The guard
digits allow it as long as the multiple of the logarithm of two that is taken off an argument keeps its digits behind
the point. -/

namespace Reckoner.Decimal.Context

/-! ### The last rounding -/

/-- However few the digits, rounding moves a positive number by a third of it at most. -/
theorem Normal.within_third {c : Context} (precise : 0 < c.precision) {q : ℚ} {z : Decimal} (normal : c.Normal q)
    (positive : 0 < q) (rounding : c.IsRounding q z) : Within (1 / 3) z.value q := by
  have first := pow_log_le positive
  have place := normal.lastPlace_eq positive.ne'
  rw [abs_of_pos positive] at place
  have below : c.lastPlace q ≤ Int.log 10 q := by omega
  have unit := pow_ten_pos (Int.log 10 q)
  have error := roundAt_error (c.lastPlace q) q
  rw [← eq_roundAt_of_round rounding.rounded] at error
  have coarse : (10 : ℚ) ^ c.lastPlace q ≤ 10 ^ Int.log 10 q := zpow_le_zpow_right₀ (by norm_num) below
  rw [Within, abs_of_pos positive]
  rcases le_or_gt (3 / 2 * 10 ^ Int.log 10 q) q with large | small
  · linarith
  -- Below one and a half of its first digit's unit, a number is rounded to that or is nearer than that.
  have least := le_abs_round precise (k := Int.log 10 q) (by
    rw [tiniest]
    have low := (le_log_iff positive).mpr ((normal.resolve_left positive.ne').trans_eq (abs_of_pos positive))
    omega) (by rwa [abs_of_pos positive]) rounding.rounded
  have nonneg := round_nonneg positive.le rounding.rounded
  rw [abs_of_nonneg nonneg] at least
  obtain ⟨low, high⟩ := abs_le.mp error
  refine abs_le.mpr ⟨by linarith, ?_⟩
  rcases eq_or_lt_of_le below with same | finer
  · have one : (1 : ℤ) * 10 ^ Int.log 10 q = (10 : ℚ) ^ Int.log 10 q := by rw [Int.cast_one, one_mul]
    have near : 2 * |q - (1 : ℤ) * 10 ^ Int.log 10 q| < 10 ^ Int.log 10 q := by
      rw [one, abs_of_nonneg (by linarith)]
      linarith
    have rounded := eq_roundAt near.le fun tie => absurd tie near.ne
    rw [← same, ← eq_roundAt_of_round rounding.rounded, same, one] at rounded
    linarith
  · have tenth : (10 : ℚ) ^ c.lastPlace q ≤ 10 ^ (Int.log 10 q - 1) := zpow_le_zpow_right₀ (by norm_num) (by omega)
    rw [zpow_sub_one₀ (by norm_num)] at tenth
    linarith

/-! ### The accuracy of the result -/

/-- How far a result is from the exponential function at most, as a part of it. -/
def exponentialError (precision : Nat) : ℚ := if precision = 1 then 42 / 100 else 11 / 10 * 10 ^ (1 - (precision : ℤ))

/-- The absolute value that an argument may have, with one added to it. -/
def exponentialReach (precision : Nat) : ℚ := 10 ^ min 6 (precision + 4)

theorem exponentialError_bounds {precision : Nat} (positive : 1 ≤ precision) {error tolerance : ℚ}
    (known : exponentialError precision = error) (wide : 4 * 10 ^ (1 - (precision : ℤ)) = tolerance) :
    0 ≤ error ∧ error ≤ 1 ∧ (1 + error) ^ 2 ≤ (1 + tolerance) * (1 - error) ∧
      (1 - tolerance) * (1 + error) ≤ (1 - error) ^ 2 := by
  rw [exponentialError] at known
  split at known
  · rename_i one
    rw [one] at wide
    rw [← known, ← wide]
    norm_num
  · have unit := pow_ten_pos (1 - (precision : ℤ))
    have fine : (10 : ℚ) ^ (1 - (precision : ℤ)) ≤ 1 / 10 :=
      (zpow_le_zpow_right₀ (by norm_num) (show 1 - (precision : ℤ) ≤ -1 by omega)).trans_eq (by norm_num)
    rw [← known, ← wide]
    generalize (10 : ℚ) ^ (1 - (precision : ℤ)) = grain at unit fine
    refine ⟨by linarith, by linarith, by nlinarith, by nlinarith⟩

/-- A small change of its argument changes the exponential function by little more than as large a part. -/
theorem exp_within {x moved bound : ℝ} (less : |moved| ≤ bound) (small : bound ≤ 1) :
    Within (bound + bound ^ 2) (Real.exp (x + moved)) (Real.exp x) := by
  have tangent := Real.abs_exp_sub_one_sub_id_le (less.trans small)
  have square : moved ^ 2 ≤ bound ^ 2 := by
    rw [← sq_abs]
    exact pow_le_pow_left₀ (abs_nonneg _) less 2
  have split : Real.exp (x + moved) - Real.exp x = (Real.exp moved - 1) * Real.exp x := by
    rw [Real.exp_add]
    ring
  have near := abs_add_le (Real.exp moved - 1 - moved) moved
  rw [sub_add_cancel] at near
  rw [Within, split, abs_mul]
  exact mul_le_mul_of_nonneg_right (by linarith) (abs_nonneg _)

theorem Guarded.last_within {c : Context} (guarded : c.Guarded) {q : ℚ} {z : Decimal} (positive : 0 < q)
    (rounding : c.IsRounding q z) : Within (if c.precision = 1 then 1 / 3 else 5 * c.grain) z.value q := by
  have normal := normal_of_round guarded.refuses rounding.rounded
  split
  · exact normal.within_third guarded.positive positive rounding
  · exact normal.within rounding

/-- Results that are off by a small part of numbers that multiply multiply themselves, up to a few such parts. -/
theorem abs_sub_mul_le {error tolerance u v w x y : ℝ} (first : Within error u x) (second : Within error v y)
    (third : Within error w (x * y)) (left : 0 < x) (right : 0 < y) (nonneg : 0 ≤ error) (small : error ≤ 1)
    (above : (1 + error) ^ 2 ≤ (1 + tolerance) * (1 - error))
    (below : (1 - tolerance) * (1 + error) ≤ (1 - error) ^ 2) :
    |w - u * v| ≤ tolerance * w := by
  have product : 0 < x * y := mul_pos left right
  obtain ⟨low₁, high₁⟩ := first.bounds left.le
  obtain ⟨low₂, high₂⟩ := second.bounds right.le
  obtain ⟨low₃, high₃⟩ := third.bounds product.le
  have least : 0 ≤ (1 - error) * x := mul_nonneg (by linarith) left.le
  have least' : 0 ≤ (1 - error) * y := mul_nonneg (by linarith) right.le
  have lower : (1 - error) ^ 2 * (x * y) ≤ u * v := by
    calc (1 - error) ^ 2 * (x * y) = (1 - error) * x * ((1 - error) * y) := by ring
      _ ≤ u * v := mul_le_mul low₁ low₂ least' (least.trans low₁)
  have upper : u * v ≤ (1 + error) ^ 2 * (x * y) := by
    calc u * v ≤ (1 + error) * x * ((1 + error) * y) := mul_le_mul high₁ high₂ (least'.trans low₂) (by positivity)
      _ = (1 + error) ^ 2 * (x * y) := by ring
  have positive : 0 ≤ w := (mul_nonneg (by linarith) product.le).trans low₃
  have wide : 0 ≤ 1 + tolerance := by
    by_contra negative
    have nonpos := mul_nonpos_of_nonpos_of_nonneg (not_le.mp negative).le (by linarith : 0 ≤ 1 - error)
    have square : 0 < (1 + error) ^ 2 := by positivity
    linarith
  have atMost : u * v ≤ (1 + tolerance) * w := by
    calc u * v ≤ (1 + error) ^ 2 * (x * y) := upper
      _ ≤ (1 + tolerance) * (1 - error) * (x * y) := mul_le_mul_of_nonneg_right above product.le
      _ = (1 + tolerance) * ((1 - error) * (x * y)) := by ring
      _ ≤ (1 + tolerance) * w := mul_le_mul_of_nonneg_left low₃ wide
  have under : (1 - tolerance) * w ≤ u * v := by
    rcases le_total 0 (1 - tolerance) with some | none
    · calc (1 - tolerance) * w ≤ (1 - tolerance) * ((1 + error) * (x * y)) := mul_le_mul_of_nonneg_left high₃ some
        _ = (1 - tolerance) * (1 + error) * (x * y) := by ring
        _ ≤ (1 - error) ^ 2 * (x * y) := mul_le_mul_of_nonneg_right below product.le
        _ ≤ u * v := lower
    · exact (mul_nonpos_of_nonpos_of_nonneg none positive).trans ((mul_nonneg (sq_nonneg _) product.le).trans lower)
  exact abs_le.mpr ⟨by linarith, by linarith⟩

/-- The change of the argument, the error of the work and the last rounding together. -/
theorem Guarded.within_exponentialError {c : Context} (guarded : c.Guarded) {x moved y z : ℝ}
    (less : |moved| ≤ (53 / 100 * 10 ^ min 6 (c.precision + 4) + 1) * (c.grain / 10 ^ 5))
    (near : Within (7000 * (c.grain / 10 ^ 5) : ℝ) y (Real.exp (x + moved)))
    (last : Within ((if c.precision = 1 then 1 / 3 else 5 * c.grain : ℚ) : ℝ) z y) :
    Within (exponentialError c.precision : ℝ) z (Real.exp x) := by
  have positive := guarded.positive
  have tiny : (0 : ℝ) < c.grain := Rat.cast_pos.mpr c.grain_pos
  by_cases one : c.precision = 1
  · have grain : (c.grain : ℝ) = 1 / 10 := by
      rw [Context.grain, one]
      norm_num
    rw [grain, one] at less
    rw [grain] at near
    rw [if_pos one] at last
    rw [exponentialError, if_pos one]
    norm_num at less near last ⊢
    have first := exp_within (x := x) less (by norm_num)
    exact ((last.trans (near.trans first (by norm_num)) (by norm_num)).mono (by norm_num))
  · have two : 2 ≤ c.precision := by omega
    have fine : (c.grain : ℝ) ≤ 1 / 100 := (grain_le_real two).trans_eq (by norm_num)
    have error : ((exponentialError c.precision : ℚ) : ℝ) = 11 * c.grain := by
      rw [exponentialError, if_neg one, Context.grain, sub_eq_add_neg, zpow_add₀ (by norm_num)]
      push_cast
      ring
    rw [Nat.min_eq_left (by omega)] at less
    rw [if_neg one] at last
    rw [error]
    push_cast at last
    have less : |moved| ≤ 531 / 100 * c.grain := by linarith
    have first := exp_within (x := x) less (by linarith)
    have square : (c.grain : ℝ) * c.grain ≤ 1 / 100 * c.grain := mul_le_mul_of_nonneg_right fine tiny.le
    have cube : (c.grain : ℝ) * (c.grain * c.grain) ≤ 1 / 10000 * c.grain := by nlinarith
    refine (last.trans (near.trans first (by linarith)) (by linarith)).mono ?_
    nlinarith

/-- The exponential function is found within a few units behind the last digit. -/
theorem Guarded.exp_near {c : Context} (guarded : c.Guarded) {x : Decimal} (given : x.isFinite = true)
    (small : |x.value| + 1 ≤ exponentialReach c.precision) :
    Yields (fun z => Within (exponentialError c.precision : ℝ) z.value (Real.exp x.value)) (c.exp x) := by
  have working := guarded.working
  have positive := guarded.positive
  have most := guarded.most
  have tiny : (0 : ℝ) < c.grain := Rat.cast_pos.mpr c.grain_pos
  have least : 6 ≤ c.precision + 5 := by omega
  have natural := (Constants.ofPrecision_natural least (show c.precision + 5 ≤ 105 by omega)).yields
  have constants : Yields (fun k => k.Natural (c.precision + 5) ∧ k.AllFinite)
      (Constants.ofPrecision (c.precision + 5)) := by
    intro k found
    exact ⟨natural k found, Constants.ofPrecision_allFinite _ k found⟩
  refine (lift_yields constants).andThen ?_
  rintro k ⟨natural, sound⟩
  have fits : |x.value| + 1 ≤ 69 / 100 * 10 ^ (c.precision + 5) := by
    have reach : exponentialReach c.precision ≤ 10 ^ (c.precision + 4) :=
      pow_le_pow_right₀ (by norm_num) (Nat.min_le_right _ _)
    have power : (0 : ℚ) < 10 ^ (c.precision + 4) := by positivity
    rw [pow_succ 10 (c.precision + 4)]
    linarith
  refine (expWork_near working natural (show min 6 (c.precision + 4) ≤ c.precision + 5 by omega) sound
    guarded.refuses given small fits).andThen ?_
  rintro y ⟨found, moved, less, near⟩
  refine lift_yields ?_
  intro z result
  have rounding := (plus_reaches positive found).yields z result
  have exact := Real.exp_pos ((x.value : ℝ) + moved)
  rw [widen_grain] at near less
  have unit' : (c.grain : ℝ) ≤ 1 / 10 := (grain_le_real positive).trans_eq (by norm_num)
  have above : (0 : ℝ) < y.value := by
    have low := ((near.mono (show _ ≤ 1 / 2 by linarith)).bounds exact.le).1
    linarith
  have last := (guarded.last_within (Rat.cast_pos.mp above) rounding).cast
  exact guarded.within_exponentialError less near last

end Reckoner.Decimal.Context

namespace Reckoner.NumberSystem.Decimals

open Reckoner.Decimal

/-- Of two numbers whose exponential functions are found, as is that of their sum, the product of the two is that of
the sum up to four units of the last digit. -/
theorem exponential_of_sum {precision : Int} {c : Decimal.Context} (given : context? precision defaultRange = some c)
    {a b s : Decimal} (first : a.isFinite = true) (second : b.isFinite = true) (third : s.isFinite = true)
    (sum : s.value = a.value + b.value)
    (small : ∀ x ∈ [a, b, s], |x.value| + 1 ≤ Context.exponentialReach c.precision) {u v w : Decimal}
    (left : c.exp a = .ok u) (right : c.exp b = .ok v) (whole : c.exp s = .ok w) :
    |w.value - u.value * v.value| ≤ 4 * 10 ^ (1 - precision) * w.value := by
  have guarded := Context.guarded_of_context? given (by decide)
  have digits : (c.precision : ℤ) = precision := by
    obtain ⟨positive, rfl⟩ := context?_eq_some given
    exact Int.toNat_of_nonneg (by omega)
  have nearby {x z : Decimal} (member : x ∈ [a, b, s]) (sound : x.isFinite = true) (found : c.exp x = .ok z) :=
    guarded.exp_near sound (small x member) z found
  have last := nearby (by simp) third whole
  rw [sum, Rat.cast_add, Real.exp_add] at last
  obtain ⟨nonneg, less, above, below⟩ := Context.exponentialError_bounds guarded.positive rfl rfl
  rw [← digits]
  generalize Context.exponentialError c.precision = error at *
  generalize (4 : ℚ) * 10 ^ (1 - (c.precision : ℤ)) = tolerance at *
  have near := Context.abs_sub_mul_le (nearby (by simp) first left) (nearby (by simp) second right) last
    (Real.exp_pos _) (Real.exp_pos _) (by exact_mod_cast nonneg) (by exact_mod_cast less)
    (by exact_mod_cast above : (1 + (error : ℝ)) ^ 2 ≤ (1 + tolerance) * (1 - error)) (by exact_mod_cast below)
  exact_mod_cast near

/-- At six digits the exponential functions of one, two and three. -/
theorem exponential_of_sum_sample : context? 6 defaultRange = some ⟨6, -999999, 999999, true⟩ ∧
    (Decimal.ofInt 3).value = (Decimal.ofInt 1).value + (Decimal.ofInt 2).value ∧
    (∀ x ∈ [Decimal.ofInt 1, Decimal.ofInt 2, Decimal.ofInt 3], |x.value| + 1 ≤ Context.exponentialReach 6) ∧ ∃ u v w,
      Decimal.Context.exp ⟨6, -999999, 999999, true⟩ (.ofInt 1) = .ok u ∧
      Decimal.Context.exp ⟨6, -999999, 999999, true⟩ (.ofInt 2) = .ok v ∧
      Decimal.Context.exp ⟨6, -999999, 999999, true⟩ (.ofInt 3) = .ok w ∧
      |w.value - u.value * v.value| ≤ 4 * 10 ^ (1 - (6 : ℤ)) * w.value := by
  have given : context? 6 defaultRange = some ⟨6, -999999, 999999, true⟩ := rfl
  have sum : (Decimal.ofInt 3).value = (Decimal.ofInt 1).value + (Decimal.ofInt 2).value := by
    rw [Context.value_ofInt, Context.value_ofInt, Context.value_ofInt]
    norm_num
  have small : ∀ x ∈ [Decimal.ofInt 1, Decimal.ofInt 2, Decimal.ofInt 3], |x.value| + 1 ≤
      Context.exponentialReach 6 := by
    simp only [List.mem_cons, List.not_mem_nil, or_false, forall_eq_or_imp, forall_eq, Context.value_ofInt,
      Context.exponentialReach]
    norm_num
  have one : Decimal.Context.exp ⟨6, -999999, 999999, true⟩ (.ofInt 1) = .ok (.finite false 271828 (-5)) :=
    eq_ok_of_toOption (by decide +kernel)
  have two : Decimal.Context.exp ⟨6, -999999, 999999, true⟩ (.ofInt 2) = .ok (.finite false 738906 (-5)) :=
    eq_ok_of_toOption (by decide +kernel)
  have three : Decimal.Context.exp ⟨6, -999999, 999999, true⟩ (.ofInt 3) = .ok (.finite false 200855 (-4)) :=
    eq_ok_of_toOption (by decide +kernel)
  exact ⟨given, sum, small, _, _, _, one, two, three, exponential_of_sum given rfl rfl rfl sum small one two three⟩

/-- At one digit the exponential function of two millions is the square of that of a million only up to a factor of
nine hundred: of six digits in the work, none is left behind the point of the multiple that is taken off. -/
theorem exponential_of_millions : context? 1 defaultRange = some ⟨1, -999999, 999999, true⟩ ∧
    (Decimal.finite false 2 6).value = (Decimal.finite false 1 6).value + (Decimal.finite false 1 6).value ∧
    Decimal.Context.exp ⟨1, -999999, 999999, true⟩ (.finite false 1 6) = .ok (.finite false 9 434295) ∧
    Decimal.Context.exp ⟨1, -999999, 999999, true⟩ (.finite false 2 6) = .ok (.finite false 9 868588) ∧
    ¬ |(Decimal.finite false 9 868588).value -
        (Decimal.finite false 9 434295).value * (Decimal.finite false 9 434295).value| ≤
      4 * 10 ^ (1 - (1 : ℤ)) * (Decimal.finite false 9 868588).value := by
  refine ⟨rfl, ?_, eq_ok_of_toOption (by decide +kernel), eq_ok_of_toOption (by decide +kernel), ?_⟩
  · norm_num [Context.value_finite, Context.signed]
  · have square : (10 : ℚ) ^ (434295 : ℤ) * 10 ^ (434295 : ℤ) = 100 * 10 ^ (868588 : ℤ) := by
      rw [← zpow_add₀ (by norm_num), show (434295 : ℤ) + 434295 = 2 + 868588 by norm_num, zpow_add₀ (by norm_num)]
      rfl
    have positive := pow_ten_pos 868588
    rw [Context.value_finite, Context.value_finite, Context.signed, mul_mul_mul_comm, square, abs_le]
    generalize (10 : ℚ) ^ (868588 : ℤ) = unit at positive ⊢
    norm_num
    intro within
    linarith

end Reckoner.NumberSystem.Decimals

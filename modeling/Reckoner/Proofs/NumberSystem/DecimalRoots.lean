import Reckoner.Proofs.Decimal.CubeRoot
import Reckoner.Proofs.NumberSystem.DecimalTrigonometry

/-! The cube root of decimals is found, with the sign of the number, and is right up to a hundredth of a unit of
its last digit beyond half a unit. Where the root has few enough digits it is exact. -/

namespace Reckoner.Decimal.Context

/-- One unit of the last digit that a decimal of so many digits has. -/
def unit (c : Context) (r : Decimal) : ℚ := 10 ^ (r.adjusted - (c.precision - 1))

section
variable {c : Context} (positive : 0 < c.precision) {z r : Decimal} {root : ℝ} (nonzero : root ≠ 0)
  (near : Within (168 * (c.widen guardDigits).grain : ℝ) z.value root) (normal : c.Normal z.value)
include positive nonzero near normal

/-- A number near the root is near it even beside the last place that is kept. -/
theorem near_root_beside_place :
    z.value ≠ 0 ∧ |(z.value : ℝ) - root| < ((1 / 100 * 10 ^ c.lastPlace z.value : ℚ) : ℝ) := by
  have size : 0 < |root| := abs_pos.mpr nonzero
  have tiny : (0 : ℝ) < c.grain := Rat.cast_pos.mpr c.grain_pos
  have fine : (c.grain : ℝ) ≤ 1 / 10 := (grain_le_real positive).trans_eq (by norm_num)
  rw [Within, Guarded.widen_grain] at near
  have apart := abs_sub_abs_le_abs_sub root (z.value : ℝ)
  rw [abs_sub_comm] at apart
  have share := mul_le_mul_of_nonneg_right fine size.le
  have most : |root| ≤ 101 / 100 * |(z.value : ℝ)| := by linarith
  have other : z.value ≠ 0 := by
    intro zero
    rw [zero, Rat.cast_zero, abs_zero] at most
    linarith
  refine ⟨other, ?_⟩
  have place : (10 : ℚ) ^ (Int.log 10 |z.value| + 1) * c.grain = 10 ^ c.lastPlace z.value := by
    rw [normal.lastPlace_eq other, grain, ← zpow_add₀ (by norm_num)]
    congr 1
    ring
  have first := (log_lt_iff (abs_pos.mpr other)).mp (show _ < Int.log 10 |z.value| + 1 by omega)
  have cast := (Rat.cast_lt (K := ℝ)).mpr first
  rw [← place]
  push_cast at cast ⊢
  generalize (10 : ℝ) ^ (Int.log 10 |z.value| + 1) = top at cast ⊢
  have part := mul_lt_mul_of_pos_right cast tiny
  have whole := mul_le_mul_of_nonneg_right most tiny.le
  have some := mul_nonneg (abs_nonneg (z.value : ℝ)) tiny.le
  linarith

variable (rounding : c.IsRounding z.value r)
include rounding

theorem round_near_root : r.value ≠ 0 ∧ (r.value < 0 ↔ root < 0) ∧ |(r.value : ℝ) - root| < 51 / 100 * c.unit r := by
  obtain ⟨other, close⟩ := near_root_beside_place positive nonzero near normal
  have low := normal.resolve_left other
  have place := normal.lastPlace_eq other
  have first := pow_log_le (abs_pos.mpr other)
  have least := (le_log_iff (abs_pos.mpr other)).mpr low
  have large := le_abs_round positive (by rw [tiniest]; omega) first rounding.rounded
  have kept : r.value ≠ 0 := abs_pos.mp ((pow_ten_pos _).trans_le large)
  have error := roundAt_error (c.lastPlace z.value) z.value
  rw [← eq_roundAt_of_round rounding.rounded] at error
  have moved := (Rat.cast_le (K := ℝ)).mpr error
  have total : |(r.value : ℝ) - root| < ((51 / 100 * 10 ^ c.lastPlace z.value : ℚ) : ℝ) := by
    refine (abs_sub_le _ (z.value : ℝ) _).trans_lt ?_
    push_cast at moved close ⊢
    linarith
  have top : (10 : ℚ) ^ c.lastPlace z.value ≤ c.unit r := by
    refine zpow_le_zpow_right₀ (by norm_num) ?_
    rw [adjusted_eq rounding.isFinite kept]
    have further := (le_log_iff (abs_pos.mpr kept)).mpr large
    omega
  have beyond : (10 : ℚ) ^ c.lastPlace z.value ≤ |r.value| :=
    (zpow_le_zpow_right₀ (by norm_num) (by omega)).trans large
  have unit := pow_ten_pos (c.lastPlace z.value)
  have inside : |(r.value : ℝ) - root| < |(r.value : ℝ)| := by
    refine total.trans_le ?_
    exact_mod_cast (show 51 / 100 * 10 ^ c.lastPlace z.value ≤ |r.value| by linarith)
  refine ⟨kept, ?_, total.trans_le ?_⟩
  · obtain ⟨bottom, top⟩ := abs_lt.mp inside
    rcases lt_or_gt_of_ne kept with negative | above
    · have cast : (r.value : ℝ) < 0 := by exact_mod_cast negative
      rw [abs_of_neg cast] at bottom top
      exact ⟨fun _ => by linarith, fun _ => negative⟩
    · have cast : (0 : ℝ) < r.value := by exact_mod_cast above
      rw [abs_of_pos cast] at bottom top
      exact ⟨fun other => absurd other (not_lt.mpr above.le), fun other => by linarith⟩
  · have cast := (Rat.cast_le (K := ℝ)).mpr
      (show 51 / 100 * 10 ^ c.lastPlace z.value ≤ 51 / 100 * c.unit r by linarith)
    push_cast at cast ⊢
    exact cast

theorem round_eq_root {n : ℚ} (few : Short c.precision n) (same : (n : ℝ) = root) : r.value = n := by
  obtain ⟨other, close⟩ := near_root_beside_place positive nonzero near normal
  rw [← same] at close
  have close : |z.value - n| < 1 / 100 * 10 ^ c.lastPlace z.value := by exact_mod_cast close
  have unit := pow_ten_pos (c.lastPlace z.value)
  have place := normal.lastPlace_eq other
  obtain ⟨a, f, short, rfl⟩ := few
  have multiple : MultipleOf (c.lastPlace z.value) (a * 10 ^ f) := by
    by_contra finer
    have below : f < c.lastPlace z.value := by
      by_contra coarse
      exact finer (MultipleOf.mono ⟨a, rfl⟩ (by omega))
    -- A last digit before that place would leave the root shorter than the number by more than it is.
    have first := pow_log_le (abs_pos.mpr other)
    have tenth : (10 : ℚ) ^ (c.lastPlace z.value - 1) = 10 ^ c.lastPlace z.value / 10 := by
      rw [zpow_sub_one₀ (by norm_num), div_eq_mul_inv]
    have split : (10 : ℚ) ^ Int.log 10 |z.value| = 10 ^ c.precision * 10 ^ (c.lastPlace z.value - 1) := by
      rw [← zpow_natCast, ← zpow_add₀ (by norm_num)]
      congr 1
      omega
    have cast : |(a : ℚ)| ≤ 10 ^ c.precision - 1 := by
      have whole : |(a : ℚ)| + 1 ≤ 10 ^ c.precision := by exact_mod_cast Int.add_one_le_iff.mpr short
      linarith
    have bound : |(a : ℚ) * 10 ^ f| ≤ (10 ^ c.precision - 1) * 10 ^ (c.lastPlace z.value - 1) := by
      rw [abs_mul, abs_of_pos (pow_ten_pos f)]
      refine mul_le_mul cast (zpow_le_zpow_right₀ (by norm_num) (by omega)) (pow_ten_pos f).le ?_
      exact (abs_nonneg _).trans cast
    have apart := abs_sub_abs_le_abs_sub z.value (a * 10 ^ f)
    rw [split] at first
    linarith
  obtain ⟨k, exactly⟩ := multiple
  rw [eq_roundAt_of_round rounding.rounded, exactly]
  rw [exactly] at close
  exact eq_roundAt (by linarith) fun tie => by linarith

end

/-- The cube root of a number of few digits is found. -/
theorem Guarded.cbrt_settles {c : Context} (guarded : c.Guarded) {digits : Nat}
    (spread : (c.widen guardDigits).Spread digits) {x : Decimal} (given : x.isFinite = true)
    (short : Short c.precision x.value) (normal : c.Normal x.value)
    (small : |x.value| < 10 ^ (c.greatest + 1)) {root : ℝ}
    (nonzero : root ≠ 0) (cube : (x.value : ℝ) = root ^ 3) (inside : Inside digits |root|) :
    Settles (fun r => r.isFinite = true ∧ r.value ≠ 0 ∧ (r.value < 0 ↔ root < 0) ∧
        |(r.value : ℝ) - root| < 51 / 100 * c.unit r ∧ ∀ n, Short c.precision n → (n : ℝ) = root → r.value = n)
      (c.cbrt x) := by
  have positive := guarded.positive
  have wide := spread.wide
  have below : c.least ≤ -(2 * digits + 3) := spread.below
  have above : 2 * digits + 3 ≤ c.greatest := spread.above
  have longer : Short (c.widen guardDigits).precision x.value := short.mono (Nat.le_add_right _ _)
  apply guarded_concludes (Constants.ofPrecision_settles (show 6 ≤ c.precision + 5 by omega)
    (show c.precision + 5 ≤ 105 by have most := guarded.most; omega)) (fun _ _ => lift_settles
      (cubeRootWork_settles spread guarded.refuses given longer normal small nonzero cube inside))
  rintro z ⟨sound, near⟩
  have spans : c.Spans z.value := by
    have fine := spread.fine_real
    have tiny : (0 : ℝ) < (c.widen guardDigits).grain := Rat.cast_pos.mpr (grain_pos _)
    have power : (0 : ℝ) < 10 ^ digits := by positivity
    obtain ⟨least, most⟩ := (near.abs.mono (show _ ≤ 1 / 10 by linarith)).bounds (abs_nonneg root)
    refine spans_of_le (show c.least ≤ -(digits : ℤ) by omega) (show (digits : ℤ) ≤ c.greatest by omega) ?_ ?_
    · rw [zpow_neg, zpow_natCast, inv_le_iff_one_le_mul₀ (by positivity)]
      refine (Rat.cast_le (K := ℝ)).mp ?_
      push_cast
      have scaled := mul_le_mul_of_nonneg_right least power.le
      linarith [inside.low]
    · rw [zpow_natCast]
      refine (Rat.cast_le (K := ℝ)).mp ?_
      push_cast
      linarith [inside.high]
  refine lift_settles (((plus_gives positive sound).settles_of_spans positive spans).mono ?_)
  intro r rounding
  obtain ⟨kept, sign, close⟩ := round_near_root positive nonzero near spans.1 rounding
  refine ⟨rounding.isFinite, kept, sign, close, ?_⟩
  intro n few same
  exact round_eq_root positive nonzero near spans.1 rounding few same

end Reckoner.Decimal.Context

namespace Reckoner.NumberSystem.Decimals

open Reckoner.Decimal Reckoner.Numeral

theorem exists_cube_root (q : ℚ) : ∃ root : ℝ, (q : ℝ) = root ^ 3 := by
  have size (t : ℝ) (nonneg : 0 ≤ t) : ∃ root : ℝ, t = root ^ 3 :=
    ⟨t ^ ((3 : ℕ) : ℝ)⁻¹, (Real.rpow_inv_natCast_pow nonneg (by decide)).symm⟩
  rcases le_total (0 : ℝ) q with nonneg | nonpos
  · exact size q nonneg
  · obtain ⟨root, cube⟩ := size (-q) (neg_nonneg.mpr nonpos)
    exact ⟨-root, by rw [Odd.neg_pow (by decide), ← cube, neg_neg]⟩

/-- The cube root of every number of few digits is found. It has the sign of the number and is off by less than
51 hundredths of a unit of its last digit; a root of few digits is exact. -/
theorem cube_root_near {precision : Int} {c : Decimal.Context} (given : context? precision defaultRange = some c)
    (negative : Bool) {coefficient : Nat} {exponent : Int} (significant : Significant c.precision coefficient)
    (nonzero : coefficient ≠ 0) (least : -defaultRange ≤ leading coefficient exponent)
    (greatest : leading coefficient exponent ≤ defaultRange) :
    ∃ m e, c.cbrt (.finite negative coefficient exponent) = .ok (.finite negative m e) ∧ m ≠ 0 ∧
      ((m : ℚ) * 10 ^ e - 51 / 100 * c.unit (.finite negative m e)) ^ 3 < coefficient * 10 ^ exponent ∧
      (coefficient : ℚ) * 10 ^ exponent < (m * 10 ^ e + 51 / 100 * c.unit (.finite negative m e)) ^ 3 ∧
      ∀ s n f, Significant c.precision n →
        (Decimal.finite s n f).value ^ 3 = (Decimal.finite negative coefficient exponent).value →
        (Decimal.finite negative m e).value = (Decimal.finite s n f).value := by
  have guarded := Context.guarded_of_context? given (by decide)
  have positive := guarded.positive
  have most := guarded.most
  have range : defaultRange = 999999 := rfl
  obtain ⟨low, high⟩ : c.least = -defaultRange ∧ c.greatest = defaultRange := by
    obtain ⟨_, rfl⟩ := context?_eq_some given
    exact ⟨rfl, rfl⟩
  obtain ⟨digits, wide⟩ : ∃ digits : Nat, (digits : ℤ) = 400000 := ⟨400000, rfl⟩
  have spread : (c.widen guardDigits).Spread digits := by
    refine ⟨guarded.working, ?_, ?_, ?_⟩
    · show c.least ≤ _
      omega
    · show _ ≤ c.greatest
      omega
    · show c.precision + 5 ≤ digits
      omega
  have size : |(Decimal.finite negative coefficient exponent).value| = coefficient * 10 ^ exponent := by
    rw [Context.value_finite, abs_mul, Context.abs_signed, abs_of_pos (pow_ten_pos exponent)]
  have first := Context.pow_leading_le nonzero exponent
  have last := Context.lt_pow_leading coefficient exponent
  have short := short_of_significant positive significant negative exponent
  rw [← size] at first last
  have some := abs_pos.mp ((pow_ten_pos _).trans_le first)
  have bottom : (10 : ℚ) ^ c.least ≤ |(Decimal.finite negative coefficient exponent).value| :=
    (zpow_le_zpow_right₀ (by norm_num) (by omega)).trans first
  have top : |(Decimal.finite negative coefficient exponent).value| < 10 ^ (c.greatest + 1) :=
    last.trans_le (zpow_le_zpow_right₀ (by norm_num) (by omega))
  obtain ⟨root, cube⟩ := exists_cube_root (Decimal.finite negative coefficient exponent).value
  have nonzero : root ≠ 0 := by
    rintro rfl
    rw [zero_pow (by decide)] at cube
    exact some (by exact_mod_cast cube)
  have cubed : |root| ^ 3 = ((coefficient * 10 ^ exponent : ℚ) : ℝ) := by
    rw [← size, Rat.cast_abs, cube, abs_pow]
  have inside : Context.Inside digits |root| := by
    have least : (10 : ℝ) ^ c.least ≤ |root| ^ 3 := by
      have cast := (Rat.cast_le (K := ℝ)).mpr bottom
      rw [size, ← cubed] at cast
      push_cast at cast
      exact cast
    have most : |root| ^ 3 ≤ (10 : ℝ) ^ (c.greatest + 1) := by
      have cast := (Rat.cast_le (K := ℝ)).mpr top.le
      rw [size, ← cubed] at cast
      push_cast at cast
      exact cast
    exact Context.inside_of_cube (abs_nonneg root) least most (by omega) (by omega)
  obtain ⟨r, computed, sound, kept, sign, close, exactly⟩ :=
    (guarded.cbrt_settles spread rfl short (.inr bottom) top nonzero cube inside).exists_eq
  obtain ⟨s, m, e, rfl⟩ := isFinite_iff.mp sound
  have same : s = negative := by
    have side : (Decimal.finite negative coefficient exponent).value < 0 ↔ root < 0 := by
      rw [← Rat.cast_lt_zero (K := ℝ), cube]
      exact Odd.pow_neg_iff (by decide)
    exact Bool.eq_iff_iff.mpr
      ((Context.value_neg_iff kept).symm.trans (sign.trans (side.symm.trans (Context.value_neg_iff some))))
  subst same
  have magnitude : |(Decimal.finite s m e).value| = m * 10 ^ e := by
    rw [Context.value_finite, abs_mul, Context.abs_signed, abs_of_pos (pow_ten_pos e)]
  obtain ⟨under, beyond⟩ : (m * 10 ^ e : ℚ) - 51 / 100 * c.unit (.finite s m e) < |root| ∧
      |root| < (m * 10 ^ e : ℚ) + 51 / 100 * c.unit (.finite s m e) := by
    rw [← magnitude, Rat.cast_abs]
    have apart := (abs_abs_sub_abs_le_abs_sub _ _).trans_lt close
    obtain ⟨low, high⟩ := abs_lt.mp apart
    constructor <;> linarith
  refine ⟨m, e, computed, ?_, ?_, ?_, ?_⟩
  · rintro rfl
    rw [Context.value_finite, Context.signed_zero, Int.cast_zero, zero_mul] at kept
    exact kept rfl
  · refine (Rat.cast_lt (K := ℝ)).mp ?_
    rw [← cubed]
    have cubes := (Odd.strictMono_pow (by decide : Odd 3)) under
    push_cast at cubes ⊢
    exact cubes
  · refine (Rat.cast_lt (K := ℝ)).mp ?_
    rw [← cubed]
    have cubes := (Odd.strictMono_pow (by decide : Odd 3)) beyond
    push_cast at cubes ⊢
    exact cubes
  · intro t n f few power
    refine exactly _ (short_of_significant positive few t f) ?_
    refine (Odd.strictMono_pow (by decide : Odd 3)).injective ?_
    show _ ^ 3 = root ^ 3
    rw [← cube, ← power]
    push_cast
    rfl

/-- At six digits the cube root of a negative number, which has an exact one. -/
theorem cube_root_near_sample : context? 6 defaultRange = some ⟨6, -999999, 999999, true⟩ ∧ Significant 6 27 ∧
    -defaultRange ≤ leading 27 (-3) ∧ leading 27 (-3) ≤ defaultRange ∧ ∃ m e,
      Decimal.Context.cbrt ⟨6, -999999, 999999, true⟩ (.finite true 27 (-3)) = .ok (.finite true m e) ∧
      (m * 10 ^ e - 51 / 100 * Context.unit ⟨6, -999999, 999999, true⟩ (.finite true m e)) ^ 3 < 27 / 1000 ∧
      (Decimal.finite true m e).value = -3 / 10 := by
  have given : context? 6 defaultRange = some ⟨6, -999999, 999999, true⟩ := rfl
  have few (n : Nat) (below : n < 10 ^ 6) : Significant 6 n :=
    ⟨n, 0, (Nat.mul_one n).symm, (digitCount_le_iff (by decide)).mpr below⟩
  have least : -defaultRange ≤ leading 27 (-3) := by with_unfolding_all decide
  have greatest : leading 27 (-3) ≤ defaultRange := by with_unfolding_all decide
  obtain ⟨m, e, computed, _, low, _, exactly⟩ :=
    cube_root_near given true (few 27 (by decide)) (by decide) least greatest
  refine ⟨given, few 27 (by decide), least, greatest, m, e, computed, ?_, ?_⟩
  · norm_num at low ⊢
    exact low
  · rw [exactly true 3 (-1) (few 3 (by decide)) (by norm_num [Context.value_finite, Context.signed])]
    norm_num [Context.value_finite, Context.signed]

end Reckoner.NumberSystem.Decimals

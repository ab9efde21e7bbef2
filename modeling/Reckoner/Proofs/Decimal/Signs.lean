import Reckoner.Proofs.Decimal.CubeRoot
import Reckoner.Proofs.Decimal.Exponential
import Reckoner.Proofs.Decimal.Logarithm
import Reckoner.Proofs.Decimal.Mirror

/-! Signs of exponential functions and logarithms. What the exponential function is found as is on the same side of one
as its argument is of zero, if the argument is not lost beside one, and for logarithms it is the other way round. So
the hyperbolic functions and their inverses keep the sign of such an argument. -/

namespace Reckoner.Decimal.Context

variable {c : Context}

theorem alike_trans {a b s : ℚ} (first : 0 < a * b) (second : 0 < b * s) : 0 < a * s := by
  rcases pos_and_pos_or_neg_and_neg_of_mul_pos first with ⟨above, up⟩ | ⟨below, down⟩
  · exact mul_pos above (pos_of_mul_pos_right second up.le)
  · exact mul_pos_of_neg_of_neg below (neg_of_mul_pos_right second down.le)

theorem IsRounding.alike (precise : 0 < c.precision) (refuses : c.refusesSubnormal = true) {q s : ℚ} {z : Decimal}
    (rounding : c.IsRounding q z) (alike : 0 < q * s) : 0 < z.value * s := by
  have kept := (round_eq_zero_iff precise refuses rounding.rounded).not
  rcases pos_and_pos_or_neg_and_neg_of_mul_pos alike with ⟨above, right⟩ | ⟨below, left⟩
  · exact mul_pos ((rounding.nonneg above.le).lt_of_ne' (kept.mpr above.ne')) right
  · have turned := c.round_neg q
    rw [rounding.rounded] at turned
    have nonneg := round_nonneg (neg_nonneg.mpr below.le) turned
    exact mul_pos_of_neg_of_neg ((neg_nonneg.mp nonneg).lt_of_ne (kept.mpr below.ne)) left

section
variable (working : c.Working) (refuses : c.refusesSubnormal = true) {k : Constants} (natural : k.Natural c.precision)
  (finite : k.AllFinite) {x : Decimal} (given : x.isFinite = true)
include working refuses natural finite given

theorem expWork_sign (counts : 9000 * c.grain ≤ |x.value|) (fits : |x.value| + 1 ≤ 69 / 100 * 10 ^ c.precision) :
    Yields (fun z => z.isFinite = true ∧ 0 < z.value ∧ 0 < (z.value - 1) * x.value) (c.expWork k x) := by
  have fine := working.fine_real
  have tiny : (0 : ℝ) < c.grain := Rat.cast_pos.mpr c.grain_pos
  have counts := (Rat.cast_le (K := ℝ)).mpr counts
  push_cast at counts
  -- The error of the argument is a part of it, for small and for large ones.
  have near : Yields (fun z => z.isFinite = true ∧ ∃ moved : ℝ, |moved| + 8990 * c.grain ≤ |(x.value : ℝ)| ∧
      Within (7000 * c.grain : ℝ) z.value (Real.exp (x.value + moved))) (c.expWork k x) := by
    rcases le_or_gt |x.value| 9 with small | large
    · intro z found
      obtain ⟨sound, moved, less, close⟩ := expWork_near working natural (show 1 ≤ c.precision from working.precise)
        finite refuses given
        (by linarith) fits z found
      exact ⟨sound, moved, by linarith, close⟩
    · intro z found
      have power : (0 : ℚ) < 10 ^ c.precision := by positivity
      obtain ⟨sound, moved, less, close⟩ := expWork_near working natural (le_refl c.precision) finite refuses given
        (by linarith) fits z found
      have unit : (10 : ℝ) ^ c.precision * c.grain = 1 := by
        have exactly := pow_mul_grain (c := c) c.precision
        rw [sub_self, zpow_zero] at exactly
        exact_mod_cast exactly
      have large : (9 : ℝ) < |(x.value : ℝ)| := by exact_mod_cast large
      exact ⟨sound, moved, by nlinarith, close⟩
  intro z found
  obtain ⟨sound, moved, less, close⟩ := near z found
  have positive := Real.exp_pos (x.value + moved)
  obtain ⟨low, high⟩ := close.bounds positive.le
  have above : (0 : ℝ) < z.value := lt_of_lt_of_le (mul_pos (by linarith) positive) low
  refine ⟨sound, by exact_mod_cast above, ?_⟩
  have bounds := abs_le.mp (le_refl |moved|)
  rcases lt_or_gt_of_ne (show (x.value : ℝ) ≠ 0 from fun zero => by
    rw [zero, abs_zero] at counts
    linarith) with negative | up
  · rw [abs_of_neg negative] at less
    have inverse := Real.add_one_le_exp (-(x.value + moved))
    have product : Real.exp (x.value + moved) * Real.exp (-(x.value + moved)) = 1 := by
      rw [← Real.exp_add, add_neg_cancel, Real.exp_zero]
    have below : (z.value : ℝ) < 1 := by
      have small : Real.exp (x.value + moved) * (1 + 8990 * c.grain) ≤ 1 := by
        rw [← product]
        exact mul_le_mul_of_nonneg_left (by linarith) positive.le
      nlinarith
    refine mul_pos_of_neg_of_neg (sub_neg.mpr (by exact_mod_cast below)) (by exact_mod_cast negative)
  · rw [abs_of_pos up] at less
    have least := Real.add_one_le_exp (x.value + moved)
    have beyond : (1 : ℝ) < z.value := by nlinarith
    exact mul_pos (sub_pos.mpr (by exact_mod_cast beyond)) (by exact_mod_cast up)

theorem lnWork_sign (positive : 0 < x.value) (counts : 8000 * c.grain ≤ |x.value - 1|) :
    Yields (fun z => z.isFinite = true ∧ 0 < z.value * (x.value - 1)) (c.lnWork k x) := by
  have fine := working.fine_real
  have tiny : (0 : ℝ) < c.grain := Rat.cast_pos.mpr c.grain_pos
  have up : (0 : ℝ) < x.value := by exact_mod_cast positive
  intro z found
  obtain ⟨sound, near⟩ := lnWork_near working refuses natural finite given positive z found
  obtain ⟨first, last⟩ := log_place_bounds positive
  generalize Int.log 10 x.value = tens at first last near
  have ten := one_lt_log_ten
  have counts := (Rat.cast_le (K := ℝ)).mpr counts
  push_cast at counts
  obtain ⟨low, high⟩ := abs_le.mp near
  refine ⟨sound, ?_⟩
  rcases le_total (x.value : ℝ) 1 with small | large
  · rw [abs_of_nonpos (by linarith)] at counts
    have tangent := Real.log_le_sub_one_of_pos up
    have negative : (tens : ℝ) ≤ -1 := by
      have below : (tens : ℝ) < 0 := by nlinarith
      exact_mod_cast Int.le_sub_one_of_lt (by exact_mod_cast below : tens < 0)
    rw [abs_of_nonpos (by linarith)] at high
    have below : (z.value : ℝ) < 0 := by nlinarith
    exact mul_pos_of_neg_of_neg (by exact_mod_cast below) (by
      have less : (x.value : ℝ) - 1 < 0 := by linarith
      exact_mod_cast less)
  · rw [abs_of_nonneg (by linarith)] at counts
    have chord := Real.one_sub_inv_le_log_of_pos up
    have inverse : (x.value : ℝ)⁻¹ ≤ 1 - 7900 * c.grain := by
      rw [inv_le_iff_one_le_mul₀ up]
      nlinarith
    have nonneg : (0 : ℝ) ≤ tens := by
      have above : (-1 : ℝ) < tens := by nlinarith
      exact_mod_cast (show (0 : ℤ) ≤ tens from by
        have above : -1 < tens := by exact_mod_cast above
        omega)
    rw [abs_of_nonneg nonneg] at low
    have above : (0 : ℝ) < z.value := by nlinarith
    exact mul_pos (by exact_mod_cast above) (by
      have more : (0 : ℝ) < (x.value : ℝ) - 1 := by linarith
      exact_mod_cast more)

omit working natural finite refuses given in
theorem pow_thousand_le (m : Nat) : (10 : ℚ) ^ (3 * m : ℤ) ≤ 2 ^ (10 * m : ℤ) := by
  rw [zpow_mul, zpow_mul, zpow_natCast, zpow_natCast]
  exact pow_le_pow_left₀ (by norm_num) (by norm_num) m

omit working natural finite refuses given in
/-- A power of two that is rounded inside a range has an exponent of little more than three times the digits. -/
theorem twos_lt {n : ℤ} {scale : ℚ} (near : Within (6 * c.grain) scale (2 ^ n)) (fine : c.grain ≤ 1 / 10 ^ 6) {m : Nat}
    (low : 10 ^ (1 - 3 * m : ℤ) ≤ |scale|) (high : |scale| < 10 ^ (3 * m - 1 : ℤ)) : |n| < 10 * m := by
  have power : (0 : ℚ) < 2 ^ n := by positivity
  obtain ⟨least, most⟩ := near.abs.bounds (abs_nonneg _)
  rw [abs_of_pos power] at least most
  have thousand := pow_thousand_le m
  have top := pow_ten_pos (3 * m)
  by_contra many
  rcases le_abs'.mp (not_lt.mp many) with down | up
  · have small : (2 : ℚ) ^ n ≤ (10 ^ (3 * m : ℤ))⁻¹ := by
      rw [← inv_inv ((2 : ℚ) ^ n), ← zpow_neg]
      exact inv_anti₀ top (thousand.trans (zpow_le_zpow_right₀ (by norm_num) (by omega)))
    have tenth : (10 : ℚ) ^ (1 - 3 * m : ℤ) = 10 * (10 ^ (3 * m : ℤ))⁻¹ := by
      rw [zpow_sub₀ (by norm_num), zpow_one, div_eq_mul_inv]
    have unit := inv_pos.mpr top
    nlinarith
  · have large : (10 : ℚ) ^ (3 * m : ℤ) ≤ 2 ^ n := thousand.trans (zpow_le_zpow_right₀ (by norm_num) up)
    have tenth : (10 : ℚ) ^ (3 * m - 1 : ℤ) = 10 ^ (3 * m : ℤ) / 10 := by
      rw [zpow_sub_one₀ (by norm_num), div_eq_mul_inv]
    nlinarith

/-- The exponential function is found only for arguments that are moderate. -/
theorem expWork_moderate (least : -999999 ≤ c.least) (greatest : c.greatest ≤ 999999) (bottom : c.least ≤ 0)
    (top : 0 ≤ c.greatest) : Yields (fun _ => |x.value| ≤ 2400000) (c.expWork k x) := by
  have precise := working.precise
  have fine := working.fine
  obtain ⟨low, high⟩ := lnTwo_bounds working natural
  have positive : 0 < k.lnTwo.value := by linarith
  refine (lift_yields (div_reaches precise given finite.lnTwo positive.ne').yields).andThen ?_
  intro q divided
  obtain ⟨whole, part⟩ := roundToWhole_halfEven divided.isFinite
  dsimp only
  rw [part]
  have powers : Yields (fun scale => Within (6 * c.grain) scale.value (2 ^ nearestEven q.value) ∧ c.Admits scale)
      (c.power (ofInt 2) (ofInt (nearestEven q.value))) := fun scale found =>
    ⟨by exact_mod_cast ((power_concludes precise refuses (b := 2) le_rfl (by decide) _).yields scale found).2,
      (rounds_admits refuses precise bottom top).power rfl rfl (fun zero => absurd zero (by decide)) scale found⟩
  refine .bind ?_
  intro m _
  refine .bind ?_
  intro rest _
  refine .bind ?_
  intro sum _
  refine (lift_yields powers).andThen ?_
  rintro scale ⟨close, admitted⟩
  intro _ _
  obtain ⟨m, count⟩ : ∃ m : Nat, m = 333334 := ⟨_, rfl⟩
  have some : scale.value ≠ 0 := by
    intro zero
    have bounds := (close.abs.bounds (abs_nonneg _)).1
    have power : (0 : ℚ) < 2 ^ nearestEven q.value := by positivity
    rw [zero, abs_zero, abs_of_pos power] at bounds
    nlinarith
  obtain ⟨normal, below⟩ := admitted.bounds
  have few := twos_lt close fine (m := m)
    ((zpow_le_zpow_right₀ (by norm_num) (by omega)).trans (normal.resolve_left some))
    (below.trans_le (zpow_le_zpow_right₀ (by norm_num) (by omega)))
  have few : |(nearestEven q.value : ℚ)| < 10 * m := by exact_mod_cast few
  have total : (m : ℚ) = 333334 := by exact_mod_cast count
  have near := nearestEven_near q.value
  have apart := abs_sub_abs_le_abs_sub q.value (nearestEven q.value : ℚ)
  have bounds := (((normal_of_round refuses divided.rounded).within divided).abs.bounds (abs_nonneg _)).1
  rw [abs_div, abs_of_pos positive] at bounds
  have bound : |x.value| / k.lnTwo.value ≤ 3333360 := by
    have nonneg : 0 ≤ |x.value| / k.lnTwo.value := by positivity
    nlinarith
  rw [div_le_iff₀ positive] at bound
  linarith

/-! ### Hyperbolic functions -/

theorem sinhWork_sign (counts : 9000 * c.grain ≤ |x.value|) (fits : |x.value| + 1 ≤ 69 / 100 * 10 ^ c.precision) :
    Yields (fun z => z.isFinite = true ∧ 0 < z.value * x.value) (do
      let e ← c.expWork k x
      c.div (← c.sub e (← c.div one e)) (ofInt 2) : Computed Decimal) := by
  have precise := working.precise
  have deep := working.deep
  refine (expWork_sign working refuses natural finite given counts fits).andThen ?_
  rintro e ⟨raised, positive, side⟩
  refine (lift_yields (div_reaches precise (x := one) rfl raised positive.ne').yields).andThen ?_
  intro inverse divided
  refine (lift_yields (sub_reaches precise raised divided.isFinite).yields).andThen ?_
  intro apart subtracted
  refine lift_yields ?_
  intro z found
  have two : (ofInt 2).value ≠ 0 := by
    rw [value_ofInt]
    norm_num
  have halved := (div_reaches precise subtracted.isFinite (y := ofInt 2) rfl two).yields z found
  rw [value_one] at divided
  have nonneg := divided.nonneg (by positivity)
  have between : 0 < (e.value - inverse.value) * x.value := by
    rcases pos_and_pos_or_neg_and_neg_of_mul_pos side with ⟨above, right⟩ | ⟨below, left⟩
    · have less := abs_round_le precise (k := 0) (by rw [tiniest]; omega) (by
        rw [zpow_zero, abs_of_pos (by positivity), div_le_one positive]
        linarith) divided.rounded
      rw [zpow_zero, abs_of_nonneg nonneg] at less
      exact mul_pos (by linarith) right
    · have more := le_abs_round precise (k := 0) (by rw [tiniest]; omega) (by
        rw [zpow_zero, abs_of_pos (by positivity), one_le_div positive]
        linarith) divided.rounded
      rw [zpow_zero, abs_of_nonneg nonneg] at more
      exact mul_pos_of_neg_of_neg (by linarith) left
  refine ⟨halved.isFinite, halved.alike precise refuses ?_⟩
  rw [value_ofInt, Int.cast_ofNat, div_mul_eq_mul_div]
  exact half_pos (subtracted.alike precise refuses between)

omit x given natural finite in
theorem ratio_sign {e : Decimal} {s : ℚ} (raised : e.isFinite = true) (positive : 0 < e.value)
    (side : 0 < (e.value - 1) * s) : Yields (fun z => z.isFinite = true ∧ 0 < z.value * s)
      (do c.div (← c.sub e one) (← c.add e one) : Except Signal Decimal) := by
  have precise := working.precise
  refine (sub_reaches precise raised (y := one) rfl).yields.andThen ?_
  intro above subtracted
  refine (add_reaches precise raised (y := one) rfl).yields.andThen ?_
  intro below added
  rw [value_one] at subtracted added
  have least : 0 < below.value := by simpa using added.alike precise refuses (s := 1) (by linarith)
  intro z found
  have divided := (div_reaches precise subtracted.isFinite added.isFinite least.ne').yields z found
  refine ⟨divided.isFinite, divided.alike precise refuses ?_⟩
  rw [div_mul_eq_mul_div]
  exact div_pos (subtracted.alike precise refuses side) least

omit working natural finite refuses in
theorem alike_copySign {z : Decimal} (sound : z.isFinite = true) (positive : 0 < z.value) (some : x.value ≠ 0) :
    0 < (z.copySign x).value * x.value := by
  rw [value_copySign sound positive given some]
  split
  · exact mul_pos_of_neg_of_neg (by linarith) ‹_›
  · exact mul_pos positive ((not_lt.mp ‹_›).lt_of_ne' some)

omit x given in
/-- The bound above which the hyperbolic tangent counts as one is moderate. -/
theorem threshold_yields : Yields (fun z => z.isFinite = true ∧ z.value ≤ 300)
    (c.mul k.lnTen (ofInt (c.precision + 1))) := by
  intro z found
  have product := (mul_reaches working.precise finite.lnTen (y := ofInt (c.precision + 1)) rfl).yields z found
  rw [value_ofInt] at product
  push_cast at product
  obtain ⟨low, high⟩ := lnTen_bounds working natural
  have most : (c.precision : ℚ) ≤ 110 := by exact_mod_cast working.most
  have nonneg : 0 ≤ k.lnTen.value * (c.precision + 1) := by nlinarith
  have bound : k.lnTen.value * (c.precision + 1) ≤ 23106 / 10000 * 111 :=
    mul_le_mul high (by linarith) (by positivity) (by norm_num)
  have fine := working.fine
  have top := ((normal_of_round refuses product.rounded).within product).bounds nonneg
  refine ⟨product.isFinite, top.2.trans ?_⟩
  nlinarith [c.grain_pos]

theorem tanhWork_sign (counts : 9000 * c.grain ≤ |x.value|) :
    Yields (fun z => z.isFinite = true ∧ 0 < z.value * x.value) (c.tanhWork k x) := by
  have precise := working.precise
  have fine := working.fine
  have tiny := c.grain_pos
  have some : x.value ≠ 0 := by
    intro zero
    rw [zero, abs_zero] at counts
    linarith
  have within {q : ℚ} {z : Decimal} (rounding : c.IsRounding q z) : Within (5 * c.grain) z.value q :=
    (normal_of_round refuses rounding.rounded).within rounding
  refine (lift_yields (abs_reaches precise given).yields).andThen ?_
  intro size measured
  refine (lift_yields (mul_reaches precise (x := ofInt 2) rfl measured.isFinite).yields).andThen ?_
  intro double doubled
  refine (lift_yields (threshold_yields working refuses natural finite)).andThen ?_
  rintro limit ⟨bounded, moderate⟩
  rw [isLess_eq bounded doubled.isFinite]
  have ends : Yields (fun z => z.isFinite = true ∧ 0 < z.value * x.value) (.ok (one.copySign x) : Computed Decimal) :=
    .ok ⟨isFinite_copySign rfl x, alike_copySign given rfl (by rw [value_one]; norm_num) some⟩
  change Yields _ (if decide (limit.value < double.value) = true then _ else _)
  split
  · exact ends
  · rename_i below
    have below : double.value ≤ limit.value := by simpa using below
    refine (lift_yields (mul_reaches precise (x := ofInt 2) rfl given).yields).andThen ?_
    intro twice turned
    rw [value_ofInt, Int.cast_ofNat] at turned doubled
    -- The double has the sign and is inside the bound, as its magnitude is.
    have low := ((within doubled).bounds (mul_nonneg zero_le_two (measured.nonneg (abs_nonneg _)))).1
    have same := ((within measured).bounds (abs_nonneg _)).1
    have small : |x.value| ≤ 200 := by
      have most : 99 / 100 ≤ 1 - 5 * c.grain := by linarith
      have first := (mul_le_mul_of_nonneg_right most (abs_nonneg x.value)).trans same
      have nonneg : 0 ≤ 2 * size.value := by linarith [abs_nonneg x.value]
      have second := (mul_le_mul_of_nonneg_right most nonneg).trans low
      linarith
    obtain ⟨least, most⟩ := (within turned).abs.bounds (abs_nonneg _)
    rw [abs_mul, abs_two] at least most
    have fits : |twice.value| + 1 ≤ 69 / 100 * 10 ^ c.precision := by
      have size : (10 : ℚ) ^ 6 ≤ 10 ^ c.precision := pow_le_pow_right₀ (by norm_num) working.least
      nlinarith
    have alike : 0 < twice.value * x.value := turned.alike precise refuses (by
      rw [mul_assoc]
      exact mul_pos two_pos (mul_self_pos.mpr some))
    have raises := expWork_sign working refuses natural finite turned.isFinite (by nlinarith) fits
    have step := raises.andThen fun e ⟨raised, positive, side⟩ =>
      lift_yields (ratio_sign working refuses raised positive (alike_trans side alike))
    simpa only [liftM_bind_eq, bind_assoc] using step

omit natural finite in
/-- A square with one more has a root of one or more, up to the roundings. -/
theorem rootOfSum_yields : Yields (fun z => z.isFinite = true ∧ 1 - 7 * c.grain ≤ z.value)
    (do c.sqrt (← c.add (← c.mul x x) one)) := by
  have precise := working.precise
  have fine := working.fine
  have tiny := c.grain_pos
  refine (mul_reaches precise given given).yields.andThen ?_
  intro square multiplied
  refine (add_reaches precise multiplied.isFinite (y := one) rfl).yields.andThen ?_
  intro sum added
  rw [value_one] at added
  have square := multiplied.nonneg (mul_self_nonneg _)
  have least : 1 ≤ sum.value := by
    have kept := le_abs_round precise (k := 0) (by rw [tiniest]; have deep := working.deep; omega)
      (by rw [zpow_zero, abs_of_pos (by linarith)]; linarith) added.rounded
    rwa [zpow_zero, abs_of_nonneg (added.nonneg (by linarith))] at kept
  intro z found
  obtain ⟨q, unit, rooted, nonneg, small, -, enough⟩ := (sqrt_reaches precise added.isFinite).yields z found
  have positive : 0 ≤ q := (by positivity : 0 ≤ unit * 10 ^ c.precision).trans small
  have part : unit ≤ q * c.grain := by
    have share := mul_le_mul_of_nonneg_right small tiny.le
    have whole : (10 : ℚ) ^ c.precision * c.grain = 1 := by
      have exactly := pow_mul_grain (c := c) c.precision
      rwa [sub_self, zpow_zero] at exactly
    rwa [mul_assoc, whole, mul_one] at share
  have one : 1 ≤ q + unit := (one_le_sq_iff₀ (by linarith)).mp (least.trans enough)
  have near : 1 - c.grain ≤ q := by nlinarith
  have bounds := ((normal_of_round refuses rooted.rounded).within rooted).bounds positive
  exact ⟨rooted.isFinite, by nlinarith⟩

theorem asinhWork_sign (counts : 9000 * c.grain ≤ |x.value|) :
    Yields (fun z => z.isFinite = true ∧ 0 < z.value * x.value) (do
      let a ← c.abs x
      let root ← c.sqrt (← c.add (← c.mul a a) one)
      return (← c.lnWork k (← c.add a root)).copySign x : Computed Decimal) := by
  have precise := working.precise
  have fine := working.fine
  have tiny := c.grain_pos
  have some : x.value ≠ 0 := by
    intro zero
    rw [zero, abs_zero] at counts
    linarith
  have within {q : ℚ} {z : Decimal} (rounding : c.IsRounding q z) : Within (5 * c.grain) z.value q :=
    (normal_of_round refuses rounding.rounded).within rounding
  refine (lift_yields (abs_reaches precise given).yields).andThen ?_
  intro a measured
  have size : 8990 * c.grain ≤ a.value := by
    have bounds := ((within measured).bounds (abs_nonneg _)).1
    nlinarith
  have step : Yields (fun z => z.isFinite = true ∧ 0 < z.value * x.value) (do
      let root ← (liftM (do c.sqrt (← c.add (← c.mul a a) one)) : Computed Decimal)
      return (← c.lnWork k (← c.add a root)).copySign x : Computed Decimal) := by
    refine (lift_yields (rootOfSum_yields working refuses measured.isFinite)).andThen ?_
    rintro root ⟨rooted, least⟩
    refine (lift_yields (add_reaches precise measured.isFinite rooted).yields).andThen ?_
    intro sum added
    have above : 1 + 8000 * c.grain ≤ sum.value := by
      have total : 1 + 8980 * c.grain ≤ a.value + root.value := by linarith
      have bounds := ((within added).bounds (by linarith)).1
      nlinarith
    have beyond : 8000 * c.grain ≤ |sum.value - 1| := by
      rw [abs_of_nonneg (by linarith)]
      linarith
    refine (lnWork_sign working refuses natural finite added.isFinite (by linarith) beyond).andThen ?_
    rintro z ⟨sound, side⟩
    exact .ok ⟨isFinite_copySign sound x, alike_copySign given sound (pos_of_mul_pos_left side (by linarith)) some⟩
  simpa only [liftM_bind_eq, bind_assoc] using step

omit natural finite in
/-- The quotient of one more and one less is apart from one, as the argument is from zero. -/
theorem sidesRatio_yields (counts : 9000 * c.grain ≤ |x.value|) (inside : |x.value| < 1) :
    Yields (fun z => z.isFinite = true ∧ 0 < z.value ∧ 8000 * c.grain ≤ |z.value - 1| ∧ 0 < (z.value - 1) * x.value)
      (do c.div (← c.add one x) (← c.sub one x)) := by
  have precise := working.precise
  have fine := working.fine
  have tiny := c.grain_pos
  obtain ⟨low, high⟩ := abs_lt.mp inside
  have within {q : ℚ} {z : Decimal} (rounding : c.IsRounding q z) : Within (5 * c.grain) z.value q :=
    (normal_of_round refuses rounding.rounded).within rounding
  refine (add_reaches precise (x := one) rfl given).yields.andThen ?_
  intro above added
  refine (sub_reaches precise (x := one) rfl given).yields.andThen ?_
  intro below subtracted
  rw [value_one] at added subtracted
  have up := (within added).bounds (by linarith)
  have down := (within subtracted).bounds (by linarith)
  have divides : 0 < below.value := by nlinarith
  have positive : 0 < above.value := by nlinarith
  intro z found
  have divided := (div_reaches precise added.isFinite subtracted.isFinite divides.ne').yields z found
  have ratio : 0 < above.value / below.value := div_pos positive divides
  have least : 0 < z.value := by simpa using divided.alike precise refuses (s := 1) (by linarith)
  have bounds := (within divided).bounds ratio.le
  refine ⟨divided.isFinite, least, ?_⟩
  rcases le_or_gt 0 x.value with right | left
  · rw [abs_of_nonneg right] at counts
    have more : 1 + 8500 * c.grain ≤ above.value / below.value := by
      rw [le_div_iff₀ divides]
      nlinarith
    have beyond : 1 + 8000 * c.grain ≤ z.value := by nlinarith
    rw [abs_of_nonneg (by linarith)]
    exact ⟨by linarith, mul_pos (by linarith) (by linarith)⟩
  · rw [abs_of_neg left] at counts
    have less : above.value / below.value ≤ 1 - 8500 * c.grain := by
      rw [div_le_iff₀ divides]
      nlinarith
    have short : z.value ≤ 1 - 8000 * c.grain := by nlinarith
    rw [abs_of_nonpos (by linarith)]
    exact ⟨by linarith, mul_pos_of_neg_of_neg (by linarith) left⟩

theorem atanhWork_sign (counts : 9000 * c.grain ≤ |x.value|) :
    Yields (fun z => z.isFinite = true ∧ 0 < z.value * x.value) (do
      if ← isAtMost one (← c.abs x) then throw (.outside .inverseHyperbolicTangent)
      let ratio ← c.div (← c.add one x) (← c.sub one x)
      c.div (← c.lnWork k ratio) (ofInt 2) : Computed Decimal) := by
  have precise := working.precise
  refine (lift_yields (abs_reaches precise given).yields).andThen ?_
  intro size measured
  rw [isAtMost_eq (x := one) rfl measured.isFinite, value_one]
  have step (inside : |x.value| < 1) : Yields (fun z => z.isFinite = true ∧ 0 < z.value * x.value) (do
      let ratio ← (liftM (do c.div (← c.add one x) (← c.sub one x)) : Computed Decimal)
      c.div (← c.lnWork k ratio) (ofInt 2) : Computed Decimal) := by
    refine (lift_yields (sidesRatio_yields working refuses given counts inside)).andThen ?_
    rintro ratio ⟨sound, positive, apart, side⟩
    refine (lnWork_sign working refuses natural finite sound positive apart).andThen ?_
    rintro z ⟨found, logs⟩
    refine lift_yields ?_
    intro half divided
    have halved := (div_reaches precise found (y := ofInt 2) rfl (by rw [value_ofInt]; norm_num)).yields half divided
    refine ⟨halved.isFinite, halved.alike precise refuses ?_⟩
    rw [value_ofInt, Int.cast_ofNat, div_mul_eq_mul_div]
    exact half_pos (alike_trans logs side)
  change Yields _ (if decide (1 ≤ size.value) = true then _ else _)
  split
  · exact .error _
  · rename_i below
    have inside : |x.value| < 1 := by
      by_contra outside
      have kept := le_abs_round precise (k := 0) (by rw [tiniest]; have deep := working.deep; omega)
        (by rw [zpow_zero, abs_abs]; exact not_lt.mp outside) measured.rounded
      rw [zpow_zero, abs_of_nonneg (measured.nonneg (abs_nonneg _))] at kept
      exact below (decide_eq_true kept)
    simpa only [liftM_bind_eq, bind_assoc] using step inside

end

end Reckoner.Decimal.Context

import Reckoner.Proofs.Decimal.Oddness
import Reckoner.Proofs.Decimal.RightAngle
import Reckoner.Proofs.NumberSystem.DecimalOverflow

/-! Odd functions of decimals have opposite results for opposite arguments. -/

namespace Reckoner.Decimal

/-- What is left of an angle of few digits after full turns is far from a half and from a full turn, if the angle is no
multiple of a half turn. -/
theorem Short.remainder_apart {digits : Nat} {q : ℚ} (short : Short digits q) (positive : 0 < digits)
    (other : ¬ ∃ j : ℤ, q = 180 * j) :
    (10 : ℚ) ^ (2 - (digits : ℤ)) ≤ |(|remainder q 360| - 180)| ∧
      |remainder q 360| ≤ 360 - 10 ^ (2 - (digits : ℤ)) := by
  wlog nonneg : 0 ≤ q generalizing q
  · have turned := this (q := -q) short.neg (fun ⟨j, same⟩ => other ⟨-j, by push_cast; linarith⟩) (by linarith)
    rwa [remainder_neg, abs_neg] at turned
  have far {j : ℤ} (turned : j ≠ 0) : (10 : ℚ) ^ (2 - (digits : ℤ)) ≤ |q - 180 * j| := by
    have apart := short.distance_le positive (j := 2 * j) (by omega) fun same =>
      other ⟨j, by rw [same]; push_cast; ring⟩
    rwa [show (90 : ℚ) * ((2 * j : ℤ) : ℚ) = 180 * j by push_cast; ring] at apart
  have part : 0 ≤ q / 360 := by positivity
  have count : 0 ≤ ⌊q / 360⌋ := Int.floor_nonneg.mpr part
  have low := Int.floor_le (q / 360)
  have high := Int.lt_floor_add_one (q / 360)
  have rest : remainder q 360 = q - 360 * ⌊q / 360⌋ := by rw [remainder, truncated, if_pos part]
  have half := far (j := 2 * ⌊q / 360⌋ + 1) (by omega)
  have full := far (j := 2 * ⌊q / 360⌋ + 2) (by omega)
  push_cast at half full
  rw [abs_sub_comm, abs_of_pos (by linarith)] at full
  have size : |remainder q 360| = q - 360 * ⌊q / 360⌋ := by
    rw [rest]
    exact abs_of_nonneg (by linarith)
  rw [size]
  refine ⟨?_, by linarith⟩
  rwa [show q - 360 * (⌊q / 360⌋ : ℚ) - 180 = q - 180 * (2 * ⌊q / 360⌋ + 1) by ring]

namespace Context

variable {c : Context} {k : Constants}

theorem Suits.radians_rest_near (suits : c.Suits k) (working : c.Working) {x : ℚ} {rest : Decimal}
    (divided : c.IsRounding (remainder x 360) rest) :
    Yields (fun y => y.isFinite = true ∧ |(y.value : ℝ) - (remainder x 360 : ℚ) * (Real.pi / 180)| ≤ 100 * c.grain)
      (c.radians k rest) := by
  have fine := working.fine
  have tiny : (0 : ℝ) < c.grain := Rat.cast_pos.mpr c.grain_pos
  have high := Real.pi_le_four
  have less := abs_remainder_lt (d := 360) (by norm_num) x
  rw [abs_of_pos (by norm_num : (0 : ℚ) < 360)] at less
  have error := divided.near working.deep 3 (by linarith)
  have moved := working.near divided 3 (by linarith)
  have small : |rest.value| ≤ 361 := by linarith [abs_sub_abs_le_abs_sub rest.value (remainder x 360)]
  intro y found
  obtain ⟨sound, _, near⟩ := (suits.radians_reaches working divided.isFinite small).yields y found
  refine ⟨sound, ?_⟩
  have angle : |((rest.value : ℝ) - (remainder x 360 : ℚ)) * (Real.pi / 180)| ≤ 12 * c.grain := by
    have turn : Real.pi / 180 ≤ 4 / 180 := div_le_div_of_nonneg_right high (by norm_num)
    have positive : 0 < Real.pi / 180 := div_pos Real.pi_pos (by norm_num)
    rw [abs_mul, abs_of_pos positive]
    calc |(rest.value : ℝ) - (remainder x 360 : ℚ)| * (Real.pi / 180)
        ≤ 10 ^ 3 / 2 * c.grain * (4 / 180) := mul_le_mul moved turn positive.le (by positivity)
      _ ≤ 12 * c.grain := by linarith
  have split : (y.value : ℝ) - (remainder x 360 : ℚ) * (Real.pi / 180) =
      (y.value - rest.value * Real.pi / 180) + ((rest.value : ℝ) - (remainder x 360 : ℚ)) * (Real.pi / 180) := by ring
  rw [split]
  exact (abs_add_le _ _).trans (by linarith)

/-- What is near an angle that is far from a half and from a full turn is not what `π` is rounded to. -/
theorem Suits.not_atHalfTurn (suits : c.Suits k) (working : c.Working) {y : Decimal}
    (sound : y.isFinite = true) {angle : ℝ}
    (half : 10 ^ 7 * c.grain ≤ |angle - 180|) (full : angle ≤ 360 - 10 ^ 7 * c.grain)
    (near : |(|(y.value : ℝ)| - angle * (Real.pi / 180))| ≤ 100 * c.grain) : ¬ c.AtHalfTurn k y := by
  rintro ⟨r, reduced, _, rounded⟩
  have tiny : (0 : ℝ) < c.grain := Rat.cast_pos.mpr c.grain_pos
  have circle := suits.pi_near
  have low := Real.pi_gt_three
  generalize unit : Real.pi / 180 = degree at near
  have part : 3 / 180 ≤ degree := by linarith
  have whole : 180 * degree = Real.pi := by linarith
  -- It is less than a full turn, so that it is left as it is.
  have short : |y.value| < |k.twoPi.value| := by
    have below : |(y.value : ℝ)| < k.twoPi.value := by
      have room := mul_le_mul_of_nonneg_right full (by linarith : 0 ≤ degree)
      have grains := mul_le_mul_of_nonneg_left part (by positivity : 0 ≤ 10 ^ 7 * (c.grain : ℝ))
      linarith [(abs_le.mp suits.twoPi_near).1, (abs_le.mp near).2]
    exact (by exact_mod_cast below : |y.value| < k.twoPi.value).trans_le (le_abs_self _)
  have kept := (rem_reaches working.precise sound suits.finite.twoPi).yields r reduced
  rw [remainder_eq_self short] at kept
  have last := working.near kept 1 (by
    have high := suits.twoPi_bounds working
    rw [abs_of_pos (show 0 < k.twoPi.value by linarith)] at short
    linarith)
  have turn := (Rat.cast_le (K := ℝ)).mpr (suits.round_pi_near working rounded)
  have sizes := (abs_abs_sub_abs_le_abs_sub (r.value : ℝ) y.value).trans last
  push_cast at turn
  have reached : |angle * degree - Real.pi| ≤ 130 * c.grain := by
    have split : angle * degree - Real.pi =
        -(|(y.value : ℝ)| - angle * degree) + -(|(r.value : ℝ)| - |(y.value : ℝ)|) +
          ((|(r.value : ℝ)| - k.pi.value) + (k.pi.value - Real.pi)) := by ring
    rw [split]
    refine (abs_add_three _ _ _).trans ?_
    rw [abs_neg, abs_neg]
    linarith [abs_add_le (|(r.value : ℝ)| - k.pi.value) (k.pi.value - Real.pi)]
  have long : 10 ^ 7 * (c.grain : ℝ) * (3 / 180) ≤ |angle * degree - Real.pi| := by
    rw [← whole, ← sub_mul, abs_mul, abs_of_nonneg (by linarith : 0 ≤ degree)]
    exact mul_le_mul half part (by norm_num) (abs_nonneg _)
  linarith

/-- An angle of few digits in degrees is not what `π` is rounded to, once full turns are taken off it. -/
theorem Suits.radians_apart (suits : c.Suits k) (working : c.Working) {digits : Nat} (positive : 0 < digits)
    (guarded : c.precision = digits + 5) {x : ℚ} (short : Short digits x) (other : ¬ ∃ j : ℤ, x = 180 * j)
    {rest : Decimal} (divided : c.IsRounding (remainder x 360) rest) :
    Yields (fun y => y.isFinite = true ∧ ¬ c.AtHalfTurn k y) (c.radians k rest) := by
  obtain ⟨half, full⟩ := short.remainder_apart positive other
  have unit : (10 : ℚ) ^ (2 - (digits : ℤ)) = 10 ^ 7 * c.grain := by
    rw [show (2 : ℤ) - digits = 7 - c.precision by rw [guarded]; push_cast; ring, pow_sub_precision]
    norm_num
  rw [unit] at half full
  have half := (Rat.cast_le (K := ℝ)).mpr half
  have full := (Rat.cast_le (K := ℝ)).mpr full
  push_cast at half full
  intro y found
  obtain ⟨sound, close⟩ := suits.radians_rest_near working divided y found
  refine ⟨sound, suits.not_atHalfTurn working sound half full ?_⟩
  have size := (abs_abs_sub_abs_le_abs_sub (y.value : ℝ) ((remainder x 360 : ℚ) * (Real.pi / 180))).trans close
  rwa [abs_mul, abs_of_pos (div_pos Real.pi_pos (by norm_num : (0 : ℝ) < 180))] at size

theorem radians_matched (precise : 0 < c.precision) (constants : k.AllFinite) {sign : ℤˣ} {x x' : Decimal}
    (mirror : Mirror sign x x') : Matched (Mirror sign) (c.radians k x) (c.radians k x') := by
  apply (mul_matched precise mirror (.refl constants.pi)).andThen
  intro _ _ multiplied
  exact div_matched precise multiplied rfl (by rw [value_ofInt]; norm_num)

section
variable (roomy : c.Roomy) (refuses : c.refusesSubnormal = true) (suits : c.Suits k) {x x' : Decimal}
  (mirror : Mirror (-1) x x')
include roomy refuses suits mirror

theorem sinWork_degrees_matched {digits : Nat} (positive : 0 < digits) (guarded : c.precision = digits + 5)
    (short : Short digits x.value) : Matched (Mirror (-1)) (c.sinWork k true x) (c.sinWork k true x') := by
  have precise := roomy.precise
  have divides (n : ℤ) (some : n ≠ 0) : (ofInt n).value ≠ 0 := by
    rw [value_ofInt]
    exact_mod_cast some
  unfold sinWork
  rw [if_pos rfl, if_pos rfl]
  apply (rem_matched precise mirror rfl (divides 180 (by decide))).source.andThen
  rintro z z' ⟨left, rest⟩
  obtain ⟨_, whole⟩ := (halfTurn_reaches roomy.toWorking refuses mirror.first).yields z left
  rw [isEqual_eq rest.first rfl, isEqual_eq rest.second rfl, value_zero, decide_eq_decide.mpr rest.zero_iff]
  refine .bind ?_
  intro zero found
  refine .ite (fun _ => .value ⟨rfl, rfl, by simp [value_zero]⟩) ?_
  intro other
  have other : ¬ ∃ j : ℤ, x.value = 180 * j := by
    rw [← whole]
    rintro same
    cases found
    exact other (decide_eq_true same)
  apply (rem_matched precise mirror rfl (divides 360 (by decide))).source.andThen
  rintro r r' ⟨left, rest⟩
  have divided := (rem_reaches precise mirror.first (y := ofInt 360) rfl).yields r left
  rw [value_ofInt, Int.cast_ofNat] at divided
  apply (radians_matched roomy.precise suits.finite rest).source.andThen
  rintro y y' ⟨found, turned⟩
  obtain ⟨_, apart⟩ := suits.radians_apart roomy.toWorking positive guarded short other divided y found
  exact sinReduced_matched roomy refuses suits turned apart

theorem sinWork_radians_matched (apart : ¬ c.AtHalfTurn k x) :
    Matched (Mirror (-1)) (c.sinWork k false x) (c.sinWork k false x') := by
  apply (sinReduced_matched roomy refuses suits mirror apart).andThen
  intro sine sine' found
  exact snap_matched roomy.precise found mirror

end

/-! ### Points on either side of an axis -/

/-- Whether the angle of a point to the left is rounded in the same way if `π` was rounded before. -/
def TurnsAlike (c : Context) (k : Constants) (y x : Decimal) : Prop :=
  ∀ ratio angle turn, c.div y x = .ok ratio → c.atanWork k ratio = .ok angle → c.round k.pi.value = .ok turn →
    c.round (k.pi.value + (if 0 < y.value then angle.value else -angle.value)) =
      c.round (turn + (if 0 < y.value then angle.value else -angle.value))

theorem Gives.congr {q r : ℚ} {outcome : Except Signal Decimal} (gives : c.Gives q outcome)
    (same : c.round q = c.round r) : c.Gives r outcome := ⟨gives.isFinite, gives.rounded.trans same⟩

section
variable {y x : Decimal} (first : y.isFinite = true) (second : x.isFinite = true)
include first second

omit first in
theorem atan2Work_right (c : Context) (k : Constants) (positive : 0 < x.value) :
    c.atan2Work k y x = c.div y x >>= c.atanWork k := by
  unfold atan2Work
  rw [isLess_eq rfl second, value_zero, decide_eq_true positive]
  rfl

theorem atan2Work_left (c : Context) (k : Constants) (negative : x.value < 0) :
    c.atan2Work k y x = c.div y x >>= fun ratio => c.atanWork k ratio >>= fun angle =>
      if 0 ≤ y.value then c.add angle k.pi else c.neg k.pi >>= c.add angle := by
  unfold atan2Work
  rw [isLess_eq rfl second, isLess_eq second rfl, isAtMost_eq rfl first, value_zero,
    decide_eq_false (lt_asymm negative),
    decide_eq_true negative]
  by_cases above : 0 ≤ y.value
  · simp only [decide_eq_true above, if_pos above]
    rfl
  · simp only [decide_eq_false above, if_neg above]
    rfl

theorem atan2Work_upright (c : Context) (k : Constants) (zero : x.value = 0) (some : y.value ≠ 0) :
    c.atan2Work k y x = if 0 < y.value then .ok k.halfPi else c.neg k.halfPi := by
  unfold atan2Work
  rw [isLess_eq rfl second, isLess_eq second rfl, isLess_eq rfl first, isLess_eq first rfl, value_zero, zero,
    decide_eq_false (lt_irrefl _)]
  by_cases above : 0 < y.value
  · simp only [decide_eq_true above, if_pos above]
    rfl
  · have below : y.value < 0 := lt_of_le_of_ne (not_lt.mp above) some
    simp only [decide_eq_false above, if_neg above, decide_eq_true below]
    rfl

variable (roomy : c.Roomy) (refuses : c.refusesSubnormal = true) (suits : c.Suits k)
include roomy refuses suits

theorem atan2Work_matched (some : y.value ≠ 0) (other : x.value ≠ 0) (alike : x.value < 0 → c.TurnsAlike k y x) :
    Matched (Mirror (-1)) (c.atan2Work k y x) (c.atan2Work k y.opposite x) := by
  have precise := roomy.precise
  have below := roomy.below
  have above := roomy.above
  have mirror := mirror_opposite first
  have divides := c.div_opposite first second
  rcases lt_or_gt_of_ne other with negative | positive
  · rw [atan2Work_left first second c k negative, atan2Work_left mirror.second second c k negative, divides]
    cases divided : c.div y x with
    | error signal => exact .failure signal
    | ok ratio =>
      have finite := (rounds_isFinite c).div first second ratio divided
      apply (atanWork_matched precise refuses (by omega) (by omega) suits.finite finite).source.andThen
      rintro angle angle' ⟨found, turned⟩
      obtain ⟨z, negated, sound, turn, rounded, same⟩ := (neg_pi_settles roomy suits).exists_eq
      have equal := alike negative ratio angle turn divided found rounded
      have value := turned.value_neg
      have up := mirror.value_neg
      rcases lt_or_gt_of_ne some with down | upper
      · rw [if_neg (not_le.mpr down), if_pos (by linarith), negated]
        rw [if_neg (lt_asymm down)] at equal
        have left := add_gives precise turned.first sound
        have right := add_gives precise turned.second suits.finite.pi
        rw [same] at left
        rw [value, add_comm] at right
        exact left.matched (right.congr equal) (by simp)
      · rw [if_pos upper.le, if_neg (by linarith), negated]
        rw [if_pos upper] at equal
        have left := add_gives precise turned.first suits.finite.pi
        have right := add_gives precise turned.second sound
        rw [same, value] at right
        rw [add_comm] at left
        exact (left.congr equal).matched right (by simp)
  · rw [atan2Work_right second c k positive, atan2Work_right second c k positive, divides]
    cases divided : c.div y x with
    | error signal => exact .failure signal
    | ok ratio =>
      have finite := (rounds_isFinite c).div first second ratio divided
      exact atanWork_matched precise refuses (by omega) (by omega) suits.finite finite

end

/-! ### The functions -/

/-- Whether two outcomes are the same failure, or numbers that are each other's negatives. -/
def Opposed (first second : Computed Decimal) : Prop :=
  (∃ failure, first = .error failure ∧ second = .error failure) ∨
    ∃ v w, first = .ok v ∧ second = .ok w ∧ v.isFinite = true ∧ w.isFinite = true ∧ w.value = -v.value

theorem opposed_of_matched {first second : Computed Decimal} (matched : Matched (Mirror (-1)) first second) :
    Opposed first second := by
  cases matched with
  | failure fault => exact .inl ⟨fault, rfl, rfl⟩
  | value same => exact .inr ⟨_, _, rfl, rfl, same.first, same.second, same.value_neg⟩

namespace Ample

variable (ample : c.Ample) (refuses : c.refusesSubnormal = true)
include ample

theorem constants_found : Yields (fun k : Constants =>
    Constants.ofPrecision (c.widen guardDigits).precision = .ok k ∧ (c.widen guardDigits).Suits k)
    (Constants.ofPrecision (c.widen guardDigits).precision) := by
  have positive := ample.positive
  have most := ample.most
  have least : 6 ≤ (c.widen guardDigits).precision := show 6 ≤ c.precision + 5 by omega
  have most : (c.widen guardDigits).precision ≤ 105 := show c.precision + 5 ≤ 105 by omega
  exact fun k found => ⟨found, Constants.ofPrecision_allFinite _ k found,
    (Constants.ofPrecision_reaches least most).yields k found⟩

theorem opposed {first second : Context → Constants → Computed Decimal}
    (works : ∀ k, Constants.ofPrecision (c.widen guardDigits).precision = .ok k → (c.widen guardDigits).Suits k →
      Matched (Mirror (-1)) (first (c.widen guardDigits) k) (second (c.widen guardDigits) k)) :
    Opposed (c.guarded first) (c.guarded second) :=
  opposed_of_matched (guarded_matched ample.positive ample.constants_found fun k ⟨found, suits⟩ => works k found suits)

theorem inUnit_opposed {first second : Context → Constants → Computed Decimal} (inDegrees : Bool)
    (works : ∀ k, Constants.ofPrecision (c.widen guardDigits).precision = .ok k → (c.widen guardDigits).Suits k →
      Matched (Mirror (-1)) (first (c.widen guardDigits) k) (second (c.widen guardDigits) k)) :
    Opposed (c.guarded fun w k => do w.inUnit k inDegrees (← first w k))
      (c.guarded fun w k => do w.inUnit k inDegrees (← second w k)) := by
  apply ample.opposed
  intro k found suits
  have nonzero : k.pi.value ≠ 0 := by linarith [suits.pi_bounds ample.roomy.toWorking]
  apply (works k found suits).andThen
  intro angle angle' mirror
  exact (inUnit_matched ample.roomy.precise suits.finite nonzero inDegrees mirror).lift

section
variable {x : Decimal} (given : x.isFinite = true)
include refuses given

theorem sin_degrees_opposed (short : Short c.precision x.value) : Opposed (c.sin true x) (c.sin true x.opposite) := by
  apply ample.opposed
  intro _ _ suits
  exact (sinWork_degrees_matched ample.roomy refuses suits (mirror_opposite given) ample.positive rfl short).lift

theorem sin_radians_opposed (apart : ∀ k, Constants.ofPrecision (c.widen guardDigits).precision = .ok k →
    ¬ (c.widen guardDigits).AtHalfTurn k x) : Opposed (c.sin false x) (c.sin false x.opposite) := by
  apply ample.opposed
  intro k found suits
  exact (sinWork_radians_matched ample.roomy refuses suits (mirror_opposite given) (apart k found)).lift

theorem asin_opposed (inDegrees : Bool) : Opposed (c.asin inDegrees x) (c.asin inDegrees x.opposite) := by
  have deep := ample.deep
  have even := ample.even
  exact ample.inUnit_opposed inDegrees fun _ _ suits => asinWork_matched ample.roomy.precise refuses
    (show c.least ≤ 0 by omega) (show 0 ≤ c.greatest by omega) suits.finite given

theorem atan_opposed (inDegrees : Bool) : Opposed (c.atan inDegrees x) (c.atan inDegrees x.opposite) := by
  have deep := ample.deep
  have even := ample.even
  exact ample.inUnit_opposed inDegrees fun _ _ suits => (atanWork_matched ample.roomy.precise refuses
    (show c.least ≤ 0 by omega) (show 0 ≤ c.greatest by omega) suits.finite given).lift

omit refuses

theorem cbrt_opposed : Opposed (c.cbrt x) (c.cbrt x.opposite) :=
  ample.opposed fun _ _ _ => (cubeRootWork_matched given).lift

theorem asinh_opposed : Opposed (c.asinh x) (c.asinh x.opposite) := by
  apply ample.opposed
  intro k _ suits
  have finite := rounds_isFinite (c.widen guardDigits)
  rw [abs_opposite given]
  refine .ofYields (lift_yields (finite.abs given)) ?_
  intro size sized
  refine .ofYields (lift_yields (finite.mul sized sized)) ?_
  intro square squared
  refine .ofYields (lift_yields (finite.add squared rfl)) ?_
  intro sum summed
  refine .ofYields (lift_yields (finite.sqrt summed)) ?_
  intro root rooted
  refine .ofYields (lift_yields (finite.add sized rooted)) ?_
  intro sum summed
  refine .ofYields (lnWork_isFinite suits.finite summed) ?_
  intro result kept
  exact .value (mirror_copySign given kept)

end

section
variable {y x : Decimal} (first : y.isFinite = true) (second : x.isFinite = true) (some : y.value ≠ 0)
include refuses first second some

theorem atan2_opposed (inDegrees : Bool) (other : x.value ≠ 0)
    (alike : x.value < 0 → ∀ k, Constants.ofPrecision (c.widen guardDigits).precision = .ok k →
      (c.widen guardDigits).TurnsAlike k y x) :
    Opposed (c.atan2 inDegrees y x) (c.atan2 inDegrees y.opposite x) := by
  apply ample.inUnit_opposed inDegrees
  intro k found suits
  have turns (negative : x.value < 0) : (c.widen guardDigits).TurnsAlike k y x := alike negative k found
  exact (atan2Work_matched first second ample.roomy refuses suits some other turns).lift

omit refuses in
theorem atan2_upright (inDegrees : Bool) (zero : x.value = 0) : Settles (fun v => v.isFinite = true ∧
    v.value = if 0 < y.value then c.rightAngle inDegrees else -c.rightAngle inDegrees) (c.atan2 inDegrees y x) := by
  have precise := ample.roomy.precise
  refine Context.guarded_concludes (ample.constants_settles.and ample.constants_found) ?_
    fun z (settled : Settles (fun v => v.isFinite = true ∧
      v.value = if 0 < y.value then c.rightAngle inDegrees else -c.rightAngle inDegrees) (c.plus z)) =>
      lift_settles settled
  rintro k ⟨_, found, suits⟩
  obtain ⟨near, negated⟩ := ample.halfPi_near found
  have tiny : (0 : ℝ) < (c.widen guardDigits).grain := Rat.cast_pos.mpr (grain_pos _)
  rw [atan2Work_upright first second (c.widen guardDigits) k zero some]
  by_cases above : 0 < y.value
  · rw [if_pos above, if_pos above]
    have upright := ample.inUnit_rightAngle suits.finite.halfPi suits (by linarith) inDegrees
    exact lift_settles (upright.mono fun _ settled => settled.2)
  · rw [if_neg above, if_neg above]
    apply (lift_settles negated).andThen
    rintro z ⟨sound, near⟩
    refine lift_settles ?_
    have mirror := mirror_opposite sound
    have upright := ample.inUnit_rightAngle mirror.second suits (by
      rw [mirror.value_neg]
      push_cast
      exact near) inDegrees
    have nonzero : k.pi.value ≠ 0 := by linarith [suits.pi_bounds ample.roomy.toWorking]
    apply ((inUnit_matched precise suits.finite nonzero inDegrees mirror.symm).settles upright).mono
    rintro angle ⟨_, _, ⟨_, settled⟩, turned⟩
    apply ((plus_matched ample.positive turned).settles settled).mono
    rintro v ⟨_, _, ⟨_, same⟩, opposite⟩
    refine ⟨opposite.second, ?_⟩
    rw [opposite.value_neg, same]

end

end Ample

end Context

end Reckoner.Decimal

namespace Reckoner.NumberSystem.Decimals

open Reckoner.Decimal

/-- In a range of more than four times the digits, each odd function fails for a number of few digits and for its
negative with one failure, or has results for them that are each other's negatives; the sine of an angle in radians
unless what is left of it after full turns is what `π` is rounded up to. So do the angles of two points on either
side of the horizontal axis, to the left of the vertical one if they are rounded alike whether `π` was or not. -/
theorem odd_functions {precision range : Int} {c : Decimal.Context} (given : context? precision range = some c)
    (wide : 4 * precision + 30 ≤ range) :
    (∀ x : Decimal, x.isFinite = true → Short c.precision x.value →
      (∀ inDegrees, Context.Opposed (c.asin inDegrees x) (c.asin inDegrees x.opposite)) ∧
      (∀ inDegrees, Context.Opposed (c.atan inDegrees x) (c.atan inDegrees x.opposite)) ∧
      Context.Opposed (c.cbrt x) (c.cbrt x.opposite) ∧ Context.Opposed (c.asinh x) (c.asinh x.opposite) ∧
      Context.Opposed (c.sin true x) (c.sin true x.opposite) ∧
      ((∀ k, Constants.ofPrecision (c.widen guardDigits).precision = .ok k → ¬ (c.widen guardDigits).AtHalfTurn k x) →
        Context.Opposed (c.sin false x) (c.sin false x.opposite))) ∧
    ∀ y x : Decimal, y.isFinite = true → x.isFinite = true → y.value ≠ 0 →
      (x.value < 0 → ∀ k, Constants.ofPrecision (c.widen guardDigits).precision = .ok k →
        (c.widen guardDigits).TurnsAlike k y x) →
      ∀ inDegrees, Context.Opposed (c.atan2 inDegrees y x) (c.atan2 inDegrees y.opposite x) := by
  have ample := ample_of_context? given wide
  have refuses : c.refusesSubnormal = true := by
    obtain ⟨_, rfl⟩ := context?_eq_some given
    rfl
  refine ⟨fun x finite short => ⟨ample.asin_opposed refuses finite, ample.atan_opposed refuses finite,
    ample.cbrt_opposed finite, ample.asinh_opposed finite, ample.sin_degrees_opposed refuses finite short,
    ample.sin_radians_opposed refuses finite⟩, ?_⟩
  intro y x first second some alike inDegrees
  by_cases zero : x.value = 0
  · have mirror := mirror_opposite first
    obtain ⟨v, left, sound, same⟩ := (ample.atan2_upright first second some inDegrees zero).exists_eq
    obtain ⟨w, right, sound', same'⟩ :=
      (ample.atan2_upright mirror.second second (mt mirror.zero_iff.mp some) inDegrees zero).exists_eq
    refine .inr ⟨v, w, left, right, sound, sound', ?_⟩
    rw [same, same', mirror.value_neg]
    rcases lt_or_gt_of_ne some with below | above
    · rw [if_pos (by linarith), if_neg (lt_asymm below), neg_neg]
    · rw [if_neg (by linarith), if_pos above]
  · exact ample.atan2_opposed refuses first second some inDegrees zero alike

/-- At six digits the sine of one half, in radians, and the angle of the point to the upper left. -/
theorem odd_functions_sample : context? 6 defaultRange = some ⟨6, -999999, 999999, true⟩ ∧ 4 * 6 + 30 ≤ defaultRange ∧
    Short 6 (Decimal.finite false 5 (-1)).value ∧
    Context.Opposed (Decimal.Context.sin ⟨6, -999999, 999999, true⟩ false (.finite false 5 (-1)))
      (Decimal.Context.sin ⟨6, -999999, 999999, true⟩ false (.finite true 5 (-1))) ∧
    Context.Opposed (Decimal.Context.atan2 ⟨6, -999999, 999999, true⟩ true (.finite false 1 0) (.finite true 1 0))
      (Decimal.Context.atan2 ⟨6, -999999, 999999, true⟩ true (.finite true 1 0) (.finite true 1 0)) := by
  have given : context? 6 defaultRange = some ⟨6, -999999, 999999, true⟩ := rfl
  have few : Short 6 (Decimal.finite false 5 (-1)).value := ⟨5, -1, by decide, Context.value_finite _ _ _⟩
  obtain ⟨odd, turned⟩ := odd_functions given (by decide)
  obtain ⟨_, _, _, _, _, sine⟩ := odd (.finite false 5 (-1)) rfl few
  refine ⟨given, by decide, few, sine ?_, turned (.finite false 1 0) (.finite true 1 0) rfl rfl ?_ ?_ true⟩
  · rintro k found ⟨r, reduced, above, _⟩
    cases found
    have rest : Decimal.Context.rem ⟨11, -999999, 999999, true⟩ (.finite false 5 (-1)) Constants.fortyDigits.twoPi =
        .ok (.finite false 50000000000 (-11)) := eq_ok_of_toOption (by with_unfolding_all decide)
    cases rest.symm.trans reduced
    norm_num [Constants.fortyDigits, Context.value_finite, Context.signed, abs_of_pos] at above
  · norm_num [Context.value_finite, Context.signed]
  · rintro _ k found ratio angle turn divided computed rounded
    cases found
    have first : Decimal.Context.div ⟨11, -999999, 999999, true⟩ (.finite false 1 0) (.finite true 1 0) =
        .ok (.finite true 1 0) := eq_ok_of_toOption (by with_unfolding_all decide)
    cases first.symm.trans divided
    have second : Decimal.Context.atanWork ⟨11, -999999, 999999, true⟩ Constants.fortyDigits (.finite true 1 0) =
        .ok (.finite true 78539816340 (-11)) := eq_ok_of_toOption (by with_unfolding_all decide)
    cases second.symm.trans computed
    have third : Decimal.Context.plus ⟨11, -999999, 999999, true⟩ Constants.fortyDigits.pi =
        .ok (.finite false 31415926536 (-10)) := eq_ok_of_toOption (by with_unfolding_all decide)
    have same := (Context.plus_gives (c := ⟨11, -999999, 999999, true⟩) (by decide)
      (x := Constants.fortyDigits.pi) rfl).rounded
    rw [third] at same
    cases same.trans rounded
    -- Both sums have the same digits.
    have left := (Context.add_gives (c := ⟨11, -999999, 999999, true⟩) (by decide) (x := Constants.fortyDigits.pi)
      (y := .finite true 78539816340 (-11)) rfl rfl).rounded
    have right := (Context.add_gives (c := ⟨11, -999999, 999999, true⟩) (by decide)
      (x := .finite false 31415926536 (-10)) (y := .finite true 78539816340 (-11)) rfl rfl).rounded
    have sums :
        Decimal.Context.add ⟨11, -999999, 999999, true⟩ Constants.fortyDigits.pi (.finite true 78539816340 (-11)) =
        Decimal.Context.add ⟨11, -999999, 999999, true⟩ (.finite false 31415926536 (-10))
          (.finite true 78539816340 (-11)) := by
      with_unfolding_all decide
    have above : 0 < (Decimal.finite false 1 0).value := by norm_num [Context.value_finite, Context.signed]
    rw [if_pos above]
    exact left.symm.trans ((congrArg _ sums).trans right)

/-- At four digits the angles of the points `(-3829, 3162)` and `(-3829, -3162)` in degrees, `140.45000089917` and its
negative, come out as `140.5` and as `-140.4`: to the lower left the negative of `π` is added, which is rounded. -/
theorem angle_of_lower_left : context? 4 defaultRange = some ⟨4, -999999, 999999, true⟩ ∧
    Decimal.Context.atan2 ⟨4, -999999, 999999, true⟩ true (.finite false 3162 0) (.finite true 3829 0) =
      .ok (.finite false 1405 (-1)) ∧
    Decimal.Context.atan2 ⟨4, -999999, 999999, true⟩ true (.finite true 3162 0) (.finite true 3829 0) =
      .ok (.finite true 1404 (-1)) ∧
    ¬ Context.Opposed (Decimal.Context.atan2 ⟨4, -999999, 999999, true⟩ true (.finite false 3162 0)
        (.finite true 3829 0))
      (Decimal.Context.atan2 ⟨4, -999999, 999999, true⟩ true (.finite true 3162 0) (.finite true 3829 0)) := by
  have upper : Decimal.Context.atan2 ⟨4, -999999, 999999, true⟩ true (.finite false 3162 0) (.finite true 3829 0) =
      .ok (.finite false 1405 (-1)) := eq_ok_of_toOption (by with_unfolding_all decide)
  have lower : Decimal.Context.atan2 ⟨4, -999999, 999999, true⟩ true (.finite true 3162 0) (.finite true 3829 0) =
      .ok (.finite true 1404 (-1)) := eq_ok_of_toOption (by with_unfolding_all decide)
  refine ⟨rfl, upper, lower, ?_⟩
  rw [upper, lower]
  rintro (⟨_, impossible, _⟩ | ⟨v, w, left, right, _, _, same⟩)
  · cases impossible
  · cases left
    cases right
    norm_num [Context.value_finite, Context.signed] at same

end Reckoner.NumberSystem.Decimals

import Reckoner.Proofs.Decimal.Bounded
import Reckoner.Proofs.Decimal.Mirror

/-! The right angle. Half of `π` has no rounding to a hundred digits at most that is near a tie, so that it makes no
difference to a result whether the constant was rounded to the digits of the work before; and in degrees it is
ninety. -/

namespace Reckoner.Decimal

namespace Constants

open Context

/-! ### The digits of half of `π` -/

theorem atanReduced_hundredTen : (wideRange 110).atanReduced one = .ok (finite false
    78539816339744830961566084581987572104929234984377645524373614807695410157155224965700870633552926699553702180
    (-110)) :=
  eq_ok_of_toOption (by decide +kernel)

/-- The digits of half of `π`, up to the hundred and fifth behind the point. -/
def halfPiDigits : Nat :=
  1570796326794896619231321691639751442098584699687552910487472296153908203143104499314017412671058533991074

/-- Half of `π` to so many digits, as a whole number. -/
def halfPiRounded (precision : Nat) : Nat :=
  (2 * halfPiDigits + 10 ^ (106 - precision)) / (2 * 10 ^ (106 - precision))

theorem halfPiDigits_near : |(halfPiDigits : ℝ) * 10 ^ (-105 : ℤ) - Real.pi / 2| ≤ 3 * 10 ^ (-105 : ℤ) := by
  have working : (wideRange 110).Working := wideRange_working (by decide) (by decide)
  have angle := (working.atanReduced_reaches.yields _ atanReduced_hundredTen).2
  have grain : ((wideRange 110).grain : ℝ) = 10 ^ (-110 : ℤ) := by
    rw [Context.grain]
    push_cast
    rfl
  rw [grain, value_finite] at angle
  have bounds := abs_le.mp angle
  rw [abs_le, halfPiDigits]
  norm_num [signed] at bounds ⊢
  constructor <;> linarith

/-- No rounding of half of `π` is near a tie. -/
theorem halfPiRounded_far : ∀ precision < 101, 0 < precision →
    2 * 10 ^ 5 * ((halfPiDigits : ℤ) - halfPiRounded precision * 10 ^ (106 - precision)).natAbs ≤
      (10 ^ 5 - 4) * 10 ^ (106 - precision) := by
  decide +kernel

theorem halfPiRounded_near {precision : Nat} (positive : 0 < precision) (most : precision ≤ 100) :
    |Real.pi / 2 - halfPiRounded precision * 10 ^ (1 - (precision : ℤ))| ≤
      (1 / 2 - 17 / 10 ^ 6) * 10 ^ (1 - (precision : ℤ)) := by
  have far := halfPiRounded_far precision (by omega) positive
  have near := halfPiDigits_near
  generalize halfPiRounded precision = rounded at far ⊢
  generalize halfPiDigits = digits at far near
  have unit : (10 : ℝ) ^ (106 - precision) * 10 ^ (-105 : ℤ) = 10 ^ (1 - (precision : ℤ)) := by
    rw [← zpow_natCast, ← zpow_add₀ (by norm_num)]
    congr 1
    omega
  have cast : 2 * 10 ^ 5 * |(digits : ℝ) - rounded * 10 ^ (106 - precision)| ≤
      (10 ^ 5 - 4) * 10 ^ (106 - precision) := by
    have whole : (((2 * 10 ^ 5 * ((digits : ℤ) - rounded * 10 ^ (106 - precision)).natAbs : ℕ) : ℤ) : ℝ) ≤
        (((10 ^ 5 - 4) * 10 ^ (106 - precision) : ℕ) : ℝ) := by exact_mod_cast far
    push_cast [Int.natCast_natAbs] at whole
    norm_num at whole ⊢
    exact whole
  have power : (0 : ℝ) < 10 ^ (-105 : ℤ) := by positivity
  have scaled := mul_le_mul_of_nonneg_right cast power.le
  have split : (digits : ℝ) * 10 ^ (-105 : ℤ) - rounded * 10 ^ (1 - (precision : ℤ)) =
      (digits - rounded * 10 ^ (106 - precision)) * 10 ^ (-105 : ℤ) := by rw [← unit]; ring
  have first : 2 * 10 ^ 5 * |(digits : ℝ) * 10 ^ (-105 : ℤ) - rounded * 10 ^ (1 - (precision : ℤ))| ≤
      (10 ^ 5 - 4) * 10 ^ (1 - (precision : ℤ)) := by
    rw [split, abs_mul, abs_of_pos power, ← unit]
    linarith
  have last : (10 : ℝ) ^ (-105 : ℤ) ≤ 10 ^ (1 - (precision : ℤ)) / 10 ^ 6 := by
    rw [← zpow_natCast, ← zpow_sub₀ (by norm_num)]
    exact zpow_le_zpow_right₀ (by norm_num) (by omega)
  rw [abs_sub_comm] at near
  have apart := abs_sub_le (Real.pi / 2) (digits * 10 ^ (-105 : ℤ)) (rounded * 10 ^ (1 - (precision : ℤ)))
  generalize (10 : ℝ) ^ (-105 : ℤ) = tiny at near first last apart
  linarith

/-! ### The constant -/

theorem derive_halfPi (precision : Nat) :
    Yields (fun k : Constants => (wideRange (precision + 5)).div k.pi (ofInt 2) = .ok k.halfPi)
      (derive precision) := by
  iterate 14
    refine .bind ?_
    intro _ _
  refine .bind ?_
  intro _ halved
  refine .bind ?_
  intro _ _
  exact .ok halved

theorem ofPrecision_halfPi {precision : Nat} (least : 6 ≤ precision) (most : precision ≤ 105) :
    Yields (fun k : Constants => |k.halfPi.value - k.pi.value / 2| ≤ 5 * 10 ^ (-(precision : ℤ)))
      (ofPrecision precision) := by
  unfold ofPrecision
  split
  · rename_i few
    refine .ok ?_
    have coarse : (10 : ℚ) ^ (-40 : ℤ) ≤ 10 ^ (-(precision : ℤ)) := zpow_le_zpow_right₀ (by norm_num) (by omega)
    have apart : |fortyDigits.halfPi.value - fortyDigits.pi.value / 2| ≤ 5 * 10 ^ (-40 : ℤ) := by
      rw [fortyDigits, value_finite, value_finite, abs_le]
      norm_num [signed]
    exact apart.trans (mul_le_mul_of_nonneg_left coarse (by norm_num))
  · intro k found
    have working := wideRange_working (show 6 ≤ precision + 5 by omega) (by omega)
    have finite := derive_allFinite precision k found
    have circular := (derive_reaches least most).yields k found
    have suits : (wideRange precision).Suits k := ⟨finite, (derive_reaches least most).yields k found⟩
    obtain ⟨low, high⟩ := suits.pi_bounds (wideRange_working least (by omega))
    have halved := (div_reaches working.precise (y := ofInt 2) finite.pi rfl (by rw [value_ofInt]; norm_num)).yields _
      (derive_halfPi precision k found)
    rw [value_ofInt, Int.cast_ofNat] at halved
    have fine : (wideRange (precision + 5)).grain ≤ 10 ^ (-(precision : ℤ)) :=
      zpow_le_zpow_right₀ (by norm_num) (show -((precision + 5 : Nat) : ℤ) ≤ -precision by omega)
    linarith [halved.near working.deep 1 (by rw [abs_of_pos] <;> linarith)]

end Constants

/-! ### Results -/

namespace Context

open Constants

/-- The right angle to the digits of a context. -/
def rightAngle (c : Context) (inDegrees : Bool) : ℚ :=
  if inDegrees then 90 else halfPiRounded c.precision * 10 ^ (1 - (c.precision : ℤ))

namespace Ample

variable {c : Context} (ample : c.Ample) {t : Decimal} (sound : t.isFinite = true)
include ample sound

/-- A number that is close to one with few digits, and has its first digit in the same place, is rounded to it. -/
theorem plus_settles_near {k n : ℤ} (least : c.least ≤ k) (greatest : k + 1 ≤ c.greatest)
    (bounds : 10 ^ k ≤ t.value ∧ t.value < 10 ^ (k + 1))
    (close : 2 * |t.value - n * 10 ^ (k - (c.precision - 1))| < 10 ^ (k - (c.precision - 1))) :
    Settles (fun v => v.isFinite = true ∧ v.value = (n : ℚ) * 10 ^ (k - (c.precision - 1))) (c.plus t) := by
  have positive := (pow_ten_pos k).trans_le bounds.1
  have spans : c.Spans t.value := by
    refine spans_of_le least greatest ?_ ?_ <;> rw [abs_of_pos positive]
    · exact bounds.1
    · exact bounds.2.le
  apply ((plus_gives ample.positive sound).settles_of_spans ample.positive spans).mono
  intro v rounding
  refine ⟨rounding.isFinite, ?_⟩
  have place := spans.1.lastPlace_eq positive.ne'
  rw [abs_of_pos positive, log_eq bounds.1 bounds.2] at place
  rw [eq_roundAt_of_round rounding.rounded, place]
  exact eq_roundAt close.le fun tie => absurd tie close.ne

theorem plus_ninety (close : |t.value - 90| ≤ 2300 * (c.widen guardDigits).grain) :
    Settles (fun v => v.isFinite = true ∧ v.value = 90) (c.plus t) := by
  have positive := ample.positive
  have deep := ample.deep
  have even := ample.even
  have fine := ample.roomy.fine
  have tiny := (c.widen guardDigits).grain_pos
  obtain ⟨least, greatest⟩ := abs_le.mp close
  have whole : ((9 * 10 ^ (c.precision - 1) : ℤ) : ℚ) * 10 ^ (1 - ((c.precision : ℤ) - 1)) = 90 := by
    push_cast
    rw [mul_assoc, ← zpow_natCast, ← zpow_add₀ (by norm_num), Nat.cast_sub positive]
    norm_num
  have unit : (10 : ℚ) ^ (1 - ((c.precision : ℤ) - 1)) = 10 ^ 7 * (c.widen guardDigits).grain := by
    rw [show (1 : ℤ) - (c.precision - 1) = 2 - c.precision by ring, pow_sub_precision, grain_widen, guardDigits]
    ring
  have rounded := ample.plus_settles_near sound (k := 1) (n := 9 * 10 ^ (c.precision - 1)) (by omega) (by omega)
    (by constructor <;> norm_num <;> linarith) (by rw [whole, unit]; linarith)
  rwa [whole] at rounded

variable {k : Constants} (suits : (c.widen guardDigits).Suits k)
  (near : |(t.value : ℝ) - Real.pi / 2| ≤ 15 * (c.widen guardDigits).grain)
include near

theorem plus_halfPi :
    Settles (fun v => v.isFinite = true ∧ v.value = (halfPiRounded c.precision : ℚ) * 10 ^ (1 - (c.precision : ℤ)))
      (c.plus t) := by
  have positive := ample.positive
  have deep := ample.deep
  have even := ample.even
  have fine := ample.roomy.fine_real
  have low := Real.pi_gt_d4
  have high := Real.pi_lt_d4
  obtain ⟨least, greatest⟩ := abs_le.mp near
  have bounds : (1 : ℚ) ≤ t.value ∧ t.value < 10 := by
    constructor
    · exact_mod_cast (show (1 : ℝ) ≤ t.value by linarith)
    · exact_mod_cast (show (t.value : ℝ) < 10 by linarith)
  have unit : (0 : ℝ) < 10 ^ (1 - (c.precision : ℤ)) := by positivity
  have digit : ((c.widen guardDigits).grain : ℝ) = 10 ^ (1 - (c.precision : ℤ)) / 10 ^ 6 := by
    have place : (c.widen guardDigits).grain = 10 ^ (1 - (c.precision : ℤ)) / 10 ^ 6 := by
      rw [pow_sub_precision, grain_widen, guardDigits]
      ring
    rw [place]
    push_cast
    rfl
  have total : 2 * |(t.value : ℝ) - halfPiRounded c.precision * 10 ^ (1 - (c.precision : ℤ))| <
      10 ^ (1 - (c.precision : ℤ)) := by
    linarith [halfPiRounded_near positive ample.most,
      abs_sub_le (t.value : ℝ) (Real.pi / 2) (halfPiRounded c.precision * 10 ^ (1 - (c.precision : ℤ)))]
  rw [show (1 - (c.precision : ℤ)) = 0 - (c.precision - 1) by ring] at total ⊢
  exact ample.plus_settles_near sound (n := halfPiRounded c.precision) (by omega) (by omega)
    (by rw [zpow_zero]; exact ⟨bounds.1, by norm_num; exact bounds.2⟩) (by
      refine (Rat.cast_lt (K := ℝ)).mp ?_
      push_cast
      exact total)

include suits

theorem degrees_near_ninety :
    Settles (fun z => z.isFinite = true ∧ |z.value - 90| ≤ 2300 * (c.widen guardDigits).grain)
      ((c.widen guardDigits).degrees k t) := by
  have fine := ample.roomy.fine
  have small := ample.least_small
  have tiny := (c.widen guardDigits).grain_pos
  obtain ⟨below, above⟩ := suits.pi_bounds ample.roomy.toWorking
  have double : |2 * t.value - k.pi.value| ≤ 40 * (c.widen guardDigits).grain := by
    have cast : |2 * (t.value : ℝ) - k.pi.value| ≤ 40 * (c.widen guardDigits).grain := by
      obtain ⟨least, greatest⟩ := abs_le.mp near
      obtain ⟨low, high⟩ := abs_le.mp suits.pi_near
      exact abs_le.mpr ⟨by linarith, by linarith⟩
    exact_mod_cast cast
  obtain ⟨least, greatest⟩ := abs_le.mp double
  have size : |t.value| = t.value := abs_of_pos (by linarith)
  apply (ample.degrees_settles suits sound (.inr (by rw [size]; linarith)) (by rw [size]; linarith)).mono
  rintro z ⟨found, _, error⟩
  refine ⟨found, ?_⟩
  have exactly : |t.value * 180 / k.pi.value - 90| ≤ 1200 * (c.widen guardDigits).grain := by
    have split : t.value * 180 / k.pi.value - 90 = 90 * (2 * t.value - k.pi.value) / k.pi.value := by
      field_simp
      ring
    rw [split, abs_div, abs_mul, abs_of_pos (by linarith : 0 < k.pi.value), abs_of_pos (by norm_num : (0 : ℚ) < 90),
      div_le_iff₀ (by linarith)]
    nlinarith
  obtain ⟨first, last⟩ := abs_le.mp exactly
  rw [Within, abs_of_pos (by linarith : 0 < t.value * 180 / k.pi.value)] at error
  refine (abs_sub_le _ (t.value * 180 / k.pi.value) _).trans ?_
  nlinarith

/-- What is near a right angle is rounded to one, whatever it was rounded to before. -/
theorem inUnit_rightAngle (inDegrees : Bool) :
    Settles (fun z => z.isFinite = true ∧ Settles
        (fun v => v.isFinite = true ∧ v.value = c.rightAngle inDegrees) (c.plus z))
      ((c.widen guardDigits).inUnit k inDegrees t) := by
  cases inDegrees with
  | false => exact .ok ⟨sound, ample.plus_halfPi sound near⟩
  | true =>
    apply (ample.degrees_near_ninety sound suits near).mono
    rintro z ⟨found, close⟩
    exact ⟨found, ample.plus_ninety found close⟩

omit sound near suits in
theorem halfPi_near (constants : Constants.ofPrecision (c.widen guardDigits).precision = .ok k) :
    |(k.halfPi.value : ℝ) - Real.pi / 2| ≤ 10 * (c.widen guardDigits).grain ∧
      Settles (fun z => z.isFinite = true ∧ |(-z.value : ℝ) - Real.pi / 2| ≤ 15 * (c.widen guardDigits).grain)
        ((c.widen guardDigits).neg k.halfPi) := by
  have positive := ample.positive
  have most := ample.most
  have roomy := ample.roomy
  have fine := roomy.fine_real
  have small := ample.least_small
  have least : 6 ≤ (c.widen guardDigits).precision := show 6 ≤ c.precision + 5 by omega
  have most : (c.widen guardDigits).precision ≤ 105 := show c.precision + 5 ≤ 105 by omega
  have suits : (c.widen guardDigits).Suits k := ⟨Constants.ofPrecision_allFinite _ k constants,
    (Constants.ofPrecision_reaches least most).yields k constants⟩
  have half := Constants.ofPrecision_halfPi least most k constants
  have circle := suits.pi_near
  have near : |(k.halfPi.value : ℝ) - Real.pi / 2| ≤ 10 * (c.widen guardDigits).grain := by
    have cast : |(k.halfPi.value : ℝ) - k.pi.value / 2| ≤ 5 * (c.widen guardDigits).grain := by exact_mod_cast half
    have scaled : |(k.pi.value : ℝ) / 2 - Real.pi / 2| ≤ 5 * (c.widen guardDigits).grain := by
      rw [← sub_div, abs_div, abs_of_pos (by norm_num : (0 : ℝ) < 2)]
      linarith
    linarith [abs_sub_le (k.halfPi.value : ℝ) (k.pi.value / 2) (Real.pi / 2)]
  refine ⟨near, ?_⟩
  have low := Real.pi_gt_three
  have high := Real.pi_le_four
  obtain ⟨above, below⟩ := abs_le.mp near
  have bounds : 1 ≤ k.halfPi.value ∧ k.halfPi.value ≤ 3 := by
    constructor
    · exact_mod_cast (show (1 : ℝ) ≤ k.halfPi.value by linarith)
    · exact_mod_cast (show (k.halfPi.value : ℝ) ≤ 3 by linarith)
  have size : |-k.halfPi.value| = k.halfPi.value := by rw [abs_neg, abs_of_pos (by linarith)]
  have spans : (c.widen guardDigits).Spans (-k.halfPi.value) := by
    refine roomy.spans (show 10 ^ c.least ≤ _ from ?_) ?_ <;> rw [size] <;> linarith
  apply ((neg_gives roomy.precise suits.finite.halfPi).settles_of_spans roomy.precise spans).mono
  intro z rounding
  refine ⟨rounding.isFinite, ?_⟩
  have moved := roomy.toWorking.near rounding 1 (by rw [size]; linarith)
  push_cast at moved
  have split : (-z.value : ℝ) - Real.pi / 2 = -(z.value - -k.halfPi.value) + (k.halfPi.value - Real.pi / 2) := by ring
  rw [split]
  refine (abs_add_le _ _).trans ?_
  rw [abs_neg]
  linarith

end Ample

end Context

end Reckoner.Decimal

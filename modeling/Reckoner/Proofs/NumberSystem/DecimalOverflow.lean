import Reckoner.Proofs.Decimal.Hyperbolic
import Reckoner.Proofs.NumberSystem.DecimalTrigonometry

/-! Cosines, inverse tangents and hyperbolic tangents of decimals report no overflow, for arguments whose squares,
cubes, reciprocals' cubes and doubles are in the range, though not for all arguments. -/

namespace Reckoner.Decimal.Context.Ample

variable {c : Context} (ample : c.Ample)
include ample

theorem guarded_concludes {granted : Failure → Prop} {suits : Constants → Prop}
    {compute : Context → Constants → Computed Decimal}
    (constants : Settles suits (Constants.ofPrecision (c.widen guardDigits).precision))
    (works : ∀ k, suits k → Concludes granted (fun z => z.isFinite = true ∧ (c.widen guardDigits).Spans z.value)
      (compute (c.widen guardDigits) k)) :
    Concludes granted (·.isFinite = true) (c.guarded compute) := by
  apply Context.guarded_concludes constants works
  rintro _ ⟨sound, spans⟩
  exact lift_settles (ample.plus_settles sound spans)

theorem constants_settles :
    Settles (fun k : Constants => k.Halved ∧ (c.widen guardDigits).Suits k ∧ k.Natural (c.widen guardDigits).precision)
      (Constants.ofPrecision (c.widen guardDigits).precision) := by
  have positive := ample.positive
  have most := ample.most
  have least : 6 ≤ (c.widen guardDigits).precision := show 6 ≤ c.precision + 5 by omega
  have most : (c.widen guardDigits).precision ≤ 105 := show c.precision + 5 ≤ 105 by omega
  have circular := (Constants.ofPrecision_reaches least most).yields
  have natural := (Constants.ofPrecision_natural least most).yields
  exact (Constants.ofPrecision_settles least most).and fun k given =>
    ⟨⟨Constants.ofPrecision_allFinite _ k given, circular k given⟩, natural k given⟩

variable {x : Decimal} (admitted : c.Admits x)
include admitted

theorem cos_concludes (counts : x.value = 0 ∨ 10 ^ (c.least + 4) ≤ x.value ^ 2) :
    Concludes (· = .signal .invalid) (·.isFinite = true) (c.cos true x) := by
  apply ample.guarded_concludes ample.constants_settles
  rintro _ ⟨_, suits, _⟩
  exact lift_concludes (ample.cosWork_concludes suits admitted counts) fun _ invalid => by rw [invalid]

theorem atan_settles (counts : x.value = 0 ∨ |x.value| ≤ 1 ∧ 4 * 10 ^ c.least ≤ |x.value| ^ 3 ∨
    1 < |x.value| ∧ 4 * |x.value| ^ 3 ≤ 10 ^ (-c.least)) : Settles (·.isFinite = true) (c.atan true x) := by
  apply ample.guarded_concludes ample.constants_settles
  rintro _ ⟨halved, suits, _⟩
  apply (lift_settles (ample.atanWork_settles suits halved admitted counts)).andThen
  rintro _ ⟨sound, counts, small⟩
  exact lift_settles ((ample.degrees_settles suits sound counts small).mono fun _ ⟨sound, spans, _⟩ => ⟨sound, spans⟩)

theorem tanh_settles (refuses : c.refusesSubnormal = true) (small : 2 * |x.value| < 10 ^ (c.greatest + 1)) :
    Settles (·.isFinite = true) (c.tanh x) := by
  apply ample.guarded_concludes ample.constants_settles
  rintro _ ⟨_, suits, natural⟩
  exact ample.tanhWork_settles natural suits.finite refuses admitted small

end Reckoner.Decimal.Context.Ample

namespace Reckoner.NumberSystem.Decimals

open Reckoner.Decimal

theorem ample_of_context? {precision range : Int} {c : Decimal.Context} (given : context? precision range = some c)
    (wide : 4 * precision + 30 ≤ range) : c.Ample := by
  obtain ⟨positive, most, _, _⟩ := Context.guarded_of_context? given (by
    have positive := (context?_eq_some given).1
    omega)
  obtain ⟨above, rfl⟩ := context?_eq_some given
  refine ⟨positive, most, ?_, rfl⟩
  show -range ≤ -(4 * (precision.toNat : Int) + 30)
  omega

/-- In a range of more than four times the digits, the cosine of an angle in degrees fails for invalid remainders only
if the square of the angle is not too small; the hyperbolic tangent is found if twice the number is in the range,
and the inverse tangent if the cube of the number or of its reciprocal is. -/
theorem bounded_without_overflow {precision range : Int} {c : Decimal.Context}
    (given : context? precision range = some c)
    (wide : 4 * precision + 30 ≤ range) {x : Decimal} (admitted : c.Admits x) :
    (x.value = 0 ∨ 10 ^ (4 - range) ≤ x.value ^ 2 →
        ∀ fault, computed (c.cos true x) = .error fault → fault = .report .invalidInput "Invalid decimal operation") ∧
      (2 * |x.value| < 10 ^ (range + 1) → ∃ v, computed (c.tanh x) = .ok v) ∧
      (x.value = 0 ∨ |x.value| ≤ 1 ∧ 4 * 10 ^ (-range) ≤ |x.value| ^ 3 ∨ 1 < |x.value| ∧
          4 * |x.value| ^ 3 ≤ 10 ^ range →
        ∃ v, computed (c.atan true x) = .ok v) := by
  have ample := ample_of_context? given wide
  obtain ⟨_, rfl⟩ := context?_eq_some given
  refine ⟨?_, ?_, ?_⟩
  · intro counts
    rw [show 4 - range = -range + 4 by ring] at counts
    exact ((ample.cos_concludes admitted counts).fails.mapError fun _ invalid => by rw [invalid]; rfl)
  · intro small
    obtain ⟨v, found, _⟩ := (ample.tanh_settles admitted rfl small).exists_eq
    exact ⟨v, by rw [found]; rfl⟩
  · intro counts
    rw [← neg_neg range] at counts
    obtain ⟨v, found, _⟩ := (ample.atan_settles admitted (by simpa only [neg_neg] using counts)).exists_eq
    exact ⟨v, by rw [found]; rfl⟩

/-- At six digits the cosine of half a degree, and the hyperbolic and inverse tangents of one half. -/
theorem bounded_without_overflow_sample : context? 6 defaultRange = some ⟨6, -999999, 999999, true⟩ ∧
    Decimal.Context.Admits ⟨6, -999999, 999999, true⟩ (.finite false 5 (-1)) ∧
    (∀ fault, computed (Decimal.Context.cos ⟨6, -999999, 999999, true⟩ true (.finite false 5 (-1))) = .error fault →
      fault = .report .invalidInput "Invalid decimal operation") ∧
    (∃ v, computed (Decimal.Context.tanh ⟨6, -999999, 999999, true⟩ (.finite false 5 (-1))) = .ok v) ∧
    ∃ v, computed (Decimal.Context.atan ⟨6, -999999, 999999, true⟩ true (.finite false 5 (-1))) = .ok v := by
  have given : context? 6 defaultRange = some ⟨6, -999999, 999999, true⟩ := rfl
  have admitted : Decimal.Context.Admits ⟨6, -999999, 999999, true⟩ (.finite false 5 (-1)) :=
    ⟨by with_unfolding_all decide, .inr ⟨by with_unfolding_all decide, by with_unfolding_all decide⟩⟩
  have half : (Decimal.finite false 5 (-1)).value = 1 / 2 := by
    rw [Context.value_finite]
    norm_num [Context.signed]
  have tiny {k : ℤ} (low : k ≤ -2) : (10 : ℚ) ^ k ≤ 1 / 100 :=
    (zpow_le_zpow_right₀ (by norm_num) low).trans_eq (by norm_num)
  have large : (10 : ℚ) ^ (1 : ℤ) ≤ 10 ^ (defaultRange + 1) := zpow_le_zpow_right₀ (by norm_num) (by decide)
  have known := bounded_without_overflow given (by decide) admitted
  rw [half, abs_of_pos (by norm_num)] at known
  refine ⟨given, admitted, known.1 (.inr ?_), known.2.1 ?_, known.2.2 (.inr (.inl ⟨by norm_num, ?_⟩))⟩
  · linarith [tiny (show 4 - defaultRange ≤ -2 by decide)]
  · rw [zpow_one] at large
    linarith
  · linarith [tiny (show -defaultRange ≤ -2 by decide)]

theorem cos_degrees_mem {x : ℝ} (small : |x| ≤ 1) : Real.cos (x * Real.pi / 180) ∈ Set.Icc (1 / 2) 1 := by
  have angle : |x * Real.pi / 180| ≤ 1 := by
    rw [abs_div, abs_mul, abs_of_pos Real.pi_pos, abs_of_pos (by norm_num : (0 : ℝ) < 180), div_le_one (by norm_num)]
    nlinarith [Real.pi_le_four, Real.pi_pos]
  have square : (x * Real.pi / 180) ^ 2 ≤ 1 := by
    rw [← sq_abs]
    exact pow_le_one₀ (abs_nonneg _) angle
  exact ⟨by linarith [Real.one_sub_sq_div_two_le_cos (x := x * Real.pi / 180)], Real.cos_le_one _⟩

theorem tanh_mem {x : ℝ} (large : 1 ≤ x) : Real.tanh x ∈ Set.Icc (1 / 2) 1 := by
  have above : 2 ≤ Real.exp x := by linarith [Real.add_one_le_exp x]
  have below : Real.exp (-x) ≤ 1 / 2 := by
    rw [Real.exp_neg, one_div]
    exact inv_anti₀ (by norm_num) above
  have positive := Real.exp_pos (-x)
  rw [Real.tanh_eq_sinh_div_cosh, Real.sinh_eq, Real.cosh_eq]
  constructor
  · rw [le_div_iff₀ (by linarith)]
    linarith
  · rw [div_le_one (by linarith)]
    linarith

theorem arctan_degrees_mem {x : ℝ} (large : 1 ≤ x) : Real.arctan x * 180 / Real.pi ∈ Set.Icc 45 90 := by
  have least := Real.arctan_mono large
  have most := Real.arctan_lt_pi_div_two x
  rw [Real.arctan_one] at least
  constructor
  · rw [le_div_iff₀ Real.pi_pos]
    linarith
  · rw [div_le_iff₀ Real.pi_pos]
    linarith

/-- At 28 digits an overflow is reported for the cosine of `1E-600000` degrees, whose square is not in the range, for
the hyperbolic tangent of `9E+999999`, whose double is not, and for its inverse tangent, as the reciprocal is not.
All three of them are numbers of plain size. -/
theorem overflow_of_bounded : context? 28 defaultRange = some ⟨28, -999999, 999999, true⟩ ∧
    Decimal.Context.Admits ⟨28, -999999, 999999, true⟩ (.finite false 1 (-600000)) ∧
    Decimal.Context.Admits ⟨28, -999999, 999999, true⟩ (.finite false 9 999999) ∧
    computed (Decimal.Context.cos ⟨28, -999999, 999999, true⟩ true (.finite false 1 (-600000))) =
      .error (overflow name "result magnitude") ∧
    computed (Decimal.Context.tanh ⟨28, -999999, 999999, true⟩ (.finite false 9 999999)) =
      .error (overflow name "result") ∧
    computed (Decimal.Context.atan ⟨28, -999999, 999999, true⟩ true (.finite false 9 999999)) =
      .error (overflow name "result magnitude") ∧
    Real.cos ((Decimal.finite false 1 (-600000)).value * Real.pi / 180) ∈ Set.Icc (1 / 2) 1 ∧
    Real.tanh (Decimal.finite false 9 999999).value ∈ Set.Icc (1 / 2) 1 ∧
    Real.arctan (Decimal.finite false 9 999999).value * 180 / Real.pi ∈ Set.Icc 45 90 := by
  have tiny : |((Decimal.finite false 1 (-600000)).value : ℝ)| ≤ 1 := by
    have small : |(Decimal.finite false 1 (-600000)).value| ≤ 1 := by
      rw [Context.value_finite, abs_mul, abs_of_pos (pow_ten_pos _), Context.abs_signed, Nat.cast_one, one_mul]
      exact zpow_le_one_of_nonpos₀ (by norm_num) (by decide)
    exact_mod_cast small
  have huge : (1 : ℝ) ≤ (Decimal.finite false 9 999999).value := by
    have large : 1 ≤ (Decimal.finite false 9 999999).value := by
      have power : (1 : ℚ) ≤ 10 ^ (999999 : ℤ) := one_le_zpow₀ (by norm_num) (by decide)
      rw [Context.value_finite, show Context.signed false 9 = 9 from rfl, Int.cast_ofNat]
      exact one_le_mul_of_one_le_of_one_le (by norm_num) power
    exact_mod_cast large
  refine ⟨rfl, ⟨?_, .inr ⟨?_, ?_⟩⟩, ⟨?_, .inr ⟨?_, ?_⟩⟩, ?_, ?_, ?_, cos_degrees_mem tiny, tanh_mem huge,
    arctan_degrees_mem huge⟩
  all_goals with_unfolding_all decide

end Reckoner.NumberSystem.Decimals

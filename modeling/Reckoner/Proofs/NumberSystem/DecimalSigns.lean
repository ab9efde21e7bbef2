import Reckoner.Proofs.Decimal.Representation
import Reckoner.Proofs.Decimal.Signs
import Reckoner.Proofs.NumberSystem.DecimalOverflow

/-! The hyperbolic functions of decimals and their inverses keep the sign of an argument that is not too small: the
guard digits hold it apart from zero beside the one that the exponential function and the logarithm start from. -/

namespace Reckoner.Decimal.Context

variable {c : Context}

namespace Ample

variable (ample : c.Ample) (refuses : c.refusesSubnormal = true)
include ample refuses

/-- The sign that the work is found with stays when the guard digits are given up. -/
theorem keeps_sign {compute : Context → Constants → Computed Decimal} {s : ℚ}
    (works : ∀ k, k.Natural (c.widen guardDigits).precision → k.AllFinite →
      Yields (fun z => z.isFinite = true ∧ 0 < z.value * s) (compute (c.widen guardDigits) k)) :
    Yields (fun v => 0 < v.value * s) (c.guarded compute) := by
  refine (lift_yields ample.constants_settles.yields).andThen ?_
  rintro k ⟨_, suits, natural⟩
  refine (works k natural suits.finite).andThen ?_
  rintro z ⟨sound, side⟩
  refine lift_yields ?_
  intro v found
  exact ((plus_reaches ample.positive sound).yields v found).alike ample.positive refuses side

variable {x : Decimal} (given : x.isFinite = true) (counts : 10 ^ (-(c.precision + 1 : ℤ)) ≤ |x.value|)
include given counts

omit ample refuses given in
theorem counts_widen : 9000 * (c.widen guardDigits).grain ≤ |x.value| := by
  refine le_trans ?_ counts
  have tiny := (c.widen guardDigits).grain_pos
  have unit : (10 : ℚ) ^ (-(c.precision + 1 : ℤ)) = 10 ^ 4 * (c.widen guardDigits).grain := by
    rw [show -(c.precision + 1 : ℤ) = -1 - c.precision by ring, pow_sub_precision, grain_widen, guardDigits]
    norm_num
    ring
  rw [unit]
  linarith

theorem tanh_sign : Yields (fun v => 0 < v.value * x.value) (c.tanh x) := by
  refine ample.keeps_sign refuses ?_
  intro _ natural finite
  exact tanhWork_sign ample.roomy.toWorking refuses natural finite given (counts_widen counts)

theorem asinh_sign : Yields (fun v => 0 < v.value * x.value) (c.asinh x) := by
  refine ample.keeps_sign refuses ?_
  intro _ natural finite
  exact asinhWork_sign ample.roomy.toWorking refuses natural finite given (counts_widen counts)

theorem atanh_sign : Yields (fun v => 0 < v.value * x.value) (c.atanh x) := by
  refine ample.keeps_sign refuses ?_
  intro _ natural finite
  exact atanhWork_sign ample.roomy.toWorking refuses natural finite given (counts_widen counts)

/-- With guard digits for an argument of this size the exponential function is on its side of one. -/
theorem sinh_sign_of_fits (fits : |x.value| + 1 ≤ 69 / 100 * 10 ^ (c.widen guardDigits).precision) :
    Yields (fun v => 0 < v.value * x.value) (c.sinh x) := by
  refine ample.keeps_sign refuses ?_
  intro _ natural finite
  exact sinhWork_sign ample.roomy.toWorking refuses natural finite given (counts_widen counts) fits

omit counts in
theorem sinh_moderate (least : -999999 ≤ c.least) (greatest : c.greatest ≤ 999999) :
    Yields (fun _ => |x.value| ≤ 2400000) (c.sinh x) := by
  have deep := ample.deep
  have even := ample.even
  refine (lift_yields ample.constants_settles.yields).andThen ?_
  rintro k ⟨_, suits, natural⟩
  refine .bind ?_
  intro z worked
  obtain ⟨e, raised, -⟩ := bind_eq_ok.mp worked
  intro _ _
  exact expWork_moderate ample.roomy.toWorking refuses natural suits.finite given least greatest
    (show c.least ≤ 0 by omega) (show 0 ≤ c.greatest by omega) e raised

/-- With two digits the hyperbolic sine is found only for arguments that keep a digit behind the point. -/
theorem sinh_sign (long : 2 ≤ c.precision) (least : -999999 ≤ c.least) (greatest : c.greatest ≤ 999999) :
    Yields (fun v => 0 < v.value * x.value) (c.sinh x) := by
  intro v found
  have moderate := ample.sinh_moderate refuses given least greatest v found
  have size : (10 : ℚ) ^ 7 ≤ 10 ^ (c.widen guardDigits).precision :=
    pow_le_pow_right₀ (by norm_num) (show 7 ≤ c.precision + 5 by omega)
  exact ample.sinh_sign_of_fits refuses given counts (by linarith) v found

end Ample

/-! ### The hyperbolic sine of large arguments -/

theorem expWork_paired (precise : 0 < c.precision) {k : Constants} (finite : k.AllFinite) {x x' : Decimal}
    (same : SameNumber x x') : Paired SameNumber (c.expWork k x) (c.expWork k x') := by
  refine (div_paired precise same (.refl finite.lnTwo)).lift.andThen ?_
  intro q q' divided
  obtain ⟨whole, part⟩ := roundToWhole_halfEven divided.first
  obtain ⟨whole', part'⟩ := roundToWhole_halfEven divided.second
  rw [← divided.value_eq] at whole' part'
  dsimp only
  rw [part, part']
  have first := isFinite_roundToWhole .halfEven divided.first
  have second := isFinite_roundToWhole .halfEven divided.second
  have twos : SameNumber (q.roundToWhole .halfEven) (q'.roundToWhole .halfEven) :=
    ⟨first, second, whole.trans whole'.symm⟩
  refine (mul_paired precise twos (.refl finite.lnTwo)).lift.andThen ?_
  intro m m' multiplied
  refine (sub_paired precise same multiplied).lift.andThen ?_
  intro rest rest' subtracted
  refine (expSeries_paired precise subtracted).lift.andThen ?_
  intro sum sum' summed
  refine .bind ?_
  intro scale found
  have sound := lift_yields ((rounds_isFinite c).power rfl rfl fun zero => absurd zero (by decide)) scale found
  exact (mul_paired precise summed (.refl sound)).lift

theorem sinh_paired (precise : 0 < c.precision) {x x' : Decimal} (same : SameNumber x x') :
    Paired SameNumber (c.sinh x) (c.sinh x') := by
  refine .bind ?_
  intro k found
  have finite := lift_yields (Constants.ofPrecision_allFinite _) k found
  have widened : 0 < (c.widen guardDigits).precision := precise.trans_le (Nat.le_add_right _ _)
  refine Paired.andThen (?_ : Paired SameNumber _ _) fun z z' worked => (plus_paired precise worked).lift
  refine (expWork_paired widened finite same).andThen ?_
  intro e e' raised
  refine (div_paired widened (.refl rfl) raised).lift.andThen ?_
  intro inverse inverse' divided
  refine (sub_paired widened raised divided).lift.andThen ?_
  intro apart apart' subtracted
  exact (div_paired widened subtracted (.refl rfl)).lift

theorem alike_of_isNegative {v w : Decimal} (sound : v.isFinite = true) (given : w.isFinite = true)
    (some : v.isZero = false) (nonzero : w.isZero = false) (same : v.isNegative = w.isNegative) :
    0 < v.value * w.value := by
  obtain ⟨s, m, e, rfl⟩ := isFinite_iff.mp sound
  obtain ⟨t, n, f, rfl⟩ := isFinite_iff.mp given
  obtain rfl : s = t := same
  have positive : (0 : ℚ) < m := by simpa [isZero, Nat.pos_iff_ne_zero] using some
  have positive' : (0 : ℚ) < n := by simpa [isZero, Nat.pos_iff_ne_zero] using nonzero
  have first := mul_pos positive (pow_ten_pos e)
  have second := mul_pos positive' (pow_ten_pos f)
  rw [value_finite, value_finite, signed_eq, signed_eq]
  cases s
  · exact mul_pos first second
  · exact mul_pos_of_neg_of_neg (by simpa using first) (by simpa using second)

/-- The arguments of one digit that the hyperbolic sine is found for though they keep no digit behind the point. -/
theorem sinh_largest (negative : Bool) : ∀ large ∈ [(7, 5), (8, 5), (9, 5), (1, 6), (2, 6)],
    (sinh ⟨1, -999999, 999999, true⟩ (.finite negative large.1 large.2)).toOption.any (fun v =>
      v.isFinite && !v.isZero && v.isNegative == negative) = true := by
  revert negative
  with_unfolding_all decide

theorem largest_digit {n e : ℤ} (few : |n| < 10 ^ 1) (large : 600000 < |(n * 10 ^ e : ℚ)|)
    (moderate : |(n * 10 ^ e : ℚ)| ≤ 2400000) :
    (n.natAbs, e) ∈ [((7 : ℕ), (5 : ℤ)), (8, 5), (9, 5), (1, 6), (2, 6)] := by
  rw [abs_mul, abs_of_pos (pow_ten_pos e), ← Int.cast_abs, Int.abs_eq_natAbs] at large moderate
  rw [Int.abs_eq_natAbs] at few
  generalize n.natAbs = m at few large moderate ⊢
  have digit : m ≤ 9 := by omega
  have low : 5 ≤ e := by
    by_contra less
    have power : (10 : ℚ) ^ e ≤ 10 ^ (4 : ℤ) := zpow_le_zpow_right₀ (by norm_num) (by omega)
    have digit : ((m : ℤ) : ℚ) ≤ 9 := by exact_mod_cast digit
    nlinarith [pow_ten_pos e]
  have high : e ≤ 6 := by
    by_contra more
    have power : (10 : ℚ) ^ (7 : ℤ) ≤ 10 ^ e := zpow_le_zpow_right₀ (by norm_num) (by omega)
    have some : (1 : ℚ) ≤ ((m : ℤ) : ℚ) := by
      have nonzero : m ≠ 0 := by
        rintro rfl
        norm_num at large
      exact_mod_cast Nat.one_le_iff_ne_zero.mpr nonzero
    nlinarith
  obtain rfl | rfl : e = 5 ∨ e = 6 := by omega
  · norm_num at large
    have least : 600000 < m * 100000 := by exact_mod_cast large
    have least : 6 < m := by omega
    interval_cases m <;> decide
  · norm_num at large moderate
    have least : 600000 < m * 1000000 := by exact_mod_cast large
    have most : m * 1000000 ≤ 2400000 := by exact_mod_cast moderate
    have bounds : 0 < m ∧ m ≤ 2 := by omega
    obtain ⟨least, most⟩ := bounds
    interval_cases m <;> decide

theorem sinh_sign_large {x : Decimal} (given : x.isFinite = true) (short : Short 1 x.value)
    (large : 600000 < |x.value|) (moderate : |x.value| ≤ 2400000) :
    Yields (fun v => 0 < v.value * x.value) (sinh ⟨1, -999999, 999999, true⟩ x) := by
  obtain ⟨n, e, few, shape⟩ := short
  have member := largest_digit few (shape ▸ large) (shape ▸ moderate)
  have same : SameNumber x (.finite (decide (n < 0)) n.natAbs e) := ⟨given, rfl, by
    have number := value_ofInt n
    rw [ofInt, value_finite, zpow_zero, mul_one] at number
    rw [shape, value_finite, number]⟩
  have known := sinh_largest (decide (n < 0)) _ member
  intro v found
  cases other : sinh ⟨1, -999999, 999999, true⟩ (.finite (decide (n < 0)) n.natAbs e) with
  | error failure =>
    rw [other] at known
    cases known
  | ok w =>
    obtain ⟨_, sound, one⟩ := sinh_paired (by decide) same v w found other
    rw [other] at known
    simp only [Except.toOption, Option.any, Bool.and_eq_true, beq_iff_eq, Bool.not_eq_true'] at known
    obtain ⟨⟨-, nonzero⟩, sign⟩ := known
    have some : (Decimal.finite (decide (n < 0)) n.natAbs e).isZero = false := by
      rw [← Bool.not_eq_true, isZero_iff rfl, ← same.value_eq]
      exact fun zero => absurd large (by norm_num [zero])
    rw [one, same.value_eq]
    exact alike_of_isNegative sound rfl nonzero some sign

end Reckoner.Decimal.Context

namespace Reckoner.NumberSystem.Decimals

open Reckoner.Decimal

/-- What the hyperbolic sine and tangent and their inverses are found as is not zero and has the sign of the argument,
if the argument has no more digits than the precision and is at least `10 ^ -(precision + 1)` in size. -/
theorem hyperbolic_signs {precision : Int} {c : Decimal.Context} (given : context? precision defaultRange = some c)
    {x : Decimal} (finite : x.isFinite = true) (short : Short c.precision x.value)
    (counts : 10 ^ (-(precision + 1)) ≤ |x.value|) :
    Yields (fun v => 0 < v.value * x.value) (c.sinh x) ∧ Yields (fun v => 0 < v.value * x.value) (c.tanh x) ∧
      Yields (fun v => 0 < v.value * x.value) (c.asinh x) ∧ Yields (fun v => 0 < v.value * x.value) (c.atanh x) := by
  have range : defaultRange = 999999 := rfl
  have most : precision ≤ 100 := by
    have guarded := Context.guarded_of_context? given (by decide)
    obtain ⟨_, rfl⟩ := context?_eq_some given
    have most : precision.toNat ≤ 100 := guarded.most
    omega
  have ample := ample_of_context? given (by omega)
  obtain ⟨positive, rfl⟩ := context?_eq_some given
  obtain ⟨digits, rfl⟩ := Int.eq_ofNat_of_zero_le positive.le
  refine ⟨?_, ample.tanh_sign rfl finite counts, ample.asinh_sign rfl finite counts,
    ample.atanh_sign rfl finite counts⟩
  intro v found
  have least : -999999 ≤ -defaultRange := by decide
  have greatest : defaultRange ≤ 999999 := by decide
  rcases Nat.lt_or_ge digits 2 with one | more
  · obtain rfl : digits = 1 := by omega
    rcases le_or_gt |x.value| 600000 with small | large
    · have fits : |x.value| + 1 ≤ 69 / 100 * 10 ^ 6 := by linarith
      exact ample.sinh_sign_of_fits rfl finite counts fits v found
    · exact Context.sinh_sign_large finite short large (ample.sinh_moderate rfl finite least greatest v found) v found
  · exact ample.sinh_sign rfl finite counts more least greatest v found

/-- At six digits the hyperbolic sine of minus one half and the inverse hyperbolic tangent of a number of seven
places. -/
theorem hyperbolic_signs_sample : context? 6 defaultRange = some ⟨6, -999999, 999999, true⟩ ∧
    Short 6 (Decimal.finite true 5 (-1)).value ∧ (10 : ℚ) ^ (-(6 + 1) : ℤ) ≤ |(Decimal.finite true 5 (-1)).value| ∧
    Yields (fun v => 0 < v.value * (Decimal.finite true 5 (-1)).value)
      (Decimal.Context.sinh ⟨6, -999999, 999999, true⟩ (.finite true 5 (-1))) ∧
    Yields (fun v => 0 < v.value * (Decimal.finite false 1 (-7)).value)
      (Decimal.Context.atanh ⟨6, -999999, 999999, true⟩ (.finite false 1 (-7))) := by
  have given : context? 6 defaultRange = some ⟨6, -999999, 999999, true⟩ := rfl
  have short : Short 6 (Decimal.finite true 5 (-1)).value := ⟨-5, -1, by decide, Context.value_finite _ _ _⟩
  have counts : (10 : ℚ) ^ (-(6 + 1) : ℤ) ≤ |(Decimal.finite true 5 (-1)).value| := by
    norm_num [Context.value_finite, Context.signed]
  have least : (10 : ℚ) ^ (-(6 + 1) : ℤ) ≤ |(Decimal.finite false 1 (-7)).value| := by
    norm_num [Context.value_finite, Context.signed]
  exact ⟨given, short, counts, (hyperbolic_signs given rfl short counts).1,
    (hyperbolic_signs given rfl ⟨1, -7, by decide, Context.value_finite _ _ _⟩ least).2.2.2⟩

/-- At 28 digits the inverse hyperbolic tangent of `-1E-33` comes out as `5E-33`, above zero: the logarithm of a number
just below one is found as a difference of larger ones. The hyperbolic sine of `1E-40` comes out as zero. -/
theorem signs_of_tiny : context? 28 defaultRange = some ⟨28, -999999, 999999, true⟩ ∧
    Decimal.Context.atanh ⟨28, -999999, 999999, true⟩ (.finite true 1 (-33)) = .ok (.finite false 5 (-33)) ∧
    Decimal.Context.sinh ⟨28, -999999, 999999, true⟩ (.finite false 1 (-40)) = .ok (.finite false 0 (-32)) ∧
    ¬ Yields (fun v => 0 < v.value * (Decimal.finite true 1 (-33)).value)
      (Decimal.Context.atanh ⟨28, -999999, 999999, true⟩ (.finite true 1 (-33))) ∧
    ¬ Yields (fun v => 0 < v.value * (Decimal.finite false 1 (-40)).value)
      (Decimal.Context.sinh ⟨28, -999999, 999999, true⟩ (.finite false 1 (-40))) := by
  have turned : Decimal.Context.atanh ⟨28, -999999, 999999, true⟩ (.finite true 1 (-33)) =
    .ok (.finite false 5 (-33)) :=
    eq_ok_of_toOption (by with_unfolding_all decide)
  have lost : Decimal.Context.sinh ⟨28, -999999, 999999, true⟩ (.finite false 1 (-40)) = .ok (.finite false 0 (-32)) :=
    eq_ok_of_toOption (by with_unfolding_all decide)
  refine ⟨rfl, turned, lost, ?_, ?_⟩
  · intro keeps
    have side := keeps _ turned
    norm_num [Context.value_finite, Context.signed] at side
  · intro keeps
    have side := keeps _ lost
    norm_num [Context.value_finite, Context.signed] at side

end Reckoner.NumberSystem.Decimals

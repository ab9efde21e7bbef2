import Reckoner.Proofs.Decimal.Derivation

/-! Functions whose values are bounded, in a range of more than four times the digits. The cosine, the inverse
tangent and the hyperbolic tangent come out for arguments that are not so small or large that their squares, cubes or
reciprocals leave the range; only a remainder can be invalid. -/

namespace Reckoner.Decimal.Context

theorem rem_valid {c : Context} (precise : 0 < c.precision) {x y : Decimal} (first : x.isFinite = true)
    (second : y.isFinite = true) (fits : c.Fits (remainder x.value y.value)) :
    Concludes (· = .invalid) (c.IsRounding (remainder x.value y.value)) (c.rem x y) := by
  obtain ⟨r, rounded⟩ := fits
  refine rem_concludes precise first second rfl ?_
  intro signal failed
  rw [rounded] at failed
  cases failed

theorem le_abs_of_le_sq {a q : ℚ} (small : a ≤ 1) (square : a ≤ q ^ 2) : a ≤ |q| := by
  rcases le_total |q| 1 with less | more
  · exact square.trans ((sq_abs q).symm.trans_le (pow_le_of_le_one (abs_nonneg q) less (by norm_num)))
  · exact small.trans more

/-- Whether a context has the digits that constants are computed for, and a range of more than four times as many. -/
structure Ample (c : Context) : Prop where
  positive : 0 < c.precision
  most : c.precision ≤ 100
  deep : c.least ≤ -(4 * c.precision + 30)
  even : c.least = -c.greatest

/-- Whether a decimal is between zero and one and its cube is in the range. -/
structure Fraction (c : Context) (z : Decimal) : Prop where
  isFinite : z.isFinite = true
  positive : 0 < z.value
  most : z.value ≤ 1
  cube : 7 / 2 * 10 ^ c.least ≤ z.value ^ 3

/-- Whether a decimal is a positive angle below the right one, with room above the least number. -/
structure Acute (c : Context) (z : Decimal) : Prop where
  isFinite : z.isFinite = true
  least : 5 / 2 * 10 ^ c.least ≤ z.value
  most : z.value ≤ 19 / 10

namespace Ample

variable {c : Context} (ample : c.Ample)
include ample

theorem roomy : (c.widen guardDigits).Roomy := by
  obtain ⟨positive, most, deep, even⟩ := ample
  refine ⟨⟨?_, ?_, ?_⟩, ?_, ?_⟩
  · show 6 ≤ c.precision + 5
    omega
  · show c.precision + 5 ≤ 110
    omega
  · show c.least < 0
    omega
  · show c.least ≤ -(3 * (c.precision + 5 : Nat) + 5)
    omega
  · show ((c.precision + 5 : Nat) : Int) + 5 ≤ c.greatest
    omega

theorem least_le : (10 : ℚ) ^ c.least ≤ c.grain ^ 4 / 10 ^ 30 := by
  have power : c.grain ^ 4 / 10 ^ 30 = 10 ^ (-(4 * (c.precision : ℤ) + 30)) := by
    rw [grain, ← zpow_natCast, ← zpow_mul, ← zpow_natCast, ← zpow_sub₀ (by norm_num)]
    congr 1
    push_cast
    ring
  rw [power]
  exact zpow_le_zpow_right₀ (by norm_num) ample.deep

theorem grain_le : c.grain ≤ 1 / 10 :=
  (grain_le_of_le ample.positive).trans_eq (by norm_num)

theorem least_small : (10 : ℚ) ^ c.least ≤ 1 / 10 ^ 30 := by
  have power : c.grain ^ 4 ≤ 1 := pow_le_one₀ c.grain_pos.le (by linarith [ample.grain_le])
  linarith [ample.least_le]

theorem plus_settles {z : Decimal} (sound : z.isFinite = true) (spans : (c.widen guardDigits).Spans z.value) :
    Settles (·.isFinite = true) (c.plus z) := by
  apply ((plus_gives ample.positive sound).settles_of_spans ample.positive spans).mono
  intro _ rounding
  exact rounding.isFinite

/-! ### Angles in degrees -/

section
variable {x : Decimal} (admitted : c.Admits x)
include admitted

/-- A quarter turn less than an angle is found, and its digits end not far behind the point. -/
theorem quarterLess_settles :
    Settles (fun z => z.isFinite = true ∧ MultipleOf (-(c.precision + 3 : ℤ)) z.value)
      ((c.widen guardDigits).sub x (ofInt 90)) := by
  have precise := ample.roomy.precise
  have positive := ample.positive
  have deep := ample.deep
  have even := ample.even
  have gives := sub_gives precise admitted.isFinite (y := ofInt 90) rfl
  rw [value_ofInt, Int.cast_ofNat] at gives
  rcases lt_or_ge |x.value - 90| 10 with near | far
  · have large : (10 : ℚ) ^ (1 : ℤ) ≤ |x.value| := by
      have bounds := abs_lt.mp near
      rw [zpow_one, abs_of_pos (by linarith)]
      linarith
    have multiple : MultipleOf (2 - (c.precision : ℤ)) (x.value - 90) :=
      ((admitted.multipleOf large).mono (by omega)).sub ((show MultipleOf 1 90 from ⟨9, by norm_num⟩).mono (by omega))
    have spans : (c.widen guardDigits).Spans (x.value - 90) :=
      spans_of_multipleOf multiple (show c.least ≤ _ by omega) (show (1 : ℤ) ≤ c.greatest by omega)
        (by rw [zpow_one]; exact near.le)
    apply (gives.settles_of_spans precise spans).mono
    intro z rounding
    exact ⟨rounding.isFinite, (rounding.multipleOf multiple).mono (by omega)⟩
  · have normal : (c.widen guardDigits).Normal (x.value - 90) := by
      refine .inr (le_trans ?_ far)
      exact (zpow_le_zpow_right₀ (by norm_num) (show c.least ≤ 1 by omega)).trans_eq (zpow_one _)
    have fits : (c.widen guardDigits).Fits (x.value - 90) := by
      refine normal.fits_of_le precise ?_
      have below := admitted.abs_le positive
      have room : (10 : ℚ) ^ (2 : ℤ) ≤ 10 ^ (c.greatest + 1 - c.precision) :=
        zpow_le_zpow_right₀ (by norm_num) (by omega)
      have fine : (10 : ℚ) ^ (c.greatest + 1 - (c.widen guardDigits).precision) =
          10 ^ (c.greatest + 1 - c.precision) / 10 ^ 5 := by
        rw [show (c.widen guardDigits).precision = c.precision + 5 from rfl, Nat.cast_add, ← sub_sub,
          zpow_sub₀ (by norm_num) _ ((5 : Nat) : ℤ), zpow_natCast]
      show _ ≤ (10 : ℚ) ^ (c.greatest + 1) - 10 ^ (c.greatest + 1 - (c.widen guardDigits).precision)
      have apart := abs_sub x.value 90
      rw [abs_of_pos (by norm_num : (0 : ℚ) < 90)] at apart
      rw [fine]
      norm_num at room
      linarith
    apply (gives.settles fits).mono
    intro z rounding
    refine ⟨rounding.isFinite, ?_⟩
    refine (normal.multipleOf rounding (k := 1) (by rwa [zpow_one])).mono ?_
    show _ ≤ 1 - (((c.precision + 5 : Nat) : ℤ) - 1)
    omega

omit admitted in
/-- A test whether an angle is a multiple of 180 degrees comes out, or its remainder is invalid. -/
theorem halfTurn_concludes {z : Decimal} (sound : z.isFinite = true)
    (multiple : MultipleOf (-(c.precision + 3 : ℤ)) z.value) :
    Concludes (· = .invalid) (·.isFinite = true) ((c.widen guardDigits).rem z (ofInt 180)) := by
  have precise := ample.roomy.precise
  have deep := ample.deep
  have even := ample.even
  have half : MultipleOf (-(c.precision + 3 : ℤ)) (ofInt 180).value := by
    rw [value_ofInt]
    exact .ofInt _ (by omega)
  have rest := abs_remainder_lt (d := (ofInt 180).value) (by rw [value_ofInt]; norm_num) z.value
  rw [value_ofInt, Int.cast_ofNat, abs_of_pos (by norm_num : (0 : ℚ) < 180)] at rest
  have spans : (c.widen guardDigits).Spans (remainder z.value (ofInt 180).value) := by
    refine spans_of_multipleOf (multiple.remainder half) (show c.least ≤ _ by omega)
      (show (3 : ℤ) ≤ c.greatest by omega) ?_
    rw [value_ofInt, Int.cast_ofNat]
    norm_num
    linarith
  apply (rem_valid precise sound rfl (spans.fits precise)).mono
  intro _ rounding
  exact rounding.isFinite

/-- Of an angle below a hundred all is left; otherwise what is left has no digits behind those of the angle. -/
theorem remainder_turn : remainder x.value 360 = x.value ∧ |x.value| < 100 ∨
    MultipleOf (2 - (c.precision : ℤ)) (remainder x.value 360) := by
  have positive := ample.positive
  rcases lt_or_ge |x.value| 100 with small | large
  · refine .inl ⟨remainder_eq_self ?_, small⟩
    rw [abs_of_pos (by norm_num : (0 : ℚ) < 360)]
    linarith
  · have multiple := admitted.multipleOf (k := 2) (by norm_num; exact large)
    have whole : MultipleOf (2 - (c.precision : ℤ)) 360 :=
      (show MultipleOf 1 360 from ⟨36, by norm_num⟩).mono (by omega)
    exact .inr ((multiple.mono (by omega)).remainder whole)

theorem remainder_turn_le : |remainder x.value 360| + 100 * c.grain ≤ 360 := by
  have positive := ample.positive
  have fine := ample.grain_le
  rcases ample.remainder_turn admitted with ⟨same, small⟩ | multiple
  · rw [same]
    linarith
  · have less := abs_remainder_lt (d := 360) (by norm_num) x.value
    rw [abs_of_pos (by norm_num : (0 : ℚ) < 360)] at less
    have whole : MultipleOf (2 - (c.precision : ℤ)) 360 :=
      (show MultipleOf 1 360 from ⟨36, by norm_num⟩).mono (by omega)
    have unit := (whole.sub multiple.abs).le_abs (sub_pos.mpr less).ne'
    rw [pow_sub_precision, abs_of_pos (sub_pos.mpr less)] at unit
    norm_num at unit
    linarith

theorem remainder_turn_counts (counts : x.value = 0 ∨ 10 ^ (c.least + 4) ≤ x.value ^ 2) :
    remainder x.value 360 = 0 ∨ 10 ^ (c.least + 4) ≤ remainder x.value 360 ^ 2 := by
  rcases ample.remainder_turn admitted with ⟨same, _⟩ | multiple
  · rwa [same]
  · apply or_iff_not_imp_left.mpr
    intro other
    have unit := multiple.le_abs other
    rw [pow_sub_precision] at unit
    have tiny := c.grain_pos
    have square := pow_le_pow_left₀ (by positivity) unit 2
    rw [sq_abs, mul_pow] at square
    norm_num at square
    have fourth : c.grain ^ 4 ≤ c.grain ^ 2 :=
      pow_le_pow_of_le_one tiny.le (by linarith [ample.grain_le]) (by norm_num)
    rw [zpow_add₀ (by norm_num), zpow_ofNat]
    linarith [ample.least_le, sq_nonneg c.grain]

theorem short_remainder_turn : Short (c.widen guardDigits).precision (remainder x.value 360) := by
  have tiny := c.grain_pos
  rcases ample.remainder_turn admitted with ⟨same, _⟩ | ⟨n, same⟩
  · rw [same]
    exact admitted.short.mono (Nat.le_add_right _ _)
  · refine ⟨n, _, ?_, same⟩
    have less := abs_remainder_lt (d := 360) (by norm_num) x.value
    rw [same, abs_mul, abs_of_pos (pow_ten_pos _), pow_sub_precision, abs_of_pos (by norm_num : (0 : ℚ) < 360)] at less
    have power : (10 : ℚ) ^ c.precision * c.grain = 1 := by
      rw [grain, zpow_neg, zpow_natCast, mul_inv_cancel₀ (by positivity)]
    have few : |(n : ℚ)| < 10 ^ (c.precision + 5) := by
      refine lt_of_mul_lt_mul_right ?_ tiny.le
      rw [pow_add, mul_right_comm, power]
      norm_num at less
      linarith
    exact_mod_cast few

theorem spans_remainder_turn : (c.widen guardDigits).Spans (remainder x.value 360) := by
  have positive := ample.positive
  have deep := ample.deep
  have even := ample.even
  rcases ample.remainder_turn admitted with ⟨same, small⟩ | multiple
  · rw [same]
    refine ⟨admitted.bounds.1, small.le.trans ?_⟩
    exact le_trans (by norm_num) (zpow_le_zpow_right₀ (by norm_num) (show 2 ≤ c.greatest by omega))
  · have less := abs_remainder_lt (d := 360) (by norm_num) x.value
    rw [abs_of_pos (by norm_num : (0 : ℚ) < 360)] at less
    refine spans_of_multipleOf multiple (show c.least ≤ _ by omega) (show (3 : ℤ) ≤ c.greatest by omega) ?_
    norm_num
    linarith

/-- What is left of an angle below a full turn is exact, is not too near the full turn, and its square is not too
small. -/
theorem fullTurn_concludes (counts : x.value = 0 ∨ 10 ^ (c.least + 4) ≤ x.value ^ 2) :
    Concludes (· = .invalid) (fun z => z.isFinite = true ∧ |z.value| + 100 * c.grain ≤ 360 ∧
        (z.value = 0 ∨ 10 ^ (c.least + 4) ≤ z.value ^ 2))
      ((c.widen guardDigits).rem x (ofInt 360)) := by
  have precise := ample.roomy.precise
  have turn : (ofInt 360).value = 360 := by rw [value_ofInt, Int.cast_ofNat]
  have spans := ample.spans_remainder_turn admitted
  have divided := rem_valid precise admitted.isFinite (y := ofInt 360) rfl (by rw [turn]; exact spans.fits precise)
  rw [turn] at divided
  apply divided.mono
  intro z rounding
  refine ⟨rounding.isFinite, ?_⟩
  rw [spans.1.value_eq rounding (ample.short_remainder_turn admitted)]
  exact ⟨ample.remainder_turn_le admitted, ample.remainder_turn_counts admitted counts⟩

end

theorem least_le_abs {q : ℚ} (counts : 10 ^ (c.least + 4) ≤ q ^ 2) : 10 ^ 4 * 10 ^ c.least ≤ |q| := by
  rw [zpow_add₀ (by norm_num), zpow_ofNat, mul_comm] at counts
  exact le_abs_of_le_sq (by linarith [ample.least_small]) counts

section
variable {k : Constants} (suits : (c.widen guardDigits).Suits k)
include suits

theorem radians_found {y : Decimal} (given : y.isFinite = true) (less : |y.value| ≤ 360)
    (counts : y.value = 0 ∨ 10 ^ (c.least + 4) ≤ y.value ^ 2) :
    Settles (fun z => z.isFinite = true ∧ (z.value = 0 ∨ 3 * 10 ^ c.least ≤ z.value ^ 2))
      ((c.widen guardDigits).radians k y) := by
  have roomy := ample.roomy
  have precise := roomy.precise
  have guard := (c.widen guardDigits).grain_pos
  have fine := roomy.fine
  have floor := pow_ten_pos c.least
  obtain ⟨low, high⟩ := suits.pi_bounds roomy.toWorking
  have size : |y.value * k.pi.value| = |y.value| * k.pi.value := by
    rw [abs_mul, abs_of_pos (by linarith : 0 < k.pi.value)]
  have turns : |y.value| * k.pi.value ≤ 360 * (315 / 100) :=
    mul_le_mul less high (by linarith) (by norm_num)
  have products : (c.widen guardDigits).Spans (y.value * k.pi.value) := by
    rcases counts with zero | counts
    · rw [zero, zero_mul]
      exact Spans.zero _
    · have large := ample.least_le_abs counts
      refine roomy.spans ?_ ?_ <;> rw [size]
      · show 10 ^ c.least ≤ _
        nlinarith
      · linarith
  apply ((mul_gives precise given suits.finite.pi).settles_of_spans precise products).andThen
  intro turned multiplied
  have nonzero : (ofInt 180).value ≠ 0 := by
    rw [value_ofInt]
    norm_num
  have first := (products.1.within multiplied).abs.div_right 180
  have ratio : |turned.value| / 180 = |turned.value / (ofInt 180).value| := by
    rw [value_ofInt, abs_div, Int.cast_ofNat, abs_of_pos (by norm_num : (0 : ℚ) < 180)]
  rw [size, ratio] at first
  have degree : 174 / 10000 * |y.value| ≤ |y.value| * k.pi.value / 180 := by
    linarith [mul_le_mul_of_nonneg_left low (abs_nonneg y.value), abs_nonneg y.value]
  have quotients : (c.widen guardDigits).Spans (turned.value / (ofInt 180).value) := by
    refine roomy.spans_of_within first (by linarith) (counts.imp ?_ ?_) (by linarith)
    · intro zero
      rw [zero, abs_zero, zero_mul, zero_div]
    · intro counts
      show 101 / 100 * 10 ^ c.least ≤ _
      linarith [ample.least_le_abs counts]
  apply ((div_gives precise multiplied.isFinite rfl nonzero).settles_of_spans precise quotients).mono
  intro z divided
  refine ⟨divided.isFinite, ?_⟩
  have square : (c.widen guardDigits).grain * (c.widen guardDigits).grain ≤ 1 / 10 ^ 6 * (c.widen guardDigits).grain :=
    mul_le_mul_of_nonneg_right fine guard.le
  have second := ((quotients.1.within divided).abs.trans first (by linarith)).mono
    (show _ ≤ 11 * (c.widen guardDigits).grain by linarith)
  refine counts.imp ?_ ?_
  · intro zero
    rw [zero, abs_zero, zero_mul, zero_div] at second
    exact abs_eq_zero.mp second.eq_zero
  · intro counts
    have bounds := second.bounds (by positivity)
    have least : 1739 / 100000 * |y.value| ≤ |z.value| := by
      refine le_trans ?_ bounds.1
      nlinarith [abs_nonneg y.value]
    have power := pow_le_pow_left₀ (by positivity) least 2
    rw [mul_pow, sq_abs, sq_abs] at power
    rw [zpow_add₀ (by norm_num), zpow_ofNat] at counts
    linarith

omit ample in
/-- What is near an angle that is not too near a full turn is below a full turn. -/
theorem below_twoPi {y z : Decimal} (less : |y.value| + 100 * c.grain ≤ 360)
    (close : |(z.value : ℝ) - y.value * Real.pi / 180| ≤ 60 * (c.widen guardDigits).grain) :
    |z.value| + c.grain ≤ k.twoPi.value := by
  have grain : (0 : ℝ) < c.grain := Rat.cast_pos.mpr c.grain_pos
  have circle := (abs_le.mp suits.twoPi_near).1
  have angle : |(y.value : ℝ) * Real.pi / 180| ≤ 2 * Real.pi - 17 / 10 * c.grain := by
    have cast := (Rat.cast_le (K := ℝ)).mpr less
    push_cast at cast
    rw [abs_div, abs_mul, abs_of_pos Real.pi_pos, abs_of_pos (by norm_num : (0 : ℝ) < 180), div_le_iff₀ (by norm_num)]
    nlinarith [Real.pi_gt_d2]
  have apart := abs_sub_abs_le_abs_sub (z.value : ℝ) (y.value * Real.pi / 180)
  refine (Rat.cast_le (K := ℝ)).mp ?_
  rw [grain_widen, guardDigits] at close circle
  push_cast at close circle ⊢
  linarith

theorem radians_settles {y : Decimal} (given : y.isFinite = true) (less : |y.value| + 100 * c.grain ≤ 360)
    (counts : y.value = 0 ∨ 10 ^ (c.least + 4) ≤ y.value ^ 2) :
    Settles (fun z => z.isFinite = true ∧ |z.value| ≤ 632 / 100 ∧ |z.value| + c.grain ≤ k.twoPi.value ∧
        (z.value = 0 ∨ 3 * 10 ^ c.least ≤ z.value ^ 2)) ((c.widen guardDigits).radians k y) := by
  have tiny := c.grain_pos
  have near := (suits.radians_reaches ample.roomy.toWorking given (by linarith)).yields
  apply ((ample.radians_found suits given (by linarith) counts).and near).mono
  rintro z ⟨⟨sound, apart⟩, _, below, close⟩
  exact ⟨sound, below, below_twoPi suits less close, apart⟩

omit suits in
/-- A number that is off by a small part has a square that is not too small either. -/
theorem square_le_of_within {q r : ℚ} (within : Within (5 * (c.widen guardDigits).grain) r q)
    (counts : q = 0 ∨ 3 * 10 ^ c.least ≤ q ^ 2) : r = 0 ∨ 5 / 2 * 10 ^ c.least ≤ r ^ 2 := by
  have fine := ample.roomy.fine
  refine counts.imp ?_ ?_
  · intro zero
    exact (zero ▸ within).eq_zero
  · intro counts
    have least := (within.abs.bounds (abs_nonneg q)).1
    have size : 99 / 100 * |q| ≤ |r| := by nlinarith [abs_nonneg q]
    have power := pow_le_pow_left₀ (by positivity) size 2
    rw [mul_pow, sq_abs, sq_abs] at power
    have floor := pow_ten_pos c.least
    linarith

omit suits in
theorem turned_settles {q : ℚ} {outcome : Except Signal Decimal} (gives : (c.widen guardDigits).Gives q outcome)
    (low : 99 / 100 * c.grain ≤ |q|) (high : |q| ≤ 7) :
    Settles (fun a => a.isFinite = true ∧ 5 / 2 * 10 ^ c.least ≤ a.value ^ 2) outcome := by
  have roomy := ample.roomy
  have tiny := c.grain_pos
  have fine := ample.grain_le
  have bottom := ample.least_le
  have fourth : c.grain ^ 4 ≤ c.grain ^ 2 := pow_le_pow_of_le_one tiny.le (by linarith) (by norm_num)
  have square : c.grain ^ 2 ≤ c.grain := pow_le_of_le_one tiny.le (by linarith) (by norm_num)
  have spans : (c.widen guardDigits).Spans q := roomy.spans (show 10 ^ c.least ≤ |q| by linarith) (by linarith)
  apply (gives.settles_of_spans roomy.precise spans).mono
  intro a rounding
  refine ⟨rounding.isFinite, ?_⟩
  have power := pow_le_pow_left₀ (by positivity) low 2
  rw [mul_pow, sq_abs] at power
  have counts := ample.square_le_of_within (spans.1.within rounding) (.inr (by linarith [sq_nonneg c.grain]))
  apply counts.resolve_left
  intro zero
  have least := ((spans.1.within rounding).abs.bounds (abs_nonneg q)).1
  rw [zero, abs_zero] at least
  nlinarith [roomy.fine]

theorem neg_pi_settles_below :
    Settles (fun z : Decimal => z.isFinite = true ∧ z.value ≤ -3) ((c.widen guardDigits).neg k.pi) := by
  have roomy := ample.roomy
  have fine := roomy.fine
  obtain ⟨low, high⟩ := suits.pi_bounds roomy.toWorking
  have spans : (c.widen guardDigits).Spans (-k.pi.value) := by
    refine roomy.spans_of_grain ?_ ?_ <;> rw [abs_neg, abs_of_pos (by linarith)] <;> linarith
  apply ((neg_gives roomy.precise suits.finite.pi).settles_of_spans roomy.precise spans).mono
  intro z negated
  refine ⟨negated.isFinite, ?_⟩
  have off := spans.1.within negated
  rw [Within, abs_neg, abs_of_pos (by linarith : 0 < k.pi.value)] at off
  have part : 5 * (c.widen guardDigits).grain * k.pi.value ≤ 5 * (1 / 10 ^ 6) * (315 / 100) := by gcongr
  linarith [(abs_le.mp off).2]

/-- What is left after a turn at most is found, and its square stays large enough. -/
theorem lastTurn_settles {z r : Decimal} (spans : (c.widen guardDigits).Spans z.value)
    (divided : (c.widen guardDigits).IsRounding z.value r) (less : |z.value| + c.grain ≤ k.twoPi.value)
    (counts : z.value = 0 ∨ 3 * 10 ^ c.least ≤ z.value ^ 2) :
    Settles (fun a : Decimal => a.isFinite = true ∧ (a.value = 0 ∨ 5 / 2 * 10 ^ c.least ≤ a.value ^ 2))
      (do
        if ← isLess k.pi r then (c.widen guardDigits).sub r k.twoPi
        else if ← isLess r (← (c.widen guardDigits).neg k.pi) then (c.widen guardDigits).add r k.twoPi
        else return r) := by
  have roomy := ample.roomy
  have precise := roomy.precise
  have tiny := c.grain_pos
  have fine := roomy.fine
  obtain ⟨low, high⟩ := suits.pi_bounds roomy.toWorking
  obtain ⟨least, most⟩ := suits.twoPi_bounds roomy.toWorking
  have drift := spans.1.within divided
  have moved : |r.value - z.value| ≤ 1 / 1000 * c.grain := by
    refine le_trans drift ?_
    rw [grain_widen, guardDigits]
    nlinarith
  obtain ⟨above, below⟩ := abs_le.mp moved
  obtain ⟨left, right⟩ := abs_le.mp (show |z.value| ≤ k.twoPi.value - c.grain by linarith)
  rw [isLess_eq suits.finite.pi divided.isFinite]
  refine .ite ?_ ?_
  · intro beyond
    have beyond : k.pi.value < r.value := of_decide_eq_true beyond
    have size : |r.value - k.twoPi.value| = k.twoPi.value - r.value := by
      rw [abs_of_neg (by linarith), neg_sub]
    apply (ample.turned_settles (sub_gives precise divided.isFinite suits.finite.twoPi)
      (by rw [size]; linarith) (by rw [size]; linarith)).mono
    intro a kept
    exact ⟨kept.1, .inr kept.2⟩
  intro _
  apply (ample.neg_pi_settles_below suits).andThen
  rintro opposite ⟨negated, side⟩
  rw [isLess_eq divided.isFinite negated]
  refine .ite ?_ ?_
  · intro beyond
    have beyond : r.value < opposite.value := of_decide_eq_true beyond
    have size : |r.value + k.twoPi.value| = k.twoPi.value + r.value := by
      rw [abs_of_pos (by linarith), add_comm]
    apply (ample.turned_settles (add_gives precise divided.isFinite suits.finite.twoPi)
      (by rw [size]; linarith) (by rw [size]; linarith)).mono
    intro a kept
    exact ⟨kept.1, .inr kept.2⟩
  · intro _
    exact .ok ⟨divided.isFinite, ample.square_le_of_within drift counts⟩

/-- An angle below a full turn is brought between `-π` and `π`, and its square stays large enough. -/
theorem reduceAngle_concludes {z : Decimal} (given : z.isFinite = true) (small : |z.value| ≤ 632 / 100)
    (less : |z.value| + c.grain ≤ k.twoPi.value) (counts : z.value = 0 ∨ 3 * 10 ^ c.least ≤ z.value ^ 2) :
    Concludes (· = .invalid) (fun a => a.isFinite = true ∧ |a.value| ≤ 16 / 5 ∧
        (a.value = 0 ∨ 5 / 2 * 10 ^ c.least ≤ a.value ^ 2))
      ((c.widen guardDigits).reduceAngle k z) := by
  have roomy := ample.roomy
  have precise := roomy.precise
  have tiny := c.grain_pos
  have floor := pow_ten_pos c.least
  obtain ⟨least, most⟩ := suits.twoPi_bounds roomy.toWorking
  have near := (suits.reduceAngle_reaches roomy.toWorking given small).yields
  have spans : (c.widen guardDigits).Spans z.value := by
    rcases counts with zero | counts
    · exact zero ▸ Spans.zero _
    · have large : 10 ^ c.least ≤ |z.value| := le_abs_of_le_sq (by linarith [ample.least_small]) (by linarith)
      exact roomy.spans large (by linarith)
  have kept : remainder z.value k.twoPi.value = z.value := by
    refine remainder_eq_self ?_
    rw [abs_of_pos (by linarith : 0 < k.twoPi.value)]
    linarith
  have rest := rem_valid precise given suits.finite.twoPi (by rw [kept]; exact spans.fits precise)
  rw [kept] at rest
  have found : Concludes (· = .invalid) (fun a => a.isFinite = true ∧
    (a.value = 0 ∨ 5 / 2 * 10 ^ c.least ≤ a.value ^ 2))
      ((c.widen guardDigits).reduceAngle k z) :=
    rest.andThen fun r divided => (ample.lastTurn_settles suits spans divided less counts).grant nofun
  apply (found.and near).mono
  rintro a ⟨⟨sound, apart⟩, _, below, _⟩
  exact ⟨sound, below, apart⟩

/-! ### The cosine -/

theorem cosWork_concludes {x : Decimal} (admitted : c.Admits x)
    (counts : x.value = 0 ∨ 10 ^ (c.least + 4) ≤ x.value ^ 2) :
    Concludes (· = .invalid) (fun z => z.isFinite = true ∧ (c.widen guardDigits).Spans z.value)
      ((c.widen guardDigits).cosWork k true x) := by
  have precise := ample.roomy.precise
  unfold cosWork
  rw [if_pos rfl]
  apply ((ample.quarterLess_settles admitted).grant nofun).andThen
  rintro shifted ⟨turned, multiple⟩
  apply (ample.halfTurn_concludes turned multiple).andThen
  intro rest sound
  rw [isEqual_eq sound rfl]
  refine .ite (fun _ => .ok ⟨rfl, ?_⟩) ?_
  · rw [value_zero]
    exact Spans.zero _
  intro _
  apply (ample.fullTurn_concludes admitted counts).andThen
  rintro angle ⟨sound, less, counts⟩
  apply ((ample.radians_settles suits sound less counts).grant nofun).andThen
  rintro z ⟨sound, small, less, counts⟩
  apply (ample.reduceAngle_concludes suits sound small less counts).andThen
  rintro a ⟨sound, small, counts⟩
  apply ((ample.roomy.cosSeries_settles sound small counts).grant nofun).andThen
  intro sum found
  exact .ok found

/-! ### The inverse tangent -/

omit suits in
theorem abs_settles {x : Decimal} (admitted : c.Admits x) :
    Settles (fun z => z.isFinite = true ∧ z.value = |x.value|) ((c.widen guardDigits).abs x) := by
  have precise := ample.roomy.precise
  have short : Short (c.widen guardDigits).precision |x.value| := admitted.short.abs.mono (Nat.le_add_right _ _)
  obtain ⟨normal, below⟩ := admitted.bounds
  have normal : (c.widen guardDigits).Normal |x.value| := by rwa [Normal, abs_eq_zero, abs_abs]
  have fits := normal.fits_of_short precise short (by rwa [abs_abs])
  apply ((abs_gives precise admitted.isFinite).settles fits).mono
  intro z rounding
  exact ⟨rounding.isFinite, normal.value_eq rounding short⟩

omit suits in
theorem reciprocal_settles {x : Decimal} (given : x.isFinite = true) (large : 1 < x.value)
    (small : 4 * x.value ^ 3 ≤ 10 ^ (-c.least)) : Settles c.Fraction ((c.widen guardDigits).div one x) := by
  have roomy := ample.roomy
  have precise := roomy.precise
  have fine := roomy.fine
  have tiny := (c.widen guardDigits).grain_pos
  have floor := pow_ten_pos c.least
  have positive : 0 < x.value := by linarith
  have cube : 4 * 10 ^ c.least ≤ (1 / x.value) ^ 3 := by
    rw [zpow_neg, ← one_div, le_div_iff₀ floor] at small
    rw [one_div, inv_pow, le_inv_comm₀ (by positivity) (by positivity), ← one_div, le_div_iff₀ (by positivity)]
    linarith
  have less : 1 / x.value ≤ 1 := by
    rw [div_le_one positive]
    exact large.le
  have above : 0 < 1 / x.value := by positivity
  have bottom : 4 * 10 ^ c.least ≤ 1 / x.value := cube.trans (pow_le_of_le_one above.le less (by norm_num))
  have gives := div_gives precise (x := one) rfl given positive.ne'
  rw [value_one] at gives
  have spans : (c.widen guardDigits).Spans (1 / x.value) := by
    refine roomy.spans (show 10 ^ c.least ≤ _ from ?_) ?_ <;> rw [abs_of_pos above] <;> linarith
  apply (gives.settles_of_spans precise spans).mono
  intro z rounding
  have bounds := (spans.1.within rounding).bounds above.le
  have unit := abs_round_le precise (k := 0) (q := 1 / x.value) ?_ (by rwa [zpow_zero, abs_of_pos above])
    rounding.rounded
  · rw [zpow_zero] at unit
    have least : 999 / 1000 * (1 / x.value) ≤ z.value := by nlinarith
    refine ⟨rounding.isFinite, by linarith, (le_abs_self _).trans unit, ?_⟩
    have power := pow_le_pow_left₀ (by positivity) least 3
    rw [mul_pow] at power
    linarith
  · have deep := roomy.deep
    rw [tiniest]
    omega

omit suits in
theorem neg_acute_settles {z : Decimal} (acute : c.Acute z) :
    Settles (fun r => r.isFinite = true ∧ (r.value = 0 ∨ 2 * 10 ^ c.least ≤ |r.value|) ∧ |r.value| ≤ 2)
      ((c.widen guardDigits).neg z) := by
  have roomy := ample.roomy
  have fine := roomy.fine
  have tiny := (c.widen guardDigits).grain_pos
  have floor := pow_ten_pos c.least
  have least := acute.least
  have most := acute.most
  have size : |-z.value| = z.value := by
    rw [abs_neg]
    exact abs_of_pos (by linarith)
  have spans : (c.widen guardDigits).Spans (-z.value) := by
    apply roomy.spans
    · show 10 ^ c.least ≤ _
      rw [size]
      linarith
    · rw [size]
      linarith
  apply ((neg_gives roomy.precise acute.isFinite).settles_of_spans roomy.precise spans).mono
  intro r negated
  have bounds := (spans.1.within negated).abs.bounds (abs_nonneg _)
  rw [size] at bounds
  refine ⟨negated.isFinite, .inr ?_, ?_⟩
  · nlinarith
  · nlinarith

theorem atanWork_settles (halved : k.Halved) {x : Decimal} (admitted : c.Admits x)
    (counts : x.value = 0 ∨ |x.value| ≤ 1 ∧ 4 * 10 ^ c.least ≤ |x.value| ^ 3 ∨
      1 < |x.value| ∧ 4 * |x.value| ^ 3 ≤ 10 ^ (-c.least)) :
    Settles (fun z => z.isFinite = true ∧ (z.value = 0 ∨ 2 * 10 ^ c.least ≤ |z.value|) ∧ |z.value| ≤ 2)
      ((c.widen guardDigits).atanWork k x) := by
  have roomy := ample.roomy
  have precise := roomy.precise
  have floor := pow_ten_pos c.least
  have bottom := ample.least_small
  obtain ⟨low, high⟩ := suits.pi_bounds roomy.toWorking
  obtain ⟨least, most⟩ := halved
  unfold atanWork
  rw [isEqual_eq admitted.isFinite rfl, value_zero]
  refine .ite (fun _ => .ok ⟨rfl, .inl value_zero, ?_⟩) ?_
  · rw [value_zero, abs_zero]
    norm_num
  intro other
  have nonzero : x.value ≠ 0 := by simpa using other
  have counts := counts.resolve_left nonzero
  rw [isLess_eq admitted.isFinite rfl, value_zero]
  apply (ample.abs_settles admitted).andThen
  rintro size ⟨measured, same⟩
  rw [← same] at counts
  have positive : 0 < size.value := same ▸ abs_pos.mpr nonzero
  rw [isLess_eq rfl measured, value_one]
  have reciprocal (large : decide (1 < size.value) = true) :
      Settles c.Fraction ((c.widen guardDigits).div one size) := by
    have large : 1 < size.value := of_decide_eq_true large
    have wide := counts.resolve_left fun small => not_lt.mpr small.1 large
    exact ample.reciprocal_settles measured large wide.2
  have itself (small : ¬ decide (1 < size.value) = true) : Settles c.Fraction (.ok size : Except Signal Decimal) := by
    have small : size.value ≤ 1 := by simpa using small
    have narrow := counts.resolve_right fun large => not_lt.mpr small large.1
    exact .ok ⟨measured, positive, small, by linarith⟩
  apply Concludes.iteThen reciprocal itself
  rintro y ⟨sound, above, below, cube⟩
  apply (roomy.atanReduced_settles sound above below cube).andThen
  rintro angle ⟨found, wide, narrow⟩
  have inside : 5 / 2 * 10 ^ c.least ≤ angle.value := by
    have power := cube.trans (pow_le_of_le_one above.le below (by norm_num))
    change 7 / 2 * 10 ^ c.least ≤ y.value at power
    rcases wide with wide | wide <;> linarith
  have turned (inverted : decide (1 < size.value) = true) :
      Settles c.Acute ((c.widen guardDigits).sub k.halfPi angle) := by
    have gives := sub_gives precise suits.finite.halfPi found
    apply (roomy.settles gives (by linarith) (by linarith)).mono
    rintro z ⟨sound, low, high⟩
    exact ⟨sound, by linarith, by linarith⟩
  have kept (direct : ¬ decide (1 < size.value) = true) : Settles c.Acute (.ok angle : Except Signal Decimal) :=
    .ok ⟨found, inside, by linarith⟩
  apply Concludes.iteThen turned kept
  intro z acute
  apply Concludes.ite
  · intro negative
    exact ample.neg_acute_settles acute
  · intro nonneg
    obtain ⟨sound, low, high⟩ := acute
    have size : |z.value| = z.value := abs_of_pos (by linarith)
    rw [← size] at low high
    exact .ok ⟨sound, .inr (by linarith), by linarith⟩

theorem degrees_settles {x : Decimal} (given : x.isFinite = true) (counts : x.value = 0 ∨ 2 * 10 ^ c.least ≤ |x.value|)
    (small : |x.value| ≤ 2) :
    Settles (fun z => z.isFinite = true ∧ (c.widen guardDigits).Spans z.value ∧
      Within (11 * (c.widen guardDigits).grain) z.value (x.value * 180 / k.pi.value))
      ((c.widen guardDigits).degrees k x) := by
  have roomy := ample.roomy
  have precise := roomy.precise
  have fine := roomy.fine
  have tiny := (c.widen guardDigits).grain_pos
  have floor := pow_ten_pos c.least
  obtain ⟨low, high⟩ := suits.pi_bounds roomy.toWorking
  have size : |x.value * (ofInt 180).value| = 180 * |x.value| := by
    rw [value_ofInt, Int.cast_ofNat, abs_mul, abs_of_pos (by norm_num : (0 : ℚ) < 180), mul_comm]
  have products : (c.widen guardDigits).Spans (x.value * (ofInt 180).value) := by
    rcases counts with zero | counts
    · rw [zero, zero_mul]
      exact Spans.zero _
    · refine roomy.spans (show 10 ^ c.least ≤ _ from ?_) ?_ <;> rw [size] <;> linarith
  apply ((mul_gives precise given (y := ofInt 180) rfl).settles_of_spans precise products).andThen
  intro product multiplied
  have first := (products.1.within multiplied).div_right k.pi.value
  have ratio : |x.value * (ofInt 180).value / k.pi.value| = 180 * |x.value| / k.pi.value := by
    rw [abs_div, size, abs_of_pos (by linarith : 0 < k.pi.value)]
  have quotients : (c.widen guardDigits).Spans (product.value / k.pi.value) := by
    have sizes := first.abs
    rw [ratio] at sizes
    refine roomy.spans_of_within sizes (by linarith) ?_ ?_
    · apply counts.imp (fun zero => by rw [zero, abs_zero, mul_zero, zero_div])
      intro counts
      rw [le_div_iff₀ (by linarith)]
      show 101 / 100 * 10 ^ c.least * _ ≤ _
      nlinarith
    · rw [div_le_iff₀ (by linarith)]
      linarith
  apply ((div_gives precise multiplied.isFinite suits.finite.pi (by linarith)).settles_of_spans precise quotients).mono
  intro z divided
  refine ⟨divided.isFinite, quotients.of_rounding precise divided, ?_⟩
  have whole := (quotients.1.within divided).trans first (by linarith)
  rw [value_ofInt, Int.cast_ofNat] at whole
  exact whole.mono (by nlinarith)

end

end Ample

end Reckoner.Decimal.Context

import Reckoner.Proofs.Decimal.Bounded
import Reckoner.Proofs.Decimal.Exponential

/-! The exponential function of moderate arguments is found, and with it the hyperbolic tangent of all arguments
whose double is in the range. -/

namespace Reckoner.Decimal.Context

theorem two_pow_bounds {n m : ℤ} (few : |n| ≤ m) : (10 : ℚ) ^ (-m) ≤ 2 ^ n ∧ (2 : ℚ) ^ n ≤ 10 ^ m := by
  obtain ⟨low, high⟩ := abs_le.mp few
  have nonneg : 0 ≤ m := (abs_nonneg n).trans few
  have power : (2 : ℚ) ^ m ≤ 10 ^ m := zpow_le_zpow_left₀ nonneg (by norm_num) (by norm_num)
  constructor
  · calc (10 : ℚ) ^ (-m) ≤ 2 ^ (-m) := by
          rw [zpow_neg, zpow_neg]
          exact inv_anti₀ (by positivity) power
      _ ≤ 2 ^ n := zpow_le_zpow_right₀ (by norm_num) low
  · exact (zpow_le_zpow_right₀ (by norm_num) high).trans power

theorem scaled_bounds {s p error : ℚ} {n m : ℤ} (few : |n| ≤ m) (low : 3 / 10 ≤ s) (high : s ≤ 3)
    (close : Within error p (2 ^ n)) (small : error ≤ 1 / 100) :
    (10 : ℚ) ^ (-(m + 3)) ≤ s * p ∧ s * p ≤ 10 ^ (m + 3) := by
  obtain ⟨least, most⟩ := two_pow_bounds few
  have positive : (0 : ℚ) < 2 ^ n := by positivity
  obtain ⟨lower, upper⟩ := close.bounds positive.le
  have lower : 99 / 100 * 2 ^ n ≤ p := le_trans (mul_le_mul_of_nonneg_right (by linarith) positive.le) lower
  have upper : p ≤ 101 / 100 * 2 ^ n := upper.trans (mul_le_mul_of_nonneg_right (by linarith) positive.le)
  have unit : (10 : ℚ) ^ (m + 3) = 10 ^ m * 1000 := by
    rw [zpow_add₀ (by norm_num)]
    norm_num
  rw [zpow_neg, unit, mul_inv, ← zpow_neg]
  constructor
  · calc (10 : ℚ) ^ (-m) * 1000⁻¹ ≤ 3 / 10 * (99 / 100 * 2 ^ n) := by linarith
      _ ≤ s * p := mul_le_mul low lower (by linarith) (by linarith)
  · calc s * p ≤ 3 * (101 / 100 * 2 ^ n) := mul_le_mul high upper (by linarith) (by norm_num)
      _ ≤ 10 ^ m * 1000 := by linarith

section
variable {c : Context} (roomy : c.Roomy) {k : Constants} (natural : k.Natural c.precision) {x : Decimal}
  (counts : x.value = 0 ∨ 3 / 2 * 10 ^ c.least ≤ |x.value|) (small : |x.value| ≤ 27 / 10 * c.precision)
include roomy natural counts small

/-- The argument in multiples of the logarithm of two is inside the range. -/
theorem twos_spans : c.Spans (x.value / k.lnTwo.value) := by
  have floor := pow_ten_pos c.least
  have most : (c.precision : ℚ) ≤ 110 := by exact_mod_cast roomy.most
  obtain ⟨low, high⟩ := lnTwo_bounds roomy.toWorking natural
  have positive : 0 < k.lnTwo.value := by linarith
  rcases counts with zero | counts
  · rw [zero, zero_div]
    exact Spans.zero _
  · refine roomy.spans ?_ ?_ <;> rw [abs_div, abs_of_pos positive]
    · rw [le_div_iff₀ positive]
      nlinarith
    · rw [div_le_iff₀ positive]
      linarith

/-- The multiple of the logarithm of two is zero where the argument is small, and has few digits otherwise. -/
theorem nearestTwos {q : Decimal} (divided : c.IsRounding (x.value / k.lnTwo.value) q) :
    |nearestEven q.value| ≤ 4 * (c.precision : ℤ) + 2 ∧ (nearestEven q.value ≠ 0 → 1 / 10 ≤ |x.value|) := by
  have tiny := c.grain_pos
  have fine := roomy.fine
  obtain ⟨low, high⟩ := lnTwo_bounds roomy.toWorking natural
  have positive : 0 < k.lnTwo.value := by linarith
  have bounds := ((twos_spans roomy natural counts small).1.within divided).abs.bounds (abs_nonneg _)
  rw [abs_div, abs_of_pos positive] at bounds
  have size : 0 ≤ |x.value| / k.lnTwo.value := by positivity
  have near := nearestEven_near q.value
  constructor
  · have ratio : |x.value| / k.lnTwo.value ≤ 392 / 100 * c.precision := by
      rw [div_le_iff₀ positive]
      nlinarith [(Nat.cast_nonneg c.precision : (0 : ℚ) ≤ c.precision)]
    have least : (6 : ℚ) ≤ c.precision := by exact_mod_cast roomy.least
    have apart := abs_sub_abs_le_abs_sub (nearestEven q.value : ℚ) q.value
    rw [abs_sub_comm] at apart
    have bound : |(nearestEven q.value : ℚ)| ≤ 4 * c.precision + 2 := by nlinarith
    exact_mod_cast bound
  · intro nonzero
    have one : (1 : ℚ) ≤ |(nearestEven q.value : ℚ)| := by exact_mod_cast Int.one_le_abs nonzero
    have apart := abs_sub_abs_le_abs_sub (nearestEven q.value : ℚ) q.value
    rw [abs_sub_comm] at apart
    have half : 1 / 2 ≤ |q.value| := by linarith
    have ratio : 49 / 100 ≤ |x.value| / k.lnTwo.value := by nlinarith
    rw [le_div_iff₀ positive] at ratio
    linarith

theorem twos_product_spans {q twos : Decimal} (divided : c.IsRounding (x.value / k.lnTwo.value) q)
    (same : twos.value = nearestEven q.value) :
    c.Spans (twos.value * k.lnTwo.value) ∧ |twos.value * k.lnTwo.value| ≤ 310 ∧
      (nearestEven q.value ≠ 0 → 1 / 10 ≤ |twos.value * k.lnTwo.value|) := by
  have fine := roomy.fine
  have most : (c.precision : ℚ) ≤ 110 := by exact_mod_cast roomy.most
  obtain ⟨low, high⟩ := lnTwo_bounds roomy.toWorking natural
  have few : |(nearestEven q.value : ℚ)| ≤ 4 * c.precision + 2 := by
    exact_mod_cast (nearestTwos roomy natural counts small divided).1
  have size : |twos.value * k.lnTwo.value| = |(nearestEven q.value : ℚ)| * k.lnTwo.value := by
    rw [same, abs_mul, abs_of_pos (by linarith : 0 < k.lnTwo.value)]
  have product : |(nearestEven q.value : ℚ)| * k.lnTwo.value ≤ (4 * c.precision + 2) * (7 / 10) :=
    mul_le_mul few high (by linarith) (by positivity)
  have one (nonzero : nearestEven q.value ≠ 0) : 1 / 10 ≤ |twos.value * k.lnTwo.value| := by
    have unit : (1 : ℚ) ≤ |(nearestEven q.value : ℚ)| := by exact_mod_cast Int.one_le_abs nonzero
    rw [size]
    nlinarith
  refine ⟨?_, by linarith, one⟩
  by_cases zero : nearestEven q.value = 0
  · rw [same, zero, Int.cast_zero, zero_mul]
    exact Spans.zero c
  · exact roomy.spans_of_grain (by linarith [one zero]) (by linarith)

variable (given : x.isFinite = true) (whole : 1 / 10 ≤ |x.value| → MultipleOf (-(c.precision : ℤ)) x.value)
include given whole

theorem rest_settles (finite : k.AllFinite) {q : Decimal} (divided : c.IsRounding (x.value / k.lnTwo.value) q)
    {twos : Decimal} (sound : twos.isFinite = true) (same : twos.value = nearestEven q.value) :
    Settles (fun z => z.isFinite = true ∧ |z.value| ≤ 9 / 10 ∧ (z.value = 0 ∨ 11 / 10 * 10 ^ c.least ≤ |z.value|))
      (do c.sub x (← c.mul twos k.lnTwo)) := by
  have precise := roomy.precise
  have tiny := c.grain_pos
  have fine := roomy.fine
  have floor := pow_ten_pos c.least
  have below := roomy.below
  have above := roomy.above
  have most : (c.precision : ℚ) ≤ 110 := by exact_mod_cast roomy.most
  have argument : |x.value| + 1 ≤ 10 ^ 3 := by linarith
  have enough : 3 ≤ c.precision := by
    have least := roomy.least
    omega
  have fits : |x.value| + 1 ≤ 69 / 100 * 10 ^ c.precision := by
    have power : (10 : ℚ) ^ 6 ≤ 10 ^ c.precision := pow_le_pow_right₀ (by norm_num) roomy.least
    linarith
  obtain ⟨products, product, one⟩ := twos_product_spans roomy natural counts small divided same
  apply ((mul_gives precise sound finite.lnTwo).settles_of_spans precise products).andThen
  intro m multiplied
  have gives := sub_gives precise given multiplied.isFinite
  have near {rest : Decimal} (rounding : c.IsRounding (x.value - m.value) rest) : |rest.value| ≤ 9 / 10 :=
    (rest_near roomy.toWorking natural enough argument fits divided (same ▸ multiplied) rounding).1
  by_cases zero : nearestEven q.value = 0
  · -- Nothing is taken off.
    have none : m.value = 0 := by
      have drift := products.1.within multiplied
      rw [same, zero, Int.cast_zero, zero_mul] at drift
      exact drift.eq_zero
    rw [none, sub_zero] at gives near
    have spans : c.Spans x.value := by
      rcases counts with zero | counts
      · exact zero ▸ Spans.zero c
      · exact roomy.spans (by linarith) (by linarith)
    apply (gives.settles_of_spans precise spans).mono
    intro rest rounding
    refine ⟨rounding.isFinite, near rounding, ?_⟩
    have drift := spans.1.within rounding
    apply counts.imp (fun zero => (zero ▸ drift).eq_zero)
    intro counts
    have least := (drift.abs.bounds (abs_nonneg _)).1
    nlinarith
  · -- The digits of both end not far behind the point.
    have unit : (10 : ℚ) ^ (-1 : ℤ) ≤ |twos.value * k.lnTwo.value| := by
      rw [zpow_neg_one, ← one_div]
      exact one zero
    have digits : MultipleOf (-(c.precision : ℤ)) m.value := (products.1.multipleOf multiplied unit).mono (by omega)
    have large := (nearestTwos roomy natural counts small divided).2 zero
    have multiple := (whole large).sub digits
    have spans : c.Spans (x.value - m.value) := by
      refine spans_of_multipleOf multiple (by omega) (show (4 : ℤ) ≤ c.greatest by omega) ?_
      have moved := (products.1.within multiplied).abs.bounds (abs_nonneg _)
      norm_num
      nlinarith [abs_sub x.value m.value]
    apply (gives.settles_of_spans precise spans).mono
    intro rest rounding
    refine ⟨rounding.isFinite, near rounding, ?_⟩
    apply or_iff_not_imp_left.mpr
    intro other
    have least := (rounding.multipleOf multiple).le_abs other
    change c.grain ≤ |rest.value| at least
    linarith [roomy.bottom_le]

omit natural counts small given whole in
/-- The series of what is left, times a power of two, is found as the rounding of a number inside the range. -/
theorem scaledSeries_settles (refuses : c.refusesSubnormal = true) (room : c.Room (4 * c.precision + 5))
    {rest : Decimal} (sound : rest.isFinite = true) (less : |rest.value| ≤ 9 / 10)
    (counts : rest.value = 0 ∨ 11 / 10 * 10 ^ c.least ≤ |rest.value|) {n : ℤ} (few : |n| ≤ 4 * (c.precision : ℤ) + 2) :
    Settles (fun z => ∃ q, 0 < q ∧ c.Spans q ∧ c.IsRounding q z ∧ q ≤ 10 ^ (4 * (c.precision : ℤ) + 5))
      (do
        let sum ← (c.expSeries rest : Except Signal _)
        c.mul sum.total (← c.power (ofInt 2) (ofInt n)) : Computed Decimal) := by
  have precise := roomy.precise
  have fine := roomy.fine
  have above := room.above
  have below := room.below
  have unit : |rest.value| ≤ 1 := by linarith
  have series := (roomy.expSeries_settles sound unit counts).and (roomy.toWorking.expSeries_near sound unit).yields
  apply (lift_settles series).andThen
  rintro sum ⟨⟨summed, _⟩, _, near⟩
  have power := power_concludes precise refuses (b := 2) le_rfl (by decide) n
  have inside : c.Room n.natAbs := by
    rw [Int.abs_eq_natAbs] at few
    exact ⟨by omega, by omega⟩
  apply (lift_concludes power fun _ refused => absurd inside refused).andThen
  rintro scale ⟨scaled, close⟩
  obtain ⟨least, most⟩ := exp_bounds less
  have fine' := roomy.fine_real
  obtain ⟨left, right⟩ := abs_le.mp near
  have bottom : 3 / 10 ≤ sum.total.value := by
    refine (Rat.cast_le (K := ℝ)).mp ?_
    push_cast
    linarith
  have top : sum.total.value ≤ 3 := by
    refine (Rat.cast_le (K := ℝ)).mp ?_
    push_cast
    linarith
  rw [Nat.cast_ofNat] at close
  obtain ⟨least, most⟩ := scaled_bounds few bottom top close (by linarith)
  rw [add_assoc] at least most
  have product : 0 < sum.total.value * scale.value := (pow_ten_pos _).trans_le least
  have spans : c.Spans (sum.total.value * scale.value) := by
    push_cast at above below
    refine spans_of_le (show c.least ≤ -(4 * (c.precision : ℤ) + 5) by omega)
      (show 4 * (c.precision : ℤ) + 5 ≤ c.greatest by omega) ?_ ?_ <;> rwa [abs_of_pos product]
  apply (lift_settles ((mul_gives precise summed scaled).settles_of_spans precise spans)).mono
  intro z rounding
  exact ⟨_, product, spans, rounding, most⟩

/-- The exponential function of such an argument is found, as the rounding of a number inside the range. -/
theorem expWork_settles (finite : k.AllFinite) (refuses : c.refusesSubnormal = true)
    (room : c.Room (4 * c.precision + 5)) :
    Settles (fun z => ∃ q, 0 < q ∧ c.Spans q ∧ c.IsRounding q z ∧ q ≤ 10 ^ (4 * (c.precision : ℤ) + 5))
      (c.expWork k x) := by
  have precise := roomy.precise
  obtain ⟨low, high⟩ := lnTwo_bounds roomy.toWorking natural
  have spans := twos_spans roomy natural counts small
  apply (lift_settles ((div_gives precise given finite.lnTwo (by linarith)).settles_of_spans precise spans)).andThen
  intro q divided
  obtain ⟨nearest, part⟩ := roundToWhole_halfEven divided.isFinite
  have sound := isFinite_roundToWhole .halfEven divided.isFinite
  have few := (nearestTwos roomy natural counts small divided).1
  dsimp only
  rw [part]
  have rest := rest_settles roomy natural counts small given whole finite divided sound nearest
  have step : Settles _ (liftM _ >>= _) := (lift_settles rest).andThen fun rest ⟨sound, less, counts⟩ =>
    scaledSeries_settles roomy refuses room sound less counts few
  simpa only [liftM_bind_eq, bind_assoc] using step

end

/-! ### The hyperbolic tangent -/

theorem abs_value_withSign (z : Decimal) (negative : Bool) : |(z.withSign negative).value| = |z.value| := by
  cases z with
  | finite s m e => rw [withSign, value_finite, value_finite, abs_mul, abs_mul, abs_signed, abs_signed]
  | infinite => rfl
  | notANumber => rfl

/-- What has few digits behind the point, or is small, is one or not too near one. -/
theorem grain_le_of_ne_one {c : Context} (fine : c.grain ≤ 1 / 10 ^ 6) {q : ℚ} (positive : 0 < q)
    (split : MultipleOf (-(c.precision : ℤ) - 1) (q - 1) ∨ q < 1 / 10) (other : q - 1 ≠ 0) :
    c.grain * (q + 1) ≤ 120 * |q - 1| := by
  have tiny := c.grain_pos
  have least : c.grain / 10 ≤ |q - 1| := by
    rcases split with multiple | small
    · have unit := multiple.le_abs other
      rwa [zpow_sub_one₀ (by norm_num), ← div_eq_mul_inv] at unit
    · rw [abs_of_neg (by linarith)]
      linarith
  rcases le_or_gt q 10 with low | high
  · nlinarith
  · rw [abs_of_pos (by linarith)]
    nlinarith

/-- A positive number less one over one more is found, where the number has few digits. -/
theorem ratio_settles {c : Context} (roomy : c.Roomy) {e : Decimal} (given : e.isFinite = true)
    (positive : 0 < e.value) {top : ℤ} (most : e.value ≤ 10 ^ top) (fits : top + 1 ≤ c.greatest) (plain : 0 ≤ top)
    (whole : 1 / 10 ≤ e.value → MultipleOf (-(c.precision : ℤ) - 1) e.value) :
    Settles (fun z => z.isFinite = true ∧ c.Spans z.value) (do c.div (← c.sub e one) (← c.add e one)) := by
  have precise := roomy.precise
  have tiny := c.grain_pos
  have fine := roomy.fine
  have bottom := roomy.bottom_le
  have below := roomy.below
  have unit : (1 : ℚ) ≤ 10 ^ top := one_le_zpow₀ (by norm_num) plain
  have next : (10 : ℚ) ^ (top + 1) = 10 ^ top * 10 := zpow_add_one₀ (by norm_num) top
  have greatest : (10 : ℚ) ^ (top + 1) ≤ 10 ^ c.greatest := zpow_le_zpow_right₀ (by norm_num) fits
  have apart : |e.value - 1| ≤ e.value + 1 := abs_le.mpr ⟨by linarith, by linarith⟩
  -- Near one the number has few digits, and far from it the difference is not small.
  have split : MultipleOf (-(c.precision : ℤ) - 1) (e.value - 1) ∨ e.value < 1 / 10 := by
    apply (le_or_gt (1 / 10) e.value).imp_left
    intro large
    refine (whole large).sub ?_
    exact_mod_cast MultipleOf.ofInt 1 (by omega)
  have differences : c.Spans (e.value - 1) := by
    rcases split with multiple | small
    · exact spans_of_multipleOf multiple (by omega) fits (by linarith)
    · refine ⟨.inr ?_, by linarith⟩
      rw [abs_of_neg (by linarith)]
      linarith
  have sums : c.Spans (e.value + 1) := by
    refine ⟨.inr ?_, ?_⟩ <;> rw [abs_of_pos (by linarith)] <;> linarith
  have first := sub_gives precise given (y := one) rfl
  have second := add_gives precise given (y := one) rfl
  rw [value_one] at first second
  apply (first.settles_of_spans precise differences).andThen
  intro a subtracted
  apply (second.settles_of_spans precise sums).andThen
  intro b added
  have above := (differences.1.within subtracted).abs.bounds (abs_nonneg _)
  have beside := (sums.1.within added).bounds (by linarith)
  have part := mul_le_mul_of_nonneg_right fine (show 0 ≤ e.value + 1 by linarith)
  have share := mul_le_mul_of_nonneg_right fine (abs_nonneg (e.value - 1))
  have divides : 0 < b.value := by linarith
  have quotients : c.Spans (a.value / b.value) := by
    by_cases same : e.value - 1 = 0
    · have drift := differences.1.within subtracted
      rw [same] at drift
      rw [drift.eq_zero, zero_div]
      exact Spans.zero c
    have counts := grain_le_of_ne_one fine positive split same
    refine roomy.spans_of_grain ?_ ?_ <;> rw [abs_div, abs_of_pos divides]
    · rw [le_div_iff₀ divides]
      nlinarith
    · rw [div_le_iff₀ divides]
      linarith
  apply ((div_gives precise subtracted.isFinite added.isFinite divides.ne').settles_of_spans precise quotients).mono
  intro z divided
  exact ⟨divided.isFinite, quotients.of_rounding precise divided⟩

/-- The bound above which the hyperbolic tangent counts as one is found, and is moderate. -/
theorem threshold_settles {c : Context} (roomy : c.Roomy) {k : Constants} (natural : k.Natural c.precision)
    (finite : k.AllFinite) :
    Settles (fun z : Decimal => z.isFinite = true ∧ z.value ≤ 27 / 10 * c.precision)
      (c.mul k.lnTen (ofInt (c.precision + 1))) := by
  have tiny := c.grain_pos
  have fine := roomy.fine
  have least : (6 : ℚ) ≤ c.precision := by exact_mod_cast roomy.least
  have most : (c.precision : ℚ) ≤ 110 := by exact_mod_cast roomy.most
  obtain ⟨low, high⟩ := lnTen_bounds roomy.toWorking natural
  have gives := mul_gives roomy.precise finite.lnTen (y := ofInt (c.precision + 1)) rfl
  rw [value_ofInt] at gives
  push_cast at gives
  have product : k.lnTen.value * (c.precision + 1) ≤ 23106 / 10000 * (c.precision + 1) :=
    mul_le_mul_of_nonneg_right high (by linarith)
  have positive : 9 / 10 ≤ k.lnTen.value * (c.precision + 1) := by nlinarith
  have spans : c.Spans (k.lnTen.value * (c.precision + 1)) := by
    refine roomy.spans_of_grain ?_ ?_ <;> rw [abs_of_pos (by linarith)] <;> linarith
  apply (gives.settles_of_spans roomy.precise spans).mono
  intro z rounding
  refine ⟨rounding.isFinite, ?_⟩
  have bounds := (spans.1.within rounding).bounds (by linarith)
  nlinarith

namespace Ample

variable {c : Context} (ample : c.Ample)
include ample

/-- Twice a number that is admitted is exact, as long as it is below the next power of ten. -/
theorem double_settles {x y : Decimal} (admitted : c.Admits x) (given : y.isFinite = true)
    (same : |y.value| = |x.value|) (small : 2 * |x.value| < 10 ^ (c.greatest + 1)) :
    Settles (fun z => z.isFinite = true ∧ z.value = 2 * y.value) ((c.widen guardDigits).mul (ofInt 2) y) := by
  have precise := ample.roomy.precise
  have size : |2 * y.value| = 2 * |x.value| := by rw [abs_mul, same, abs_of_pos (by norm_num : (0 : ℚ) < 2)]
  have gives := mul_gives precise (x := ofInt 2) rfl given
  rw [value_ofInt, Int.cast_ofNat] at gives
  have normal : (c.widen guardDigits).Normal (2 * y.value) := by
    rcases admitted.bounds.1 with zero | low
    · rw [zero, abs_zero, abs_eq_zero] at same
      exact .inl (by rw [same, mul_zero])
    · refine .inr (low.trans ?_)
      rw [size]
      linarith [abs_nonneg x.value]
  have short : Short (c.widen guardDigits).precision (2 * y.value) := by
    obtain ⟨n, e, few, shape⟩ := admitted.short
    obtain ⟨m, less, split⟩ : ∃ m : ℤ, |m| = |n| ∧ y.value = m * 10 ^ e := by
      rcases abs_eq_abs.mp same with equal | opposite
      · exact ⟨n, rfl, equal.trans shape⟩
      · exact ⟨-n, abs_neg n, by rw [opposite, shape]; push_cast; ring⟩
    refine ⟨2 * m, e, ?_, by rw [split]; push_cast; ring⟩
    show _ < 10 ^ (c.precision + 5)
    rw [abs_mul, less, pow_add, abs_of_pos (by norm_num : (0 : ℤ) < 2)]
    have power : (0 : ℤ) < 10 ^ c.precision := by positivity
    linarith
  apply (gives.settles (normal.fits_of_short precise short (size ▸ small))).mono
  intro z rounding
  exact ⟨rounding.isFinite, normal.value_eq rounding short⟩

omit ample in
/-- Twice a number that is admitted is in the range with some room, and its digits end not far behind the point. -/
theorem doubled_counts {x y : Decimal} (admitted : c.Admits x) (value : y.value = 2 * x.value) :
    (y.value = 0 ∨ 3 / 2 * 10 ^ (c.widen guardDigits).least ≤ |y.value|) ∧
      (1 / 10 ≤ |y.value| → MultipleOf (-((c.widen guardDigits).precision : ℤ)) y.value) := by
  have size : |y.value| = 2 * |x.value| := by rw [value, abs_mul, abs_of_pos (by norm_num : (0 : ℚ) < 2)]
  constructor
  · apply admitted.bounds.1.imp (fun zero => by rw [value, zero, mul_zero])
    intro low
    have floor := pow_ten_pos c.least
    rw [size]
    show 3 / 2 * 10 ^ c.least ≤ _
    linarith
  · intro large
    have unit : (10 : ℚ) ^ (-2 : ℤ) ≤ |x.value| := by
      norm_num
      linarith
    have multiple := admitted.multipleOf unit
    rw [value, two_mul]
    refine (multiple.add multiple).mono ?_
    show -((c.precision + 5 : Nat) : ℤ) ≤ _
    omega

variable {k : Constants} (natural : k.Natural (c.widen guardDigits).precision) (finite : k.AllFinite)
  (refuses : c.refusesSubnormal = true)
include natural finite refuses

theorem tanhWork_settles {x : Decimal} (admitted : c.Admits x) (small : 2 * |x.value| < 10 ^ (c.greatest + 1)) :
    Settles (fun z => z.isFinite = true ∧ (c.widen guardDigits).Spans z.value)
      ((c.widen guardDigits).tanhWork k x) := by
  have roomy := ample.roomy
  have deep := ample.deep
  have even := ample.even
  unfold tanhWork
  apply (lift_settles (ample.abs_settles admitted)).andThen
  rintro size ⟨measured, same⟩
  apply (lift_settles (ample.double_settles admitted measured (by rw [same, abs_abs]) small)).andThen
  rintro twice ⟨doubled, double⟩
  apply (lift_settles (threshold_settles roomy natural finite)).andThen
  rintro bound ⟨bounded, most⟩
  rw [isLess_eq bounded doubled]
  refine .ite (fun _ => .ok ⟨isFinite_copySign rfl x, ?_⟩) ?_
  · refine roomy.spans_of_grain ?_ ?_ <;> rw [copySign, abs_value_withSign, value_one, abs_one] <;>
      linarith [roomy.fine]
  intro within
  have within : 2 * |x.value| ≤ bound.value := by
    rw [← same, ← double]
    simpa using within
  apply (lift_settles (ample.double_settles admitted admitted.isFinite rfl small)).andThen
  rintro y ⟨sound, value⟩
  have size : |y.value| = 2 * |x.value| := by rw [value, abs_mul, abs_of_pos (by norm_num : (0 : ℚ) < 2)]
  obtain ⟨counts, whole⟩ := doubled_counts admitted value
  have room : (c.widen guardDigits).Room (4 * (c.widen guardDigits).precision + 5) := by
    constructor
    · show ((4 * (c.precision + 5) + 5 : Nat) : ℤ) < c.greatest
      omega
    · show ((4 * (c.precision + 5) + 5 : Nat) : ℤ) < -c.least
      omega
  apply (expWork_settles roomy natural counts (by linarith) sound whole finite refuses room).andThen
  rintro e ⟨q, positive, spans, rounding, high⟩
  have bounds := (spans.1.within rounding).bounds positive.le
  have fine := roomy.fine
  have share := mul_le_mul_of_nonneg_right fine positive.le
  have most : e.value ≤ 10 ^ (4 * ((c.widen guardDigits).precision : ℤ) + 6) := by
    have next : (10 : ℚ) ^ (4 * ((c.widen guardDigits).precision : ℤ) + 6) =
        10 ^ (4 * ((c.widen guardDigits).precision : ℤ) + 5) * 10 := by
      rw [← zpow_add_one₀ (by norm_num)]
      congr 1
    linarith
  have fits : 4 * ((c.widen guardDigits).precision : ℤ) + 6 + 1 ≤ (c.widen guardDigits).greatest := by
    show 4 * ((c.precision + 5 : Nat) : ℤ) + 6 + 1 ≤ c.greatest
    omega
  have ratio := ratio_settles roomy rounding.isFinite (show 0 < e.value by linarith) most fits (by positivity)
    fun large => ?_
  · have step : Settles (fun z : Decimal => z.isFinite = true ∧ (c.widen guardDigits).Spans z.value)
        (liftM _ : Computed Decimal) := lift_settles ratio
    simpa only [liftM_bind_eq, bind_assoc] using step
  · have unit : (10 : ℚ) ^ (-2 : ℤ) ≤ |q| := by
      rw [abs_of_pos positive]
      norm_num
      linarith
    refine (spans.1.multipleOf rounding unit).mono ?_
    omega

end Ample

end Reckoner.Decimal.Context

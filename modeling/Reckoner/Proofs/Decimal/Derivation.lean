import Reckoner.Proofs.Decimal.Settling

/-! Constants that are found. Halving an angle and the series of the constants take no number out of the range, so
that the constants of every working precision come out. -/

namespace Reckoner.Decimal

namespace Context

variable {c : Context}

namespace Roomy

variable (roomy : c.Roomy)
include roomy

theorem settles {q : ℚ} {outcome : Except Signal Decimal} (gives : c.Gives q outcome) (low : 1 / 1000 ≤ q)
    (high : q ≤ 1000) :
    Settles (fun z => z.isFinite = true ∧ 99 / 100 * q ≤ z.value ∧ z.value ≤ 101 / 100 * q) outcome := by
  have tiny := c.grain_pos
  have fine := roomy.fine
  have spans : c.Spans q := by
    refine roomy.spans_of_grain ?_ ?_ <;> rw [abs_of_nonneg (by linarith)] <;> linarith
  apply (gives.settles_of_spans roomy.precise spans).mono
  intro z rounding
  exact ⟨rounding.isFinite, (spans.1.within rounding).plain (by linarith) (by linarith)⟩

theorem times_settles {n : Int} {q : ℚ} (same : (n : ℚ) = q) {x : Decimal} (given : x.isFinite = true)
    (low : 1 / 1000 ≤ q * x.value) (high : q * x.value ≤ 1000) :
    Settles (fun z => z.isFinite = true ∧ 99 / 100 * (q * x.value) ≤ z.value ∧ z.value ≤ 101 / 100 * (q * x.value))
      (c.mul (ofInt n) x) := by
  have gives := mul_gives roomy.precise (x := ofInt n) rfl given
  rw [value_ofInt, same] at gives
  exact roomy.settles gives low high

theorem sqrt_settles {x : Decimal} (given : x.isFinite = true) (low : 98 / 100 ≤ x.value) (high : x.value ≤ 4) :
    Settles (fun z => z.isFinite = true ∧ 9 / 10 ≤ z.value ∧ z.value ≤ 9 / 4) (c.sqrt x) := by
  have tiny := c.grain_pos
  have fine := roomy.fine
  obtain ⟨q, unit, gives, apart, many, least, most⟩ := sqrt_gives roomy.precise given (by linarith)
  have few := le_mul_grain many
  have nonneg : 0 ≤ q := by
    by_contra negative
    nlinarith
  have small : unit ≤ q / 100 := by nlinarith
  have above : 95 / 100 ≤ q := by nlinarith
  have below : q ≤ 21 / 10 := by nlinarith
  apply (roomy.settles gives (by linarith) (by linarith)).mono
  intro z near
  obtain ⟨sound, low, high⟩ := near
  exact ⟨sound, by linarith, by linarith⟩

theorem rootTwo_settles :
    Settles (fun z => z.isFinite = true ∧ 141 / 100 ≤ z.value ∧ z.value ≤ 142 / 100) (c.sqrt (ofInt 2)) := by
  have whole : (ofInt 2).value = 2 := by rw [value_ofInt, Int.cast_ofNat]
  have exactly : |((ofInt 2).value : ℝ) - 2| ≤ 10 * c.grain := by
    rw [whole]
    norm_num
    exact_mod_cast c.grain_pos.le
  have known := roomy.toWorking.sqrt_reaches rfl (by norm_num) (by norm_num) exactly
  apply ((roomy.sqrt_settles rfl (by rw [whole]; norm_num) (by rw [whole]; norm_num)).and known.yields).mono
  rintro z ⟨⟨sound, _⟩, _, near⟩
  have fine := roomy.fine_real
  have low : (1414 / 1000 : ℝ) ≤ √2 := Real.le_sqrt_of_sq_le (by norm_num)
  have high : √2 ≤ (1415 / 1000 : ℝ) := Real.sqrt_le_iff.mpr (by norm_num)
  obtain ⟨least, most⟩ := abs_le.mp near
  have above : ((141 / 100 : ℚ) : ℝ) ≤ z.value := by push_cast; linarith
  have below : (z.value : ℝ) ≤ ((142 / 100 : ℚ) : ℝ) := by push_cast; linarith
  exact ⟨sound, Rat.cast_le.mp above, Rat.cast_le.mp below⟩

/-! ### Half an angle -/

/-- The tangent of half an angle is found, about half the tangent of the angle. -/
theorem halfTangent_settles {x : Decimal} (given : x.isFinite = true) (least : 1 / 5 ≤ x.value) (most : x.value ≤ 1) :
    Settles (fun z => z.isFinite = true ∧ 1 / 20 ≤ z.value ∧ z.value ≤ x.value / 2 + 7 * c.grain)
      (do c.div x (← c.add one (← c.sqrt (← c.add one (← c.mul x x))))) := by
  have precise := roomy.precise
  have accurate := (roomy.halfTangent_reaches given (by linarith) most).yields
  have found : Settles (fun z => z.isFinite = true ∧ 1 / 20 ≤ z.value)
      (do c.div x (← c.add one (← c.sqrt (← c.add one (← c.mul x x))))) := by
    apply (roomy.settles (mul_gives precise given given) (by nlinarith) (by nlinarith)).andThen
    rintro square ⟨squared, low, high⟩
    have above : 0 ≤ x.value * x.value := by nlinarith
    have below : x.value * x.value ≤ 1 := by nlinarith
    apply (roomy.settles (add_gives precise rfl squared) (by rw [value_one]; linarith)
      (by rw [value_one]; linarith)).andThen
    rintro sum ⟨summed, low', high'⟩
    rw [value_one] at low' high'
    apply (roomy.sqrt_settles summed (by linarith) (by linarith)).andThen
    rintro root ⟨rooted, low, high⟩
    apply (roomy.settles (add_gives precise rfl rooted) (by rw [value_one]; linarith)
      (by rw [value_one]; linarith)).andThen
    rintro below ⟨added, low, high⟩
    rw [value_one] at low high
    have divides : 0 < below.value := by linarith
    have quotient : 1 / 20 * (100 / 99) ≤ x.value / below.value := by
      rw [le_div_iff₀ divides]
      linarith
    have under : x.value / below.value ≤ 1 := by
      rw [div_le_one divides]
      linarith
    apply (roomy.settles (div_gives precise given added divides.ne') (by linarith) (by linarith)).mono
    rintro z ⟨sound, low, _⟩
    exact ⟨sound, by linarith⟩
  apply (found.and accurate).mono
  rintro z ⟨⟨sound, low⟩, _, _, near⟩
  refine ⟨sound, low, ?_⟩
  have half : halfTangent x.value ≤ (x.value : ℝ) / 2 :=
    div_le_div_of_nonneg_left (Rat.cast_nonneg.mpr (by linarith)) (by norm_num) (by linarith [one_le_sqrt x.value])
  have bound := (abs_le.mp near).2
  exact_mod_cast (show (z.value : ℝ) ≤ x.value / 2 + 7 * c.grain by linarith)

/-- Whether so many halvings lead from a tangent to another one of at most one fifth: the given one, or one that is
not small. -/
structure Lowered (x : ℚ) (made : Nat × Decimal) : Prop where
  isFinite : made.2.isFinite = true
  small : made.2.value ≤ 1 / 5
  kept : made.2.value = x ∨ 1 / 20 ≤ made.2.value
  size : 2 ^ made.1 * made.2.value ≤ 101 / 100

theorem halveAngle_settles (fuel : Nat) {count : Nat} {x : Decimal} (given : x.isFinite = true)
    (positive : 0 < x.value) (most : x.value ≤ 1) (shrunk : 2 ^ count * x.value ≤ 1 + 2 ^ (count + 1) * (7 * c.grain))
    (all : count + fuel = halvingBound) : Settles (Lowered x.value) (c.halveAngle fuel count x) := by
  have fine := roomy.fine
  have tiny := c.grain_pos
  have sized {n : Nat} {y : ℚ} (few : n ≤ halvingBound) (shrunk : 2 ^ n * y ≤ 1 + 2 ^ (n + 1) * (7 * c.grain)) :
      2 ^ n * y ≤ 101 / 100 := by
    have power : (2 : ℚ) ^ (n + 1) ≤ 2 ^ 9 := pow_le_pow_right₀ (by norm_num) (Nat.succ_le_succ few)
    nlinarith
  induction fuel generalizing count x with
  | zero =>
    have last : count = 8 := all
    have size := sized (by omega) shrunk
    subst last
    exact .ok ⟨given, by norm_num at size; linarith, .inl rfl, size⟩
  | succ fuel ih =>
    unfold halveAngle
    have limit : atanLimit.value = 1 / 5 := by
      rw [atanLimit, value_finite]
      norm_num [signed]
    rw [isLess_eq rfl given, limit]
    refine .ite ?_ fun small => .ok ⟨given, by simpa using small, .inl rfl, sized (by omega) shrunk⟩
    intro large
    have large : 1 / 5 < x.value := by simpa using large
    have step : Settles (Lowered x.value) ((do c.div x (← c.add one (← c.sqrt (← c.add one (← c.mul x x))))) >>=
        c.halveAngle fuel (count + 1)) := by
      apply (roomy.halfTangent_settles given large.le most).andThen
      intro z halved
      obtain ⟨sound, low, half⟩ := halved
      have doubled : 2 ^ (count + 1) * z.value ≤ 1 + 2 ^ (count + 1 + 1) * (7 * c.grain) := by
        have scaled := mul_le_mul_of_nonneg_left half (show (0 : ℚ) ≤ 2 ^ (count + 1) by positivity)
        rw [pow_succ 2 (count + 1)]
        rw [pow_succ] at scaled shrunk ⊢
        linarith
      apply (ih sound (by linarith) (by linarith) doubled (by omega)).mono
      intro made lowered
      exact ⟨lowered.isFinite, lowered.small, .inr (lowered.kept.elim (fun same => same ▸ low) id), lowered.size⟩
    simpa only [bind_assoc] using step

omit roomy in
theorem bottom_le_of_cube {x : ℚ} (positive : 0 < x) (most : x ≤ 1) (large : 7 / 2 * 10 ^ c.least ≤ x ^ 3) :
    7 / 2 * 10 ^ c.least ≤ x := by
  have cube : x ^ 3 ≤ x := pow_le_of_le_one positive.le most (by norm_num)
  exact large.trans cube

/-- The inverse tangent of a number between zero and one is found; it is not small unless the number is. -/
theorem atanReduced_settles {x : Decimal} (given : x.isFinite = true) (positive : 0 < x.value) (most : x.value ≤ 1)
    (large : 7 / 2 * 10 ^ c.least ≤ x.value ^ 3) :
    Settles (fun z => z.isFinite = true ∧ (3 / 4 * x.value ≤ z.value ∨ 1 / 30 ≤ z.value) ∧ z.value ≤ 5 / 4)
      (c.atanReduced x) := by
  have precise := roomy.precise
  have tiny := c.grain_pos
  have fine := roomy.fine
  have start : 2 ^ 0 * x.value ≤ 1 + 2 ^ (0 + 1) * (7 * c.grain) := by
    rw [pow_zero, one_mul, zero_add, pow_one]
    linarith
  apply (roomy.halveAngle_settles halvingBound given positive most start (Nat.zero_add _)).andThen
  intro made lowered
  obtain ⟨sound, small, kept, size⟩ := lowered
  have bottom := roomy.bottom_le
  have above : 0 < made.2.value := kept.elim (fun same => same ▸ positive) fun low => by linarith
  have wide : 7 / 2 * 10 ^ c.least ≤ made.2.value ^ 3 := by
    apply kept.elim (fun same => same ▸ large)
    intro low
    have power : (1 / 20 : ℚ) ^ 3 ≤ made.2.value ^ 3 := pow_le_pow_left₀ (by norm_num) low 3
    norm_num at power
    linarith
  apply (roomy.atanSeries_settles sound above small wide).andThen
  rintro sum ⟨summed, near⟩
  obtain ⟨low, high⟩ := abs_le.mp near
  have doublings : (1 : ℚ) ≤ 2 ^ made.1 := one_le_pow₀ (by norm_num)
  have least : 4 / 5 * made.2.value ≤ sum.total.value * 2 ^ made.1 := by
    linarith [le_mul_of_one_le_right (show 0 ≤ sum.total.value by linarith) doublings]
  have greatest : sum.total.value * 2 ^ made.1 ≤ 122 / 100 := by
    have times := mul_le_mul_of_nonneg_right (show sum.total.value ≤ 6 / 5 * made.2.value by linarith)
      (show (0 : ℚ) ≤ 2 ^ made.1 by linarith)
    linarith
  have value : (ofInt (2 ^ made.1)).value = 2 ^ made.1 := by
    rw [value_ofInt]
    push_cast
    rfl
  have spans : c.Spans (sum.total.value * (ofInt (2 ^ made.1)).value) := by
    have floor := bottom_le_of_cube above (by linarith) wide
    have bottom := pow_ten_pos c.least
    rw [value]
    refine roomy.spans ?_ ?_ <;> rw [abs_of_nonneg (by linarith)] <;> linarith
  apply ((mul_gives precise summed rfl).settles_of_spans precise spans).mono
  intro z rounding
  refine ⟨rounding.isFinite, ?_⟩
  have bounds := (spans.1.within rounding).plain (by linarith) (by rw [value]; linarith)
  rw [value] at bounds
  refine ⟨kept.imp ?_ ?_, by linarith⟩
  · intro same
    rw [← same]
    linarith
  · intro low
    linarith

end Roomy

end Context

namespace Constants

open Context

theorem wideRange_roomy {precision : Nat} (least : 6 ≤ precision) (most : precision ≤ 110) :
    (wideRange precision).Roomy where
  toWorking := wideRange_working least most
  below := by
    show (-999999 : Int) ≤ -(3 * precision + 5)
    omega
  above := by
    show (precision : Int) + 5 ≤ 999999
    omega

/-- Whether half of `π` is about half of what `π` is taken for. -/
def Halved (k : Constants) : Prop :=
  99 / 100 * (k.pi.value / 2) ≤ k.halfPi.value ∧ k.halfPi.value ≤ 101 / 100 * (k.pi.value / 2)

/-- The constants of a working precision are found. -/
theorem derive_settles {precision : Nat} (least : 6 ≤ precision) (most : precision ≤ 105) :
    Settles Halved (derive precision) := by
  have roomy := wideRange_roomy (show 6 ≤ precision + 5 by omega) (by omega)
  have precise := roomy.precise
  have tiny := (wideRange (precision + 5)).grain_pos
  have fine := roomy.fine
  have bottom := roomy.bottom_le
  have large {x : ℚ} (low : 1 / 10 ≤ x) : 7 / 2 * 10 ^ (wideRange (precision + 5)).least ≤ x ^ 3 := by
    have power : (1 / 10 : ℚ) ^ 3 ≤ x ^ 3 := pow_le_pow_left₀ (by norm_num) low 3
    norm_num at power
    linarith
  apply roomy.rootTwo_settles.andThen
  rintro rootTwo ⟨rooted, low, high⟩
  apply (roomy.atanReduced_settles (x := one) rfl (by rw [value_one]; norm_num) value_one.le
    (large (by rw [value_one]; norm_num))).andThen
  rintro quarter ⟨angle, wide, under⟩
  have wide : 1 / 30 ≤ quarter.value := wide.elim (fun low => by rw [value_one] at low; linarith only [low]) id
  apply (roomy.times_settles (q := 4) (by norm_num) angle (by linarith only [wide]) (by linarith only [under])).andThen
  rintro pi ⟨circle, low₀, high₀⟩
  apply (roomy.settles (sub_gives precise rooted (y := one) rfl) (by rw [value_one]; linarith only [low])
    (by rw [value_one]; linarith only [high])).andThen
  rintro above ⟨numerator, low₁, high₁⟩
  apply (roomy.settles (add_gives precise rooted (y := one) rfl) (by rw [value_one]; linarith only [low])
    (by rw [value_one]; linarith only [high])).andThen
  rintro below ⟨denominator, low₂, high₂⟩
  rw [value_one] at low₁ high₁ low₂ high₂
  have divides : 0 < below.value := by linarith only [low, low₂]
  have tenth : 11 / 100 ≤ above.value / below.value := by
    rw [le_div_iff₀ divides]
    linarith only [low, high, low₁, high₂]
  have fifth : above.value / below.value ≤ 19 / 100 := by
    rw [div_le_iff₀ divides]
    linarith only [low, high, high₁, low₂]
  apply (roomy.settles (div_gives precise numerator denominator divides.ne') (by linarith only [tenth])
    (by linarith only [fifth])).andThen
  rintro ratio ⟨divided, low₃, high₃⟩
  apply (roomy.atanhSeries_settles divided (by linarith only [tenth, low₃]) (by linarith only [fifth, high₃])
    (large (by linarith only [tenth, low₃]))).andThen
  rintro sum ⟨summed, near⟩
  obtain ⟨low₄, high₄⟩ := abs_le.mp near
  apply (roomy.times_settles (q := 4) (by norm_num) summed (by linarith only [tenth, low₃, low₄])
    (by linarith only [fifth, high₃, high₄])).andThen
  rintro lnTwo ⟨two, low₅, high₅⟩
  have low₅ : 1 / 3 ≤ lnTwo.value := by linarith only [tenth, low₃, low₄, low₅]
  have high₅ : lnTwo.value ≤ 1 := by linarith only [fifth, high₃, high₄, high₅]
  have nine : (ofInt 9).value = 9 := by rw [value_ofInt, Int.cast_ofNat]
  apply (roomy.settles (div_gives precise (x := one) (y := ofInt 9) rfl rfl (by rw [nine]; norm_num))
    (by rw [value_one, nine]; norm_num) (by rw [value_one, nine]; norm_num)).andThen
  rintro ninth ⟨ninths, low₆, high₆⟩
  rw [value_one, nine] at low₆ high₆
  apply (roomy.times_settles (q := 3) (by norm_num) two (by linarith only [low₅]) (by linarith only [high₅])).andThen
  rintro thrice ⟨tripled, low₇, high₇⟩
  apply (roomy.atanhSeries_settles ninths (by linarith only [low₆]) (by linarith only [high₆])
    (large (by linarith only [low₆]))).andThen
  rintro sum ⟨summed, near⟩
  obtain ⟨low₈, high₈⟩ := abs_le.mp near
  apply (roomy.times_settles (q := 2) (by norm_num) summed (by linarith only [low₆, low₈])
    (by linarith only [high₆, high₈])).andThen
  rintro twice ⟨doubled, low₉, high₉⟩
  apply (roomy.settles (add_gives precise tripled doubled) (by linarith only [low₅, low₆, low₇, low₈, low₉])
    (by linarith only [high₅, high₆, high₇, high₈, high₉])).andThen
  intro lnTen _
  apply (roomy.expSeries_settles (x := one) rfl (by rw [value_one]; norm_num) (.inr (by
    rw [value_one]
    norm_num
    linarith only [fine, bottom]))).andThen
  intro e _
  have halves : (ofInt 2).value = 2 := by rw [value_ofInt, Int.cast_ofNat]
  apply (roomy.settles (div_gives precise (y := ofInt 2) circle rfl (by rw [halves]; norm_num))
    (by rw [halves]; linarith only [wide, low₀]) (by rw [halves]; linarith only [under, high₀])).andThen
  rintro halfPi ⟨_, half⟩
  rw [halves] at half
  apply (roomy.times_settles (q := 2) (by norm_num) circle (by linarith only [wide, low₀])
    (by linarith only [under, high₀])).andThen
  intro twoPi _
  exact .ok half

theorem fortyDigits_halved : fortyDigits.Halved := by
  rw [Halved, fortyDigits, value_finite, value_finite]
  norm_num [signed]

theorem ofPrecision_settles {precision : Nat} (least : 6 ≤ precision) (most : precision ≤ 105) :
    Settles Halved (ofPrecision precision) :=
  .ite (fun _ => .ok fortyDigits_halved) fun _ => derive_settles least most

end Constants

/-! ### Work with guard digits -/

theorem lift_concludes {β : Type} {granted : Signal → Prop} {named : Failure → Prop} {holds : β → Prop}
    {result : Except Signal β} (concludes : Concludes granted holds result)
    (names : ∀ signal, granted signal → named (.signal signal)) :
    Concludes named holds (liftM result : Computed β) :=
  concludes.mapError names

theorem lift_settles {β : Type} {named : Failure → Prop} {holds : β → Prop} {result : Except Signal β}
    (settles : Settles holds result) : Concludes named holds (liftM result : Computed β) :=
  lift_concludes settles fun _ => False.elim

/-- A function concludes as its work does with the constants that are found, and as the last rounding does. -/
theorem Context.guarded_concludes {c : Context} {granted : Failure → Prop} {suits : Constants → Prop}
    {kept holds : Decimal → Prop} {compute : Context → Constants → Computed Decimal}
    (constants : Settles suits (Constants.ofPrecision (c.widen guardDigits).precision))
    (works : ∀ k, suits k → Concludes granted kept (compute (c.widen guardDigits) k))
    (finish : ∀ z, kept z → Concludes granted holds (liftM (c.plus z) : Computed Decimal)) :
    Concludes granted holds (c.guarded compute) :=
  (lift_settles constants).andThen fun k suits => (works k suits).andThen fun z held => finish z held

end Reckoner.Decimal

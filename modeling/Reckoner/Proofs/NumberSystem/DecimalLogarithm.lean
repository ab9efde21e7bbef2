import Reckoner.Proofs.Decimal.Logarithm
import Reckoner.Proofs.NumberSystem.DecimalOverflow
import Reckoner.Proofs.NumberSystem.DecimalRoots

/-! The logarithm of decimals to base ten is exact on the powers of ten. Without its place a power of ten is one,
whose own logarithm is found as zero; a multiple of the logarithm of ten is left, which is divided by it again, and
the last rounding takes what the other ones have left of an error. -/

namespace Reckoner.Decimal

theorem Short.ofInt {digits : Nat} {n : ℤ} (few : |n| < 10 ^ digits) : Short digits n := ⟨n, 0, few, by simp⟩

namespace Context

variable {c : Context}

theorem Gives.settles_exactly (precise : 0 < c.precision) {q : ℚ} {outcome : Except Signal Decimal}
    (gives : c.Gives q outcome) (spans : c.Spans q) (short : Short c.precision q) :
    Settles (fun z => z.isFinite = true ∧ z.value = q) outcome := by
  apply (gives.settles_of_spans precise spans).mono
  intro _ rounding
  exact ⟨rounding.isFinite, spans.1.value_eq rounding short⟩

theorem Gives.settles_zero (precise : 0 < c.precision) {q : ℚ} {outcome : Except Signal Decimal}
    (gives : c.Gives q outcome) (zero : q = 0) : Settles (fun z => z.isFinite = true ∧ z.value = 0) outcome := by
  subst zero
  exact gives.settles_exactly precise (Spans.zero c) (by exact_mod_cast Short.ofInt (n := 0) (by positivity))

namespace Roomy

variable (roomy : c.Roomy)
include roomy

/-- The series of the inverse hyperbolic tangent has no term that counts at zero. -/
theorem atanhSeries_zero {y : Decimal} (given : y.isFinite = true) (zero : y.value = 0) :
    Settles (fun sum => sum.total.isFinite = true ∧ sum.total.value = 0) (c.atanhSeries y) := by
  have precise := roomy.precise
  apply ((mul_gives precise given given).settles_zero precise (by rw [zero, zero_mul])).andThen
  rintro square ⟨squared, empty⟩
  have continues : c.Continues (fun index power => do
      let power ← c.mul power square
      return (power, ← c.div power (ofInt (2 * index + 1))))
      (fun _ factor total => factor = 0 ∧ total = 0) (· = 0) := by
    rintro index factor counted - carried total ⟨vanishes, rfl⟩
    apply ((mul_gives precise carried squared).settles_zero precise (by rw [empty, mul_zero])).andThen
    rintro power ⟨found, nothing⟩
    have divides : (ofInt (2 * index + 1)).value ≠ 0 := by
      rw [value_ofInt]
      exact_mod_cast (show 2 * (index : ℤ) + 1 ≠ 0 by omega)
    apply ((div_gives precise found rfl divides).settles_zero precise (by rw [nothing, zero_div])).andThen
    rintro term ⟨sound, blank⟩
    refine .ok ⟨found, sound, ?_, ?_, ?_⟩
    · rw [blank]
      exact Spans.zero c
    · rw [blank, add_zero]
      exact Spans.zero c
    · intro sum rounding
      have rounded := rounding.rounded
      rw [blank, add_zero, round_zero] at rounded
      have value := Except.ok.inj rounded
      exact ⟨value.symm, fun _ => ⟨nothing, value.symm⟩⟩
  exact sumSeries_settles roomy continues given ⟨zero, zero⟩ zero

theorem nearLog_one {m : Decimal} (given : m.isFinite = true) (unit : m.value = 1) :
    Settles (fun z => z.isFinite = true ∧ z.value = 0)
      ((do c.div (← c.sub m one) (← c.add m one)) >>= fun ratio => do
        c.mul (ofInt 2) (← c.atanhSeries ratio).total) := by
  have precise := roomy.precise
  have least := roomy.least
  refine Concludes.andThen (?_ : Settles (fun z : Decimal => z.isFinite = true ∧ z.value = 0) _) ?_
  · apply ((sub_gives precise given (y := one) rfl).settles_zero precise (by rw [unit, value_one, sub_self])).andThen
    rintro a ⟨subtracted, zero⟩
    have two : m.value + one.value = ((2 : ℤ) : ℚ) := by
      rw [unit, value_one]
      norm_num
    have spans : c.Spans (m.value + one.value) := by
      rw [two]
      refine roomy.spans_of_grain ?_ (by norm_num)
      norm_num
      linarith [roomy.fine]
    have short : Short c.precision (m.value + one.value) := by
      rw [two]
      have power : 2 < 10 ^ c.precision :=
        (show 2 < 10 ^ 6 by norm_num).trans_le (Nat.pow_le_pow_right (by decide) least)
      exact Short.ofInt (by exact_mod_cast power)
    apply ((add_gives precise given (y := one) rfl).settles_exactly precise spans short).andThen
    rintro b ⟨added, sum⟩
    refine (div_gives precise subtracted added ?_).settles_zero precise (by rw [zero, zero_div])
    rw [sum, two]
    norm_num
  · rintro ratio ⟨found, zero⟩
    apply (roomy.atanhSeries_zero found zero).andThen
    rintro sum ⟨summed, empty⟩
    exact (mul_gives precise (x := ofInt 2) rfl summed).settles_zero precise (by rw [empty, mul_zero])

section
variable {k : Constants} (natural : k.Natural c.precision) (finite : k.AllFinite) (wide : 999999 ≤ c.greatest)
include natural finite wide

omit finite in
theorem tens_spans {tens : ℤ} (few : |tens| ≤ 999999) : c.Spans (tens * k.lnTen.value) := by
  obtain ⟨low, high⟩ := lnTen_bounds roomy.toWorking natural
  have deep := roomy.deep
  by_cases zero : tens = 0
  · rw [zero, Int.cast_zero, zero_mul]
    exact Spans.zero c
  have least : (1 : ℚ) ≤ |(tens : ℚ)| := by exact_mod_cast Int.one_le_abs zero
  have most : |(tens : ℚ)| ≤ 999999 := by exact_mod_cast few
  refine spans_of_le (show c.least ≤ -1 by omega) (show 7 ≤ c.greatest by omega) ?_ ?_
  · rw [abs_mul, abs_of_pos (by linarith : 0 < k.lnTen.value)]
    norm_num
    nlinarith
  · rw [abs_mul, abs_of_pos (by linarith : 0 < k.lnTen.value)]
    norm_num
    nlinarith

omit natural finite in
theorem scale_tens {x : Decimal} (given : x.isFinite = true) {tens : ℤ} (power : x.value = 10 ^ tens)
    (few : |tens| ≤ 999999) : Settles (fun m => m.isFinite = true ∧ m.value = 1) (c.scale x (-tens)) := by
  have precise := roomy.precise
  have above := roomy.above
  have deep := roomy.deep
  have short : Short c.precision (1 : ℚ) := by
    exact_mod_cast Short.ofInt (n := 1) (by exact_mod_cast Nat.one_lt_pow precise.ne' (by decide))
  have spans : c.Spans 1 :=
    spans_of_le (show c.least ≤ 0 by omega) (show 0 ≤ c.greatest by omega) (by norm_num) (by norm_num)
  have scaled := scale_gives precise given (show ((-tens).natAbs : Int) ≤ 2 * (c.greatest + c.precision) by
    rw [Int.natAbs_neg]
    rw [Int.abs_eq_natAbs] at few
    omega)
  rw [power, ← zpow_add₀ (by norm_num), add_neg_cancel, zpow_zero] at scaled
  exact scaled.settles_exactly precise spans short

omit wide in
/-- One is below the root of two, so that no power of two is taken off it. -/
theorem halveToRoot_one {m : Decimal} (found : m.isFinite = true) (one : m.value = 1) :
    Settles (· = (0, m)) (c.halveToRoot k halvingBound 0 m) := by
  have above := (rootTwo_bounds roomy.toWorking natural).1
  have less : ¬ k.rootTwo.value < m.value := by
    rw [one]
    linarith
  rw [show halvingBound = 7 + 1 from rfl, halveToRoot, isLess_eq finite.rootTwo found, decide_eq_false less]
  exact .ok rfl

/-- A multiple of the logarithm of ten is added to nothing within two roundings. -/
theorem addTens_zero {near : Decimal} (sound : near.isFinite = true) (nothing : near.value = 0) {tens : ℤ}
    (few : |tens| ≤ 999999) :
    Settles (fun z => z.isFinite = true ∧ c.Spans z.value ∧ Within (11 * c.grain) z.value (tens * k.lnTen.value))
      (do
        let sum ← c.add near (← c.mul (ofInt (0 : Nat)) k.lnTwo)
        c.add sum (← c.mul (ofInt tens) k.lnTen)) := by
  have precise := roomy.precise
  have fine := roomy.fine
  have tiny := c.grain_pos
  apply ((mul_gives precise (x := ofInt (0 : Nat)) rfl finite.lnTwo).settles_zero precise (by
    rw [value_ofInt]
    simp)).andThen
  rintro twos ⟨counted, empty⟩
  apply ((add_gives precise sound counted).settles_zero precise (by rw [nothing, empty, add_zero])).andThen
  rintro sum ⟨summed, zero⟩
  have multiple := mul_gives precise (x := ofInt tens) rfl finite.lnTen
  rw [value_ofInt] at multiple
  have spans := roomy.tens_spans natural wide few
  apply (multiple.settles_of_spans precise spans).andThen
  intro ten rounding
  have inside := spans.of_rounding precise rounding
  have total := add_gives precise summed rounding.isFinite
  rw [zero, zero_add] at total
  apply (total.settles_of_spans precise inside).mono
  intro z added
  refine ⟨added.isFinite, inside.of_rounding precise added, ?_⟩
  refine ((inside.1.within added).trans (spans.1.within rounding) (by positivity)).mono ?_
  nlinarith

/-- The logarithm of a power of ten is a multiple of the logarithm of ten up to two roundings. -/
theorem lnWork_tens {x : Decimal} (given : x.isFinite = true) {tens : ℤ} (power : x.value = 10 ^ tens)
    (few : |tens| ≤ 999999) :
    Settles (fun z => z.isFinite = true ∧ c.Spans z.value ∧ Within (11 * c.grain) z.value (tens * k.lnTen.value))
      (c.lnWork k x) := by
  have positive : 0 < x.value := by
    rw [power]
    exact pow_ten_pos tens
  have place : x.adjusted = tens := by
    rw [adjusted_eq given positive.ne', abs_of_pos positive, power]
    exact log_eq le_rfl (zpow_lt_zpow_right₀ (by norm_num) (by omega))
  unfold lnWork
  rw [isAtMost_eq given rfl, value_zero, decide_eq_false (not_le.mpr positive), place]
  apply (lift_settles (roomy.scale_tens wide given power few)).andThen
  rintro m ⟨found, one⟩
  apply (lift_settles (roomy.halveToRoot_one natural finite found one)).andThen
  intro made same
  subst same
  have step : Settles (fun z => z.isFinite = true ∧ c.Spans z.value ∧
        Within (11 * c.grain) z.value (tens * k.lnTen.value))
      (liftM (((do c.div (← c.sub m Decimal.one) (← c.add m Decimal.one)) >>= fun ratio => do
        c.mul (ofInt 2) (← c.atanhSeries ratio).total) >>= fun near => do
        let sum ← c.add near (← c.mul (ofInt (0 : Nat)) k.lnTwo)
        c.add sum (← c.mul (ofInt tens) k.lnTen)) : Computed Decimal) :=
    lift_settles ((roomy.nearLog_one found one).andThen fun near ⟨sound, nothing⟩ =>
      roomy.addTens_zero natural finite wide sound nothing few)
  simpa only [liftM_bind_eq, bind_assoc] using step

/-- Divided by the logarithm of ten, it is the exponent up to three roundings. -/
theorem log10Work_tens {x : Decimal} (given : x.isFinite = true) {tens : ℤ} (power : x.value = 10 ^ tens)
    (few : |tens| ≤ 999999) :
    Settles (fun z => z.isFinite = true ∧ c.Spans z.value ∧ Within (17 * c.grain) z.value tens)
      (do c.div (← c.lnWork k x) k.lnTen : Computed Decimal) := by
  have precise := roomy.precise
  have fine := roomy.fine
  have tiny := c.grain_pos
  have deep := roomy.deep
  have positive : 0 < k.lnTen.value := by linarith [(lnTen_bounds roomy.toWorking natural).1]
  apply (roomy.lnWork_tens natural finite wide given power few).andThen
  rintro y ⟨sound, _, near⟩
  have ratio := near.div_right k.lnTen.value
  rw [mul_div_cancel_right₀ _ positive.ne'] at ratio
  have spans : c.Spans (y.value / k.lnTen.value) := by
    by_cases zero : tens = 0
    · rw [zero, Int.cast_zero] at ratio
      rw [ratio.eq_zero]
      exact Spans.zero c
    have least : (1 : ℚ) ≤ |(tens : ℚ)| := by exact_mod_cast Int.one_le_abs zero
    have most : |(tens : ℚ)| ≤ 999999 := by exact_mod_cast few
    obtain ⟨low, high⟩ := ratio.abs.bounds (abs_nonneg _)
    refine spans_of_le (show c.least ≤ -1 by omega) (show 7 ≤ c.greatest by omega) ?_ ?_
    · norm_num
      nlinarith
    · norm_num
      nlinarith
  apply (lift_settles ((div_gives precise sound finite.lnTen positive.ne').settles_of_spans precise spans)).mono
  intro z rounding
  refine ⟨rounding.isFinite, spans.of_rounding precise rounding, ?_⟩
  refine ((spans.1.within rounding).trans ratio (by positivity)).mono ?_
  nlinarith

end

end Roomy

theorem Ample.log10_tens (ample : c.Ample) (least : 6 ≤ c.precision) (wide : 999999 ≤ c.greatest) {x : Decimal}
    (given : x.isFinite = true) {tens : ℤ} (power : x.value = 10 ^ tens) (few : |tens| ≤ 999999) :
    Settles (fun r => r.value = (tens : ℚ)) (c.log10 x) := by
  have precise := ample.positive
  apply Context.guarded_concludes ample.constants_settles (fun k ⟨_, suits, natural⟩ =>
    ample.roomy.log10Work_tens natural suits.finite wide given power few)
  rintro z ⟨sound, spans, near⟩
  apply (lift_settles ((plus_gives precise sound).settles_of_spans precise spans)).mono
  intro r rounding
  by_cases zero : tens = 0
  · rw [zero, Int.cast_zero] at near ⊢
    have rounded := rounding.rounded
    rw [near.eq_zero, round_zero] at rounded
    exact (Except.ok.inj rounded).symm
  have tiny : (0 : ℝ) < (c.widen guardDigits).grain := Rat.cast_pos.mpr (grain_pos _)
  have short : Short c.precision (tens : ℚ) := by
    refine Short.ofInt (lt_of_le_of_lt few ?_)
    exact lt_of_lt_of_le (by norm_num) (pow_le_pow_right₀ (by norm_num) least)
  have root := near.cast
  push_cast at root
  exact round_eq_root precise (Int.cast_ne_zero.mpr zero) (root.mono (by linarith)) spans.1 rounding short
    (by norm_num)

end Context

end Reckoner.Decimal

namespace Reckoner.NumberSystem.Decimals

open Reckoner.Decimal

/-- At six or more digits the logarithm to base ten of every power of ten in the range is found, and is its exponent,
however many zeros the coefficient has. -/
theorem log10_of_power {precision : Int} {c : Decimal.Context} (given : context? precision defaultRange = some c)
    (least : 6 ≤ precision) {coefficient : Nat} {exponent tens : Int}
    (power : (coefficient : ℚ) * 10 ^ exponent = 10 ^ tens) (few : |tens| ≤ 999999) :
    ∃ r, c.log10 (.finite false coefficient exponent) = .ok r ∧ r.value = (tens : ℚ) := by
  have range : defaultRange = 999999 := rfl
  have most : precision ≤ 100 := by
    have guarded := Context.guarded_of_context? given (by decide)
    obtain ⟨_, rfl⟩ := context?_eq_some given
    have most : precision.toNat ≤ 100 := guarded.most
    omega
  have ample := ample_of_context? given (by omega)
  obtain ⟨_, rfl⟩ := context?_eq_some given
  have value : (Decimal.finite false coefficient exponent).value = 10 ^ tens := by
    rw [Context.value_finite, Context.signed_eq]
    simpa using power
  have least : 6 ≤ precision.toNat := by omega
  exact (ample.log10_tens least (show (999999 : Int) ≤ 999999 by decide) rfl value few).exists_eq

/-- A thousandth at six digits, written with two zeros. -/
theorem log10_of_power_sample : context? 6 defaultRange = some ⟨6, -999999, 999999, true⟩ ∧
    ((100 : ℕ) : ℚ) * 10 ^ (-5 : ℤ) = 10 ^ (-3 : ℤ) ∧
    ∃ r, Decimal.Context.log10 ⟨6, -999999, 999999, true⟩ (.finite false 100 (-5)) = .ok r ∧ r.value = -3 := by
  have given : context? 6 defaultRange = some ⟨6, -999999, 999999, true⟩ := rfl
  have power : ((100 : ℕ) : ℚ) * 10 ^ (-5 : ℤ) = 10 ^ (-3 : ℤ) := by norm_num
  obtain ⟨r, computed, same⟩ := log10_of_power given (by decide) power (by decide)
  exact ⟨given, power, r, computed, same.trans (by norm_num)⟩

end Reckoner.NumberSystem.Decimals

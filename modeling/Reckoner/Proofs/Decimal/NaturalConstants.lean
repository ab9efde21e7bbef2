import Reckoner.Proofs.Decimal.Circle
import Mathlib.Analysis.SpecialFunctions.Log.Basic

/-! The constants of the exponential function and the logarithm. Those that are computed for a working precision
are near the logarithms of two and of ten and the root of two, and so are those that are kept to forty digits,
which are compared with computed ones. -/

namespace Reckoner.Decimal

/-! ### Logarithms of neighbours -/

/-- Numbers above a bound have logarithms no further apart than they are, as parts of the bound. -/
theorem abs_log_sub_le {low u v : ℝ} (positive : 0 < low) (first : low ≤ u) (second : low ≤ v) :
    |Real.log u - Real.log v| ≤ |u - v| / low := by
  have bound {a b : ℝ} (above : low ≤ a) (beyond : low ≤ b) : Real.log a - Real.log b ≤ |a - b| / low := by
    have size : 0 < b := positive.trans_le beyond
    have tangent := Real.log_le_sub_one_of_pos (div_pos (positive.trans_le above) size)
    rw [Real.log_div (positive.trans_le above).ne' size.ne', ← div_self size.ne', ← sub_div] at tangent
    refine tangent.trans (div_le_div₀ (abs_nonneg _) (le_abs_self _) positive beyond)
  refine abs_le.mpr ⟨?_, bound first second⟩
  have other := bound second first
  rw [abs_sub_comm] at other
  linarith

theorem artanh_eq {x : ℝ} (small : |x| < 1) : Real.artanh x = (Real.log (1 + x) - Real.log (1 - x)) / 2 := by
  obtain ⟨low, high⟩ := abs_lt.mp small
  rw [Real.artanh_eq_half_log ⟨low.le, high.le⟩, Real.log_div (by linarith) (by linarith)]
  ring

/-- Near zero the inverse hyperbolic tangent has a slope of little more than one. -/
theorem abs_artanh_sub_le {x y : ℝ} (first : |x| ≤ 1 / 5) (second : |y| ≤ 1 / 5) :
    |Real.artanh x - Real.artanh y| ≤ 5 / 4 * |x - y| := by
  obtain ⟨low, high⟩ := abs_le.mp first
  obtain ⟨low', high'⟩ := abs_le.mp second
  have above := abs_log_sub_le (show (0 : ℝ) < 4 / 5 by norm_num) (show 4 / 5 ≤ 1 + x by linarith)
    (show 4 / 5 ≤ 1 + y by linarith)
  have below := abs_log_sub_le (show (0 : ℝ) < 4 / 5 by norm_num) (show 4 / 5 ≤ 1 - y by linarith)
    (show 4 / 5 ≤ 1 - x by linarith)
  rw [add_sub_add_left_eq_sub] at above
  rw [sub_sub_sub_cancel_left] at below
  rw [artanh_eq (by linarith), artanh_eq (by linarith)]
  have split : (Real.log (1 + x) - Real.log (1 - x)) / 2 - (Real.log (1 + y) - Real.log (1 - y)) / 2 =
      ((Real.log (1 + x) - Real.log (1 + y)) + (Real.log (1 - y) - Real.log (1 - x))) / 2 := by ring
  rw [split, abs_div, abs_of_pos (by norm_num : (0 : ℝ) < 2)]
  have sum := abs_add_le (Real.log (1 + x) - Real.log (1 + y)) (Real.log (1 - y) - Real.log (1 - x))
  linarith

/-- What is near the inverse hyperbolic tangent of a number is near that of its neighbour. -/
theorem artanh_near {x y s apart error : ℝ} (first : |x| ≤ 1 / 5) (second : |y| ≤ 1 / 5) (close : |x - y| ≤ apart)
    (near : |s - Real.artanh x| ≤ error) : |s - Real.artanh y| ≤ error + 5 / 4 * apart := by
  have slope := abs_artanh_sub_le first second
  exact (abs_sub_le _ (Real.artanh x) _).trans (by linarith)

/-- The argument of the inverse hyperbolic tangent that gives the logarithm of two. -/
theorem artanh_root_two : 4 * Real.artanh ((√2 - 1) / (√2 + 1)) = Real.log 2 := by
  have low : (1 : ℝ) ≤ √2 := Real.one_le_sqrt.mpr (by norm_num)
  have positive : (0 : ℝ) < √2 + 1 := by linarith
  have size : (√2 - 1) / (√2 + 1) ∈ Set.Icc (-1 : ℝ) 1 := by
    constructor
    · rw [le_div_iff₀ positive]
      linarith
    · rw [div_le_one positive]
      linarith
  have ratio : (1 + (√2 - 1) / (√2 + 1)) / (1 - (√2 - 1) / (√2 + 1)) = √2 := by
    field_simp
    ring
  rw [Real.artanh_eq_half_log size, ratio, Real.log_sqrt (by norm_num)]
  ring

theorem root_ratio_le : |(√2 - 1) / (√2 + 1)| ≤ 1 / 5 := by
  have low : (1 : ℝ) ≤ √2 := Real.one_le_sqrt.mpr (by norm_num)
  have high : √2 ≤ (3 / 2 : ℝ) := Real.sqrt_le_iff.mpr (by norm_num)
  have positive : (0 : ℝ) < √2 + 1 := by linarith
  rw [abs_of_nonneg (div_nonneg (by linarith) positive.le), div_le_iff₀ positive]
  linarith

theorem artanh_ninth_le : Real.artanh (1 / 9) ≤ 1 := by
  have slope := abs_artanh_sub_le (x := 1 / 9) (y := 0) (by rw [abs_of_pos (by norm_num)]; norm_num) (by simp)
  rw [Real.artanh_zero, sub_zero, sub_zero, abs_of_pos (by norm_num : (0 : ℝ) < 1 / 9)] at slope
  linarith [le_abs_self (Real.artanh (1 / 9))]

theorem log_ten_eq : 3 * Real.log 2 + 2 * Real.artanh (1 / 9) = Real.log 10 := by
  have product : (10 : ℝ) = 2 ^ 3 * ((1 + 1 / 9) / (1 - 1 / 9)) := by norm_num
  rw [Real.artanh_eq_half_log (by norm_num [Set.mem_Icc]), product, Real.log_mul (by norm_num) (by norm_num),
    Real.log_pow]
  push_cast
  ring

theorem log_ten_lt : Real.log 10 < 23105 / 10000 := by
  have power : Real.log (10 ^ 3) ≤ Real.log (2 ^ 10) := Real.log_le_log (by norm_num) (by norm_num)
  rw [Real.log_pow, Real.log_pow] at power
  push_cast at power
  linarith [Real.log_two_lt_d9]

theorem one_lt_log_ten : 1 < Real.log 10 := by
  rw [Real.lt_log_iff_exp_lt (by norm_num)]
  linarith [Real.exp_one_lt_d9]

/-! ### The constants -/

namespace Constants

open Context

/-- Whether the logarithms of two and ten and the root of two are within so many units of an error. -/
structure Near (error : ℝ) (k : Constants) : Prop where
  lnTwo : |(k.lnTwo.value : ℝ) - Real.log 2| ≤ 1080 * error
  lnTen : |(k.lnTen.value : ℝ) - Real.log 10| ≤ 3800 * error
  rootTwo : |(k.rootTwo.value : ℝ) - √2| ≤ 18 * error

/-- The argument for the logarithm of two is found within a few roundings. -/
theorem ratio_reaches {c : Context} (working : c.Working) {rootTwo above below : Decimal}
    (near : |(rootTwo.value : ℝ) - √2| ≤ 18 * c.grain) (subtracted : c.IsRounding (rootTwo.value - one.value) above)
    (added : c.IsRounding (rootTwo.value + one.value) below) :
    Reaches (fun z => z.isFinite = true ∧ |z.value| ≤ 1 / 5 ∧
        |(z.value : ℝ) - (√2 - 1) / (√2 + 1)| ≤ 12 * c.grain) (c.div above below) := by
  have precise := working.precise
  have fine := working.fine_real
  have tiny : (0 : ℝ) < c.grain := Rat.cast_pos.mpr c.grain_pos
  have low : (141 / 100 : ℝ) ≤ √2 := Real.le_sqrt_of_sq_le (by norm_num)
  have high : √2 ≤ (142 / 100 : ℝ) := Real.sqrt_le_iff.mpr (by norm_num)
  obtain ⟨least, most⟩ := abs_le.mp near
  rw [value_one] at subtracted added
  have size : |(rootTwo.value : ℝ) - 1| < 1 := abs_lt.mpr ⟨by linarith, by linarith⟩
  have first := working.near subtracted 0 (by exact_mod_cast size)
  have size : |(rootTwo.value : ℝ) + 1| < 10 := abs_lt.mpr ⟨by linarith, by linarith⟩
  have second := working.near added 1 (by exact_mod_cast size)
  push_cast at first second
  rw [pow_zero] at first
  rw [pow_one] at second
  obtain ⟨low₁, high₁⟩ := abs_le.mp first
  obtain ⟨low₂, high₂⟩ := abs_le.mp second
  have denominator : (24 / 10 : ℝ) ≤ below.value := by linarith
  have positive : (0 : ℝ) < below.value := by linarith
  have nonzero : below.value ≠ 0 := by exact_mod_cast positive.ne'
  have exactly : |(above.value : ℝ) / below.value - (√2 - 1) / (√2 + 1)| ≤ 11 * c.grain := by
    have bottom : (0 : ℝ) < √2 + 1 := by linarith
    have split : (above.value : ℝ) / below.value - (√2 - 1) / (√2 + 1) =
        ((above.value - (√2 - 1)) - (√2 - 1) / (√2 + 1) * (below.value - (√2 + 1))) / below.value := by
      field_simp
      ring
    have top : |(above.value : ℝ) - (√2 - 1)| ≤ 37 / 2 * c.grain := abs_le.mpr ⟨by linarith, by linarith⟩
    have other : |(below.value : ℝ) - (√2 + 1)| ≤ 23 * c.grain := abs_le.mpr ⟨by linarith, by linarith⟩
    have product := mul_le_mul root_ratio_le other (abs_nonneg _) (by norm_num)
    rw [← abs_mul] at product
    rw [split, abs_div, abs_of_pos positive, div_le_iff₀ positive]
    refine (abs_sub _ _).trans ?_
    nlinarith
  have fits : |(above.value : ℝ) / below.value| < 19 / 100 := by
    rw [abs_div, abs_of_pos positive, div_lt_iff₀ positive, abs_of_pos (by linarith)]
    linarith
  have fits : |above.value / below.value| < 19 / 100 := by
    have cast : ((|above.value / below.value| : ℚ) : ℝ) < ((19 / 100 : ℚ) : ℝ) := by
      push_cast
      exact fits
    exact Rat.cast_lt.mp cast
  apply (div_reaches precise subtracted.isFinite added.isFinite nonzero).mono
  intro z divided
  have rounded := working.near divided 0 (by linarith)
  have moved := divided.near working.deep 0 (by linarith)
  push_cast at rounded
  rw [pow_zero] at rounded moved
  refine ⟨divided.isFinite, ?_, ?_⟩
  · linarith [abs_sub_abs_le_abs_sub z.value (above.value / below.value), working.fine]
  · exact (abs_sub_le _ ((above.value : ℝ) / below.value) _).trans (by linarith)

theorem ninth_near {c : Context} (working : c.Working) {ninth : Decimal} (divided : c.IsRounding (1 / 9) ninth) :
    |ninth.value| ≤ 1 / 5 ∧ |(ninth.value : ℝ) - 1 / 9| ≤ c.grain := by
  have fine := working.fine
  have tiny := c.grain_pos
  have near := divided.near working.deep 0 (by rw [abs_of_pos (by norm_num)]; norm_num)
  rw [pow_zero] at near
  obtain ⟨low, high⟩ := abs_le.mp near
  refine ⟨abs_le.mpr ⟨by linarith, by linarith⟩, ?_⟩
  have close := abs_cast_le (show |ninth.value - 1 / 9| ≤ c.grain by linarith)
  push_cast at close
  exact close

/-- The sum of three times the logarithm of two and the rest is near the logarithm of ten. -/
theorem lnTen_sum_near {c : Context} (working : c.Working) {thrice twice lnTen : Decimal}
    (first : |(thrice.value : ℝ) - 3 * Real.log 2| ≤ 3250 * c.grain)
    (second : |(twice.value : ℝ) - 2 * Real.artanh (1 / 9)| ≤ 515 * c.grain)
    (added : c.IsRounding (thrice.value + twice.value) lnTen) :
    |(lnTen.value : ℝ) - Real.log 10| ≤ 3800 * c.grain := by
  have fine := working.fine_real
  have tiny : (0 : ℝ) < c.grain := Rat.cast_pos.mpr c.grain_pos
  have exactly := log_ten_eq
  have size : |(thrice.value : ℝ) + twice.value| < 10 := by
    obtain ⟨low, high⟩ := abs_le.mp first
    obtain ⟨low', high'⟩ := abs_le.mp second
    exact abs_lt.mpr ⟨by linarith [one_lt_log_ten], by linarith [log_ten_lt]⟩
  have rounded := working.near added 1 (by
    refine (Rat.cast_lt (K := ℝ)).mp ?_
    push_cast
    rwa [pow_one])
  push_cast at rounded
  rw [← exactly]
  have split : (lnTen.value : ℝ) - (3 * Real.log 2 + 2 * Real.artanh (1 / 9)) =
      (lnTen.value - (thrice.value + twice.value)) + (thrice.value - 3 * Real.log 2) +
        (twice.value - 2 * Real.artanh (1 / 9)) := by ring
  rw [split]
  refine (abs_add_three _ _ _).trans ?_
  linarith

theorem derive_near {precision : Nat} (least : 6 ≤ precision) (most : precision ≤ 105) :
    Reaches (Near (wideRange (precision + 5)).grain) (derive precision) := by
  have working := wideRange_working (show 6 ≤ precision + 5 by omega) (by omega)
  have precise := working.precise
  have fine := working.fine_real
  have tiny : (0 : ℝ) < (wideRange (precision + 5)).grain := Rat.cast_pos.mpr (grain_pos _)
  have two : |((ofInt 2).value : ℝ) - 2| ≤ 10 * (wideRange (precision + 5)).grain := by
    rw [value_ofInt, Int.cast_ofNat, Rat.cast_ofNat, sub_self, abs_zero]
    linarith
  have positive : 0 < Real.log 2 := Real.log_pos (by norm_num)
  have small := Real.log_two_lt_d9
  apply (working.sqrt_reaches rfl (by norm_num) le_rfl two).andThen
  rintro rootTwo ⟨rooted, root⟩
  apply working.atanReduced_reaches.andThen
  rintro quarter ⟨angle, _⟩
  apply (mul_reaches precise rfl angle).andThen
  intro pi circle
  apply (sub_reaches precise rooted rfl).andThen
  intro above subtracted
  apply (add_reaches precise rooted rfl).andThen
  intro below added
  -- The logarithm of two is four times an inverse hyperbolic tangent.
  apply (ratio_reaches working root subtracted added).andThen
  rintro ratio ⟨divided, fifth, close⟩
  apply (working.atanhSeries_reaches divided fifth).andThen
  rintro sum ⟨summed, total⟩
  have quarter := artanh_near ((abs_cast_le fifth).trans_eq (by norm_num)) root_ratio_le close total
  rw [eq_div_of_mul_eq (by norm_num : (4 : ℝ) ≠ 0) ((mul_comm _ _).trans artanh_root_two)] at quarter
  apply (mul_reaches precise rfl summed).andThen
  intro lnTwo twos
  rw [value_ofInt] at twos
  have first := working.multiple_near (n := 4) twos quarter (by
    rw [abs_of_pos (by linarith)]
    push_cast
    linarith)
  push_cast at first
  rw [mul_div_cancel₀ _ (by norm_num : (4 : ℝ) ≠ 0)] at first
  -- The logarithm of ten is three times that of two and twice another one.
  apply (div_reaches precise rfl rfl (by rw [value_ofInt]; norm_num)).andThen
  intro ninth ninths
  rw [value_one, value_ofInt, Int.cast_ofNat] at ninths
  obtain ⟨fifth, close⟩ := ninth_near working ninths
  apply (mul_reaches precise rfl twos.isFinite).andThen
  intro thrice tripled
  rw [value_ofInt] at tripled
  have second := working.multiple_near (n := 3) tripled first (by
    rw [abs_of_pos positive]
    push_cast
    linarith)
  apply (working.atanhSeries_reaches ninths.isFinite fifth).andThen
  rintro sum ⟨summed, total⟩
  have ninth : |(1 / 9 : ℝ)| ≤ 1 / 5 := by rw [abs_of_pos] <;> norm_num
  have whole := artanh_near ((abs_cast_le fifth).trans_eq (by norm_num)) ninth close total
  apply (mul_reaches precise rfl summed).andThen
  intro twice doubled
  rw [value_ofInt] at doubled
  have third := working.multiple_near (n := 2) doubled whole (by
    rw [abs_of_nonneg (Real.artanh_nonneg (by norm_num))]
    push_cast
    linarith [artanh_ninth_le])
  push_cast at second third
  apply (add_reaches precise tripled.isFinite doubled.isFinite).andThen
  intro lnTen tens
  have last := lnTen_sum_near working (by linarith) (by linarith) tens
  apply (expSeries_reaches precise rfl).andThen
  intro e base
  apply (div_reaches precise circle.isFinite rfl (by rw [value_ofInt]; norm_num)).andThen
  intro halfPi half
  apply (mul_reaches precise rfl circle.isFinite).andThen
  intro twoPi double
  exact .ok ⟨by linarith, last, root⟩

theorem derive_fortyOne : (derive 41).toOption.map (fun k => (k.lnTwo, k.lnTen, k.rootTwo)) =
    some (.finite false 6931471805599453094172321214581765680755001336 (-46),
      .finite false 2302585092994045684017991454684364207601101486 (-45),
      .finite false 1414213562373095048801688724209698078569671875 (-45)) := by
  decide +kernel

/-- Whether the logarithm of two is good to more than so many digits, and that of ten and the root of two to so
many. -/
structure Natural (digits : Nat) (k : Constants) : Prop where
  lnTwo : |(k.lnTwo.value : ℝ) - Real.log 2| ≤ 1 / 50 * 10 ^ (-(digits : ℤ))
  lnTen : |(k.lnTen.value : ℝ) - Real.log 10| ≤ 2 * 10 ^ (-(digits : ℤ))
  rootTwo : |(k.rootTwo.value : ℝ) - √2| ≤ 5 * 10 ^ (-(digits : ℤ))

theorem Near.natural {digits : Nat} {k : Constants} (near : Near (wideRange (digits + 5)).grain k) :
    k.Natural digits := by
  have unit : (0 : ℝ) < 10 ^ (-(digits : ℤ)) := by positivity
  obtain ⟨two, ten, root⟩ := near
  rw [wideRange_grain] at two ten root
  exact ⟨by linarith, by linarith, by linarith⟩

theorem fortyDigits_natural {digits : Nat} (few : digits ≤ 40) : fortyDigits.Natural digits := by
  have coarse : (10 : ℝ) ^ (-40 : ℤ) ≤ 10 ^ (-(digits : ℤ)) := zpow_le_zpow_right₀ (by norm_num) (by omega)
  have unit : (0 : ℝ) < 10 ^ (-40 : ℤ) := by positivity
  obtain ⟨k, found, same⟩ := Option.map_eq_some_iff.mp derive_fortyOne
  obtain ⟨two, ten, root⟩ := (derive_near (by decide) (by decide)).yields k (eq_ok_of_toOption found)
  have grain : ((wideRange (41 + 5)).grain : ℝ) = 10 ^ (-40 : ℤ) / 10 ^ 6 := by
    rw [Context.grain, show (wideRange (41 + 5)).precision = 46 from rfl]
    norm_num
  obtain ⟨first, rest⟩ := Prod.mk.inj same
  obtain ⟨second, third⟩ := Prod.mk.inj rest
  rw [grain, first, value_finite] at two
  rw [grain, second, value_finite] at ten
  rw [grain, third, value_finite] at root
  have kept : fortyDigits.lnTwo.value = 6931471805599453094172321214581765680755 * 10 ^ (-40 : ℤ) ∧
      fortyDigits.lnTen.value = 2302585092994045684017991454684364207601 * 10 ^ (-39 : ℤ) ∧
      fortyDigits.rootTwo.value = 1414213562373095048801688724209698078570 * 10 ^ (-39 : ℤ) := by
    refine ⟨?_, ?_, ?_⟩ <;> rw [fortyDigits, value_finite] <;> rfl
  refine ⟨?_, ?_, ?_⟩
  · have bounds := abs_le.mp two
    rw [kept.1, abs_le]
    norm_num [signed] at bounds coarse ⊢
    constructor <;> linarith
  · have bounds := abs_le.mp ten
    rw [kept.2.1, abs_le]
    norm_num [signed] at bounds coarse ⊢
    constructor <;> linarith
  · have bounds := abs_le.mp root
    rw [kept.2.2, abs_le]
    norm_num [signed] at bounds coarse ⊢
    constructor <;> linarith

theorem ofPrecision_natural {precision : Nat} (least : 6 ≤ precision) (most : precision ≤ 105) :
    Reaches (Natural precision) (ofPrecision precision) := by
  refine .ite (fun few => .ok (fortyDigits_natural few)) ?_
  intro _
  apply (derive_near least most).mono
  intro _ near
  exact near.natural

end Constants

/-! ### In a context -/

namespace Context

variable {c : Context} (working : c.Working) {k : Constants} (natural : k.Natural c.precision)
include natural

theorem lnTwo_near : |(k.lnTwo.value : ℝ) - Real.log 2| ≤ 1 / 50 * c.grain := by
  rw [grain]
  push_cast
  exact natural.lnTwo

theorem lnTen_near : |(k.lnTen.value : ℝ) - Real.log 10| ≤ 2 * c.grain := by
  rw [grain]
  push_cast
  exact natural.lnTen

theorem rootTwo_near : |(k.rootTwo.value : ℝ) - √2| ≤ 5 * c.grain := by
  rw [grain]
  push_cast
  exact natural.rootTwo

include working

theorem lnTwo_bounds : 69 / 100 ≤ k.lnTwo.value ∧ k.lnTwo.value ≤ 7 / 10 := by
  have fine := working.fine_real
  have low := Real.log_two_gt_d9
  have high := Real.log_two_lt_d9
  obtain ⟨least, most⟩ := abs_le.mp (lnTwo_near natural)
  constructor
  · refine (Rat.cast_le (K := ℝ)).mp ?_
    push_cast
    linarith
  · refine (Rat.cast_le (K := ℝ)).mp ?_
    push_cast
    linarith

theorem lnTen_bounds : 9 / 10 ≤ k.lnTen.value ∧ k.lnTen.value ≤ 23106 / 10000 := by
  have fine := working.fine_real
  obtain ⟨least, most⟩ := abs_le.mp (lnTen_near natural)
  constructor
  · refine (Rat.cast_le (K := ℝ)).mp ?_
    push_cast
    linarith [one_lt_log_ten]
  · refine (Rat.cast_le (K := ℝ)).mp ?_
    push_cast
    linarith [log_ten_lt]

theorem rootTwo_bounds : 1414 / 1000 ≤ k.rootTwo.value ∧ k.rootTwo.value ≤ 1415 / 1000 := by
  have fine := working.fine_real
  have low : (14141 / 10000 : ℝ) ≤ √2 := Real.le_sqrt_of_sq_le (by norm_num)
  have high : √2 ≤ (14143 / 10000 : ℝ) := Real.sqrt_le_iff.mpr (by norm_num)
  obtain ⟨least, most⟩ := abs_le.mp (rootTwo_near natural)
  constructor
  · refine (Rat.cast_le (K := ℝ)).mp ?_
    push_cast
    linarith
  · refine (Rat.cast_le (K := ℝ)).mp ?_
    push_cast
    linarith

end Context

end Reckoner.Decimal

import Reckoner.Library.Functions
import Reckoner.Proofs.Binary64.Ratios
import Reckoner.Proofs.Decimal.Text
import Reckoner.Proofs.NumberSystem.IntegerUnbounded

/-! Logarithms of whole numbers to a second argument. Both natural logarithms are truncated before they are divided,
and of the numbers from two on, two alone has a natural logarithm below one. -/

namespace Reckoner.Binary64

open Float.Model (UnpackedFloat)

variable {log : Float → Float} {x : Float}

/-- Whether a function of doubles is within a hundredth of the natural logarithm, from one on. -/
structure NearLogarithm (log : Float → Float) : Prop where
  finite : ∀ {x : Float}, x.isFinite = true → 1 ≤ value x → (log x).isFinite = true
  near : ∀ {x : Float}, x.isFinite = true → 1 ≤ value x → |(value (log x) : ℝ) - Real.log (value x)| ≤ 1 / 100

theorem value_of_beq_zero (finite : x.isFinite = true) (same : (x == 0.0) = true) : value x = 0 := by
  have compared : UnpackedFloat.beq x.toModel.unpack (.zero .positive) = true := same
  rw [value]
  rcases (isDouble x).cases finite with ⟨sign, zero⟩ | ⟨sign, n, place, some, parts, -⟩
  · rw [zero, unpackedValue_zero]
  · rw [parts] at compared
    cases sign <;> cases compared

theorem log_ofInt_bounds {n : Int} (positive : 1 ≤ n) (small : n < 2 ^ 1023) :
    (ofInt n).isFinite = true ∧ 1 ≤ value (ofInt n) ∧ 0 ≤ Real.log (value (ofInt n)) ∧
      Real.log (value (ofInt n)) ≤ n ∧ (n ≤ 2 → Real.log (value (ofInt n)) ≤ Real.log 2) ∧
      (3 ≤ n → Real.log 3 ≤ Real.log (value (ofInt n))) := by
  have nonneg : (0 : ℚ) ≤ n := by exact_mod_cast (by omega : 0 ≤ n)
  have large : (n : ℚ) ≤ 2 ^ 1023 := (Int.cast_le.mpr small.le).trans_eq (by rw [Int.cast_pow, Int.cast_ofNat])
  obtain ⟨finite, faithful⟩ : Represents n (ofInt n) := ofInt_represents ((abs_of_nonneg nonneg).trans_le large)
  have atLeast {low : Int} (below : low ≤ n) (short : |low| ≤ 2 ^ 53) : (low : ℚ) ≤ value (ofInt n) :=
    faithful.ge_of_ge (fits_intCast short) (by exact_mod_cast below)
  have one : 1 ≤ value (ofInt n) := by exact_mod_cast atLeast positive (by decide)
  have some : (0 : ℝ) < value (ofInt n) := by exact_mod_cast zero_lt_one.trans_le one
  -- The number is less than the power of two with itself for an exponent.
  have power : (value (ofInt n) : ℝ) ≤ 2 ^ n := by
    suffices bound : value (ofInt n) ≤ 2 ^ n by simpa using (Rat.cast_le (K := ℝ)).mpr bound
    refine faithful.le_of_le (fits_pow (by omega)) ?_
    obtain ⟨m, rfl⟩ := Int.eq_ofNat_of_zero_le (by omega : 0 ≤ n)
    exact_mod_cast Nat.lt_two_pow_self.le
  have upper : Real.log (value (ofInt n)) ≤ n := calc
    Real.log (value (ofInt n)) ≤ Real.log (2 ^ n) := Real.log_le_log some power
    _ = n * Real.log 2 := Real.log_zpow 2 n
    _ ≤ n := mul_le_of_le_one_right (by exact_mod_cast nonneg) (Real.log_two_lt_d9.le.trans (by norm_num))
  refine ⟨finite, one, Real.log_nonneg (by exact_mod_cast one), upper, ?_, ?_⟩
  · intro few
    have two : value (ofInt n) ≤ (2 : ℤ) := faithful.le_of_le (fits_intCast (by decide)) (by exact_mod_cast few)
    exact Real.log_le_log some (by exact_mod_cast two)
  · intro many
    have three : (3 : ℝ) ≤ value (ofInt n) := by exact_mod_cast atLeast many (by decide)
    exact Real.log_le_log (by norm_num) three

namespace NearLogarithm

theorem logarithm_eq (near : NearLogarithm log) (finite : x.isFinite = true) (atLeast : 1 ≤ value x) :
    logarithm log x = .ok (log x) := by
  have apart : ¬ (x == 0.0) = true := fun zero => by
    rw [value_of_beq_zero finite zero] at atLeast
    exact absurd atLeast (by decide)
  have result := near.finite finite atLeast
  rw [logarithm, if_neg apart, withPoles]
  simp only [isNaN_of_isFinite result, isInf_of_isFinite result, Bool.false_and, Bool.or_self, Bool.false_eq_true,
    if_false]

/-- The natural logarithm of a whole number is between zero and the number but for the hundredth, and below one just
for one and two. -/
theorem whole_bounds (near : NearLogarithm log) {n : Int} (positive : 1 ≤ n) (small : n < 2 ^ 1023) :
    (log (ofInt n)).isFinite = true ∧ logarithm log (ofInt n) = .ok (log (ofInt n)) ∧
      -1 < value (log (ofInt n)) ∧ value (log (ofInt n)) < n + 1 ∧ (value (log (ofInt n)) < 1 ↔ n ≤ 2) := by
  obtain ⟨finite, one, lower, upper, few, many⟩ := log_ofInt_bounds positive small
  obtain ⟨down, up⟩ := abs_le.mp (near.near finite one)
  refine ⟨near.finite finite one, near.logarithm_eq finite one, ?_, ?_, ?_, ?_⟩
  · have real : (-1 : ℝ) < value (log (ofInt n)) := by linarith
    exact_mod_cast real
  · have real : (value (log (ofInt n)) : ℝ) < n + 1 := by linarith
    exact_mod_cast real
  · intro below
    by_contra long
    have greater := many (not_le.mp long)
    have real : (value (log (ofInt n)) : ℝ) < 1 := by exact_mod_cast below
    linarith [Real.log_three_gt_d9]
  · intro short
    have less := few short
    have real : (value (log (ofInt n)) : ℝ) < 1 := by linarith [Real.log_two_lt_d9]
    exact_mod_cast real

end NearLogarithm

/-! ### The nearest logarithm -/

/-- The units in the natural logarithm of a double from one on, of which there are `2 ^ 80` in one. -/
noncomputable def logarithmUnits (x : Float) : Nat := ⌊Real.log (value x) * (2 ^ 80 : ℕ)⌋₊

/-- The nearest double of the natural logarithm, without the fraction of its units. -/
noncomputable def nearestLogarithm (x : Float) : Float := ofRatio false (logarithmUnits x) (2 ^ 80)

theorem log_value_le (finite : x.isFinite = true) (atLeast : 1 ≤ value x) : Real.log (value x) ≤ 2 ^ 10 := by
  have bound : value x < 2 ^ 1024 := (le_abs_self _).trans_lt (abs_value_lt finite)
  have real : (value x : ℝ) ≤ 2 ^ 1024 := by simpa using (Rat.cast_le (K := ℝ)).mpr bound.le
  calc
    Real.log (value x) ≤ Real.log (2 ^ 1024) := Real.log_le_log (by exact_mod_cast zero_lt_one.trans_le atLeast) real
    _ = (1024 : ℕ) * Real.log 2 := Real.log_pow _ _
    _ ≤ 2 ^ 10 := by norm_num; linarith [Real.log_two_lt_d9]

theorem logarithmUnits_near (finite : x.isFinite = true) (atLeast : 1 ≤ value x) :
    ((logarithmUnits x : ℚ) / (2 ^ 80 : ℕ) : ℚ) ≤ 2 ^ 10 ∧
      |(((logarithmUnits x : ℚ) / (2 ^ 80 : ℕ) : ℚ) : ℝ) - Real.log (value x)| ≤ 1 / (2 ^ 80 : ℕ) := by
  have nonneg : 0 ≤ Real.log (value x) := Real.log_nonneg (by exact_mod_cast atLeast)
  have unit : (0 : ℝ) < (2 ^ 80 : ℕ) := Nat.cast_pos.mpr (Nat.two_pow_pos 80)
  have below : (logarithmUnits x : ℝ) / (2 ^ 80 : ℕ) ≤ Real.log (value x) :=
    (div_le_iff₀ unit).mpr (Nat.floor_le (mul_nonneg nonneg unit.le))
  have above : Real.log (value x) ≤ (logarithmUnits x + 1) / (2 ^ 80 : ℕ) :=
    (le_div_iff₀ unit).mpr (Nat.lt_floor_add_one _).le
  have cast : (((logarithmUnits x : ℚ) / (2 ^ 80 : ℕ) : ℚ) : ℝ) = logarithmUnits x / (2 ^ 80 : ℕ) := by
    rw [Rat.cast_div, Rat.cast_natCast, Rat.cast_natCast]
  rw [add_div] at above
  constructor
  · have real := cast.trans_le (below.trans (log_value_le finite atLeast))
    exact_mod_cast real
  · rw [cast]
    exact abs_le.mpr ⟨by linarith, by linarith⟩

theorem nearestLogarithm_represents (finite : x.isFinite = true) (atLeast : 1 ≤ value x) :
    Represents ((logarithmUnits x : ℚ) / (2 ^ 80 : ℕ)) (nearestLogarithm x) := by
  obtain ⟨small, -⟩ := logarithmUnits_near finite atLeast
  exact ofRatio_represents false _ (by decide) (small.trans (pow_le_pow_right₀ one_le_two (by decide)))

theorem nearLogarithm_nearestLogarithm : NearLogarithm nearestLogarithm := by
  refine ⟨fun finite atLeast => (nearestLogarithm_represents finite atLeast).1, ?_⟩
  intro x finite atLeast
  obtain ⟨small, near⟩ := logarithmUnits_near finite atLeast
  have short : |(logarithmUnits x : ℚ) / (2 ^ 80 : ℕ)| < 2 ^ 53 * 2 ^ (-8 : ℤ) := by
    rw [abs_of_nonneg (by positivity)]
    exact small.trans_lt (by norm_num)
  have rounded := (nearestLogarithm_represents finite atLeast).2.near (by decide) short
  have real : |(value (nearestLogarithm x) : ℝ) - ((logarithmUnits x : ℚ) / (2 ^ 80 : ℕ) : ℚ)| ≤ 2 ^ (-8 : ℤ) := by
    simpa only [Rat.cast_abs, Rat.cast_sub, Rat.cast_zpow, Rat.cast_ofNat] using (Rat.cast_le (K := ℝ)).mpr rounded
  exact (abs_sub_le _ _ _).trans ((add_le_add real near).trans (by norm_num))

theorem nearestLogarithm_mono {y : Float} (finite : y.isFinite = true) (atLeast : 1 ≤ value x)
    (ordered : value x ≤ value y) : value (nearestLogarithm x) ≤ value (nearestLogarithm y) := by
  obtain ⟨small, -⟩ := logarithmUnits_near finite (atLeast.trans ordered)
  have real : Real.log (value x) ≤ Real.log (value y) :=
    Real.log_le_log (by exact_mod_cast zero_lt_one.trans_le atLeast) (by exact_mod_cast ordered)
  have units : logarithmUnits x ≤ logarithmUnits y :=
    Nat.floor_mono (mul_le_mul_of_nonneg_right real (by positivity))
  refine value_ofRatio_mono (by decide) (by decide) ?_ (small.trans (pow_le_pow_right₀ one_le_two (by decide)))
  exact div_le_div_of_nonneg_right (by exact_mod_cast units) (Nat.cast_nonneg _)

end Reckoner.Binary64

namespace Reckoner.NumberSystem.Integer

open Reckoner.Library
open Binary64 (NearLogarithm nearLogarithm_nearestLogarithm nearestLogarithm nearestLogarithm_mono value)
open Decimal (truncated truncated_lt_iff)

/-- The natural logarithm of whole numbers, by one of doubles. -/
def naturalLogarithm (width : Width) (log : Float → Float) : List Int → Outcome Int :=
  floatPath (system width) Elementary.ln.name (Binary64.onArgument (Binary64.logarithm log))

/-- The natural logarithm of a whole number without its fraction. -/
def wholeLogarithm (log : Float → Float) (n : Int) : Int := truncated (value (log (Binary64.ofInt n)))

variable {log : Float → Float} {width : Width} {n : Int}

theorem wholeLogarithm_bounds (near : NearLogarithm log) (positive : 1 ≤ n) (small : n < 2 ^ 1023) :
    0 ≤ wholeLogarithm log n ∧ wholeLogarithm log n ≤ n ∧ (wholeLogarithm log n = 0 ↔ n ≤ 2) := by
  obtain ⟨-, -, above, below, less⟩ := near.whole_bounds positive small
  have nonneg : ¬ wholeLogarithm log n < 0 := by
    rw [wholeLogarithm, truncated_lt_iff, if_neg (by decide)]
    push_cast
    linarith
  have most : wholeLogarithm log n < n + 1 := by
    rw [wholeLogarithm, truncated_lt_iff, if_pos (by omega)]
    exact_mod_cast below
  have zero : wholeLogarithm log n < 1 ↔ n ≤ 2 := by
    rw [wholeLogarithm, truncated_lt_iff, if_pos (by decide), Int.cast_one]
    exact less
  exact ⟨by omega, by omega, by omega⟩

theorem naturalLogarithm_eq (near : NearLogarithm log) (admitted : width.admits n = true) (positive : 1 ≤ n)
    (small : n < 2 ^ 1023) : naturalLogarithm width log [n] = .ok (wholeLogarithm log n) := by
  obtain ⟨finite, found, -⟩ := near.whole_bounds positive small
  obtain ⟨nonneg, most, -⟩ := wholeLogarithm_bounds near positive small
  have double : (system width).toFloat n = .ok (Binary64.ofInt n) :=
    toDouble_of_abs_lt width (by rwa [abs_of_nonneg (by omega)])
  have path : naturalLogarithm width log [n] = ofDouble width (log (Binary64.ofInt n)) := by
    rw [naturalLogarithm, floatPath]
    simp only [List.mapM_cons, List.mapM_nil, double, bind, Except.bind, pure, Except.pure, Binary64.onArgument, found]
    rfl
  rw [path, ofDouble, if_pos finite, Binary64.toInt_eq _ finite]
  exact if_pos (Width.admits_of_le admitted nonneg most)

theorem logarithmRatio_eq (near : NearLogarithm log) (zero one : Int) {x b : Int} (first : width.admits x = true)
    (second : width.admits b = true) (positive : 1 ≤ x) (some : 1 ≤ b) (short : x < 2 ^ 1023) (small : b < 2 ^ 1023) :
    (⟨system width, zero, one⟩ : Base Int).logarithmRatio (naturalLogarithm width log) x b =
      (system width).div (wholeLogarithm log x) (wholeLogarithm log b) := by
  rw [Base.logarithmRatio, naturalLogarithm_eq near first positive short, naturalLogarithm_eq near second some small]
  rfl

/-- Logarithms from one on to a base from two on have a pole at the base two, and no other one. -/
theorem logarithm_pole (near : NearLogarithm log) (zero one : Int) {x b : Int} (first : width.admits x = true)
    (second : width.admits b = true) (positive : 1 ≤ x) (large : 2 ≤ b) (short : x < 2 ^ 1000) (small : b < 2 ^ 1000) :
    let base : Base Int := ⟨system width, zero, one⟩
    base.logarithm [x, b] = base.logarithmRatio (naturalLogarithm width Float.log) x b ∧
      base.logarithmRatio (naturalLogarithm width log) x b =
        if b = 2 then .error divisionByZero else .ok ((wholeLogarithm log x).tdiv (wholeLogarithm log b)) := by
  intro base
  have range : (2 : Int) ^ 1000 ≤ 2 ^ 1023 := pow_le_pow_right₀ (by decide) (by decide)
  obtain ⟨nonneg, most, -⟩ := wholeLogarithm_bounds near positive (short.trans_le range)
  obtain ⟨above, -, pole⟩ := wholeLogarithm_bounds near (by omega) (small.trans_le range)
  refine ⟨rfl, (logarithmRatio_eq near zero one first second positive (by omega) (short.trans_le range)
    (small.trans_le range)).trans ?_⟩
  split
  · rename_i two
    rw [pole.mpr two.le]
    rfl
  · rename_i more
    have some : wholeLogarithm log b ≠ 0 := fun none => more (le_antisymm (pole.mp none) large)
    have fits : width.admits ((wholeLogarithm log x).tdiv (wholeLogarithm log b)) = true := by
      refine Width.admits_of_le first (Int.tdiv_nonneg nonneg above) (le_trans ?_ most)
      exact Int.tdiv_le_self _ nonneg
    show quotient _ _ >>= checkResult width = _
    rw [quotient, if_neg some]
    exact if_pos fits

/-- With the nearest logarithm, eight has one to the base three. -/
theorem logarithm_pole_sample :
    let width : Width := ⟨some 8⟩
    NearLogarithm nearestLogarithm ∧ width.admits 8 = true ∧ width.admits 3 = true ∧
      (⟨system width, 0, 1⟩ : Base Int).logarithmRatio (naturalLogarithm width nearestLogarithm) 8 3 =
        .ok ((wholeLogarithm nearestLogarithm 8).tdiv (wholeLogarithm nearestLogarithm 3)) := by
  intro width
  have near := nearLogarithm_nearestLogarithm
  have first : width.admits 8 = true := by decide
  have second : width.admits 3 = true := by decide
  have power : (2 : Int) ^ 4 ≤ 2 ^ 1000 := pow_le_pow_right₀ (by decide) (by decide)
  obtain ⟨-, ratio⟩ := logarithm_pole near 0 1 first second (by decide) (by decide)
    ((by decide : (8 : Int) < 2 ^ 4).trans_le power) ((by decide : (3 : Int) < 2 ^ 4).trans_le power)
  exact ⟨near, first, second, ratio⟩

/-- A logarithm that does not decrease and is near enough has a pole at the base two. -/
theorem logarithm_to_two :
    NearLogarithm nearestLogarithm ∧
      (∀ x y : Float, y.isFinite = true → 1 ≤ value x → value x ≤ value y →
        value (nearestLogarithm x) ≤ value (nearestLogarithm y)) ∧
      (⟨system ⟨none⟩, 0, 1⟩ : Base Int).logarithmRatio (naturalLogarithm ⟨none⟩ nearestLogarithm) 8 2 =
        .error divisionByZero := by
  have near := nearLogarithm_nearestLogarithm
  refine ⟨near, fun _ _ => nearestLogarithm_mono, ?_⟩
  have power : (2 : Int) ^ 4 ≤ 2 ^ 1023 := pow_le_pow_right₀ (by decide) (by decide)
  have two : (2 : Int) < 2 ^ 1023 := (by decide : (2 : Int) < 2 ^ 4).trans_le power
  have eight : (8 : Int) < 2 ^ 1023 := (by decide : (8 : Int) < 2 ^ 4).trans_le power
  obtain ⟨-, -, pole⟩ := wholeLogarithm_bounds near (by decide) two
  rw [logarithmRatio_eq near 0 1 rfl rfl (by decide) (by decide) eight two, pole.mpr le_rfl]
  rfl

end Reckoner.NumberSystem.Integer

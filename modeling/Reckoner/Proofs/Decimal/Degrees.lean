import Reckoner.Proofs.Decimal.Angle

/-! The sine and the cosine in degrees. Multiples of 180 are found exactly and have the sine zero; the zeros of
the cosine are found after a quarter turn is taken off, which is rounded. Of other angles of few digits the
cosine is not so small that it could be lost. -/

namespace Reckoner.Decimal

theorem remainder_eq_zero_iff {d : ℚ} (nonzero : d ≠ 0) (q : ℚ) : remainder q d = 0 ↔ ∃ j : ℤ, q = d * j := by
  constructor
  · intro zero
    exact ⟨_, sub_eq_zero.mp zero⟩
  · rintro ⟨j, rfl⟩
    have whole : truncated (j : ℚ) = j := by
      unfold truncated
      split <;> simp
    rw [remainder, mul_div_cancel_left₀ _ nonzero, whole, sub_self]

namespace Context

variable {c : Context} {k : Constants} {x : Decimal}

/-- In a context that reports what is too small, only zero is rounded to zero. -/
theorem round_eq_zero_iff (precise : 0 < c.precision) (refuses : c.refusesSubnormal = true) {q r : ℚ}
    (rounded : c.round q = .ok r) : r = 0 ↔ q = 0 := by
  constructor
  · rintro rfl
    by_contra nonzero
    have first := least_le_of_round refuses rounded nonzero
    have positive := abs_pos.mpr nonzero
    have large := le_abs_round precise (by rw [tiniest]; omega) (pow_log_le positive) rounded
    rw [abs_zero] at large
    exact absurd (pow_ten_pos _) (not_lt.mpr large)
  · rintro rfl
    rw [round_zero] at rounded
    exact (Except.ok.inj rounded).symm

section
variable (working : c.Working) (refuses : c.refusesSubnormal = true) (suits : c.Suits k)
  (given : x.isFinite = true)
include working refuses suits given

omit suits in
theorem halfTurn_reaches :
    Reaches (fun z => z.isFinite = true ∧ (z.value = 0 ↔ ∃ j : ℤ, x.value = 180 * j)) (c.rem x (ofInt 180)) := by
  apply (rem_reaches working.precise given rfl).mono
  intro z divided
  refine ⟨divided.isFinite, ?_⟩
  rw [value_ofInt, Int.cast_ofNat] at divided
  rw [round_eq_zero_iff working.precise refuses divided.rounded, remainder_eq_zero_iff (by norm_num)]

/-- The sine in degrees is exactly zero for multiples of 180, and near the sine for other angles. -/
theorem sinWork_reaches :
    Reaches (fun z => z.isFinite = true ∧ ((∃ j : ℤ, x.value = 180 * j) ∧ z.value = 0 ∨
      (¬ ∃ j : ℤ, x.value = 180 * j) ∧
        |(z.value : ℝ) - Real.sin (x.value * Real.pi / 180)| ≤ 70000 * c.grain)) (c.sinWork k true x) := by
  unfold sinWork
  rw [if_pos rfl]
  apply (halfTurn_reaches working refuses given).andThen
  rintro rest ⟨finite', exactly⟩
  rw [isEqual_eq finite' rfl, value_zero]
  refine .ite (fun whole => .ok ⟨rfl, .inl ⟨exactly.mp (of_decide_eq_true whole), value_zero⟩⟩) ?_
  intro other
  apply (suits.sinReduced_reaches working given).mono
  intro z near
  refine ⟨near.1, .inr ⟨?_, near.2⟩⟩
  exact fun multiple => other (decide_eq_true (exactly.mpr multiple))

/-- The cosine in degrees is exactly zero if a quarter turn less is rounded to a multiple of 180, and near the
cosine for other angles. -/
theorem cosWork_reaches :
    Reaches (fun z => z.isFinite = true ∧ ∃ shifted, c.round (x.value - 90) = .ok shifted ∧
      ((∃ j : ℤ, shifted = 180 * j) ∧ z.value = 0 ∨
        (¬ ∃ j : ℤ, shifted = 180 * j) ∧
          |(z.value : ℝ) - Real.cos (x.value * Real.pi / 180)| ≤ 70000 * c.grain)) (c.cosWork k true x) := by
  unfold cosWork
  rw [if_pos rfl]
  apply (sub_reaches working.precise given rfl).andThen
  intro shifted turned
  rw [value_ofInt, Int.cast_ofNat] at turned
  apply (halfTurn_reaches working refuses turned.isFinite).andThen
  rintro rest ⟨finite', exactly⟩
  rw [isEqual_eq finite' rfl, value_zero]
  refine .ite (fun whole => .ok ⟨rfl, shifted.value, turned.rounded, .inl ⟨?_, value_zero⟩⟩) ?_
  · exact exactly.mp (of_decide_eq_true whole)
  · intro other
    apply (suits.cosReduced_reaches working given).mono
    intro z near
    refine ⟨near.1, shifted.value, turned.rounded, .inr ⟨?_, near.2⟩⟩
    exact fun multiple => other (decide_eq_true (exactly.mpr multiple))

end

end Context

/-! ### The cosine near its zeros -/

/-- The cosine is the sine of the distance from one of its zeros, up to its sign. -/
theorem abs_cos_degrees (angle : ℝ) (m : ℤ) :
    |Real.cos (angle * Real.pi / 180)| = |Real.sin ((angle - 90 * (2 * m + 1)) * Real.pi / 180)| := by
  have split : angle * Real.pi / 180 =
      ((angle - 90 * (2 * m + 1)) * Real.pi / 180 + Real.pi / 2) + m * Real.pi := by ring
  have sign : |((-1 : ℝ) ^ m)| = 1 := by rw [abs_zpow, abs_neg, abs_one, one_zpow]
  rw [split, Real.cos_add_int_mul_pi, Real.cos_add_pi_div_two, abs_mul, abs_neg, sign, one_mul]

theorem le_abs_sin_degrees {d : ℝ} (close : |d| ≤ 90) : |d| / 90 ≤ |Real.sin (d * Real.pi / 180)| := by
  have turn : |d * Real.pi / 180| = |d| * Real.pi / 180 := by
    rw [abs_div, abs_mul, abs_of_pos Real.pi_pos, abs_of_pos (by norm_num : (0 : ℝ) < 180)]
  have quarter : |d * Real.pi / 180| ≤ Real.pi / 2 := by
    rw [turn]
    linarith [mul_le_mul_of_nonneg_right close Real.pi_pos.le]
  have chord := Real.mul_abs_le_abs_sin quarter
  have split : 2 / Real.pi * |d * Real.pi / 180| = |d| / 90 := by
    rw [turn]
    field_simp
    ring
  rwa [split] at chord

/-! ### Angles of few digits -/

/-- Whether a number has so many digits at most, apart from zeros at its end. -/
def Short (digits : Nat) (q : ℚ) : Prop := ∃ n e : ℤ, |n| < 10 ^ digits ∧ q = n * 10 ^ e

theorem short_of_significant {digits coefficient : Nat} (positive : 0 < digits)
    (significant : Significant digits coefficient) (negative : Bool) (exponent : Int) :
    Short digits (finite negative coefficient exponent).value := by
  obtain ⟨m, zeros, rfl, few⟩ := significant
  refine ⟨Context.signed negative m, exponent + zeros, ?_, ?_⟩
  · have below := (Numeral.digitCount_le_iff positive).mp few
    have size : |Context.signed negative m| = m := by
      cases negative <;> simp [Context.signed]
    rw [size]
    exact_mod_cast below
  · rw [Context.value_finite, Context.signed_eq, Context.signed_eq, zpow_add₀ (by norm_num), zpow_natCast]
    cases negative <;> simp only [Bool.false_eq_true, if_true, if_false] <;> push_cast <;> ring

theorem one_lt_places {digits : Nat} {n e : ℤ} (few : |n| < 10 ^ digits) (large : 10 ≤ |(n : ℚ) * 10 ^ e|) :
    1 < (digits : ℤ) + e := by
  have few : |(n : ℚ)| < 10 ^ digits := by exact_mod_cast few
  have below : |(n : ℚ) * 10 ^ e| < 10 ^ (digits + e) := by
    rw [abs_mul, abs_of_pos (pow_ten_pos e), zpow_add₀ (by norm_num), zpow_natCast]
    exact mul_lt_mul_of_pos_right few (pow_ten_pos e)
  have long : (10 : ℚ) ^ (1 : ℤ) < 10 ^ (digits + e) := by
    rw [zpow_one]
    exact large.trans_lt below
  exact (zpow_lt_zpow_iff_right₀ (by norm_num)).mp long

/-- Whether an angle is an odd multiple of 90 degrees. -/
def OddRightAngle (q : ℚ) : Prop := ∃ j : ℤ, q = 90 * (2 * j + 1)

namespace Short

variable {digits : Nat} {q : ℚ} (short : Short digits q)
include short

theorem oddRightAngle_lt (odd : OddRightAngle q) : |q| < 10 ^ (digits + 1) := by
  obtain ⟨n, e, few, same⟩ := short
  obtain ⟨j, rfl⟩ := odd
  have few : |(n : ℚ)| < 10 ^ digits := by exact_mod_cast few
  have least : e ≤ 1 := by
    by_contra large
    obtain ⟨k, rfl⟩ : ∃ k : Nat, e = k + 2 := ⟨(e - 2).toNat, by omega⟩
    have whole : 90 * (2 * j + 1) = n * 10 ^ k * 100 := by
      rw [zpow_add₀ (by norm_num), zpow_natCast] at same
      norm_num at same
      rw [← mul_assoc] at same
      exact_mod_cast same
    omega
  have power : (10 : ℚ) ^ e ≤ 10 := (zpow_le_zpow_right₀ (by norm_num) least).trans_eq (zpow_one _)
  rw [same, abs_mul, abs_of_pos (pow_ten_pos e), pow_succ]
  exact mul_lt_mul few power (pow_ten_pos e) (by positivity)

/-- A number of few digits is far from the multiples of 90 but zero that it is not. -/
theorem distance_le (positive : 0 < digits) {j : ℤ} (turned : j ≠ 0) (other : q ≠ 90 * j) :
    (10 : ℚ) ^ (2 - (digits : ℤ)) ≤ |q - 90 * j| := by
  obtain ⟨n, e, few, rfl⟩ := short
  have right : (90 : ℚ) * j = (9 * j : ℤ) * 10 ^ (1 : ℤ) := by
    push_cast
    ring
  by_cases far : 10 ≤ |(n : ℚ) * 10 ^ e - 90 * j|
  · have power : (10 : ℚ) ^ (2 - (digits : ℤ)) ≤ 10 ^ (1 : ℤ) := zpow_le_zpow_right₀ (by norm_num) (by omega)
    exact power.trans ((zpow_one _).trans_le far)
  have close := not_le.mp far
  -- The number is about ninety at least.
  have size : (80 : ℚ) < |(n : ℚ) * 10 ^ e| := by
    have least : (1 : ℚ) ≤ |(j : ℚ)| := by exact_mod_cast Int.one_le_abs turned
    have large : (90 : ℚ) ≤ |90 * (j : ℚ)| := by
      rw [abs_mul, abs_of_pos (by norm_num : (0 : ℚ) < 90)]
      linarith
    rw [abs_sub_comm] at close
    linarith [abs_sub_abs_le_abs_sub (90 * (j : ℚ)) (n * 10 ^ e)]
  have places := one_lt_places few (show (10 : ℚ) ≤ |(n : ℚ) * 10 ^ e| by linarith)
  rw [right] at close other ⊢
  rcases le_or_gt 1 e with whole | fractional
  · have unit := pow_le_abs_sub whole le_rfl other
    rw [zpow_one] at unit
    exact absurd close (not_lt.mpr unit)
  · exact (zpow_le_zpow_right₀ (by norm_num) (by omega)).trans (pow_le_abs_sub le_rfl fractional.le other)

theorem le_abs_cos (positive : 0 < digits) (other : ¬ OddRightAngle q) :
    (10 : ℝ) ^ (2 - (digits : ℤ)) / 90 ≤ |Real.cos (q * Real.pi / 180)| := by
  generalize nearest : round ((q - 90) / 180) = m
  have close : |q - 90 * (2 * m + 1)| ≤ 90 := by
    have near := abs_sub_round ((q - 90) / 180)
    have split : q - 90 * (2 * m + 1) = 180 * ((q - 90) / 180 - m) := by ring
    rw [split, abs_mul, ← nearest, abs_of_pos (by norm_num : (0 : ℚ) < 180)]
    linarith
  have apart := short.distance_le positive (show 2 * m + 1 ≠ 0 by omega) fun same => other ⟨m, by exact_mod_cast same⟩
  have far := (Rat.cast_le (K := ℝ)).mpr apart
  have close := (Rat.cast_le (K := ℝ)).mpr close
  push_cast at far close
  rw [abs_cos_degrees q m]
  exact (div_le_div_of_nonneg_right far (by norm_num)).trans (le_abs_sin_degrees close)

omit short in
/-- A number of few digits with zeros behind them leaves room for a last digit. -/
theorem add_nine_lt {n : ℤ} {zeros : Nat} (few : |n| < 10 ^ digits) (below : |n| * 10 ^ zeros < 10 ^ (digits + 5)) :
    |n| * 10 ^ zeros + 9 < 10 ^ (digits + 5) := by
  rw [pow_add] at below ⊢
  by_cases short : zeros ≤ 4
  · have power : (10 : ℤ) ^ zeros ≤ 10 ^ 4 := pow_le_pow_right₀ (by norm_num) short
    have unsigned := abs_nonneg n
    have product := mul_le_mul_of_nonneg_left power unsigned
    omega
  · -- The bound ends in as many zeros as the number.
    obtain ⟨more, rfl⟩ : ∃ more, zeros = more + 5 := ⟨zeros - 5, by omega⟩
    rw [pow_add, ← mul_assoc] at below ⊢
    omega

/-- A quarter turn less than an angle below a bound has five digits more than the angle at most. -/
theorem sub_short (positive : 0 < digits) (large : 10 ≤ |q|) (small : |q| < 10 ^ (digits + 6)) :
    ∃ n place : ℤ, 2 - (digits : ℤ) ≤ place ∧ |n| < 10 ^ (digits + 5) ∧ q - 90 = n * 10 ^ place := by
  obtain ⟨n, e, few, rfl⟩ := short
  have places := one_lt_places few large
  rcases le_or_gt e 0 with fractional | whole
  · -- The last digit of the angle is the last one of the difference.
    obtain ⟨k, rfl⟩ : ∃ k : Nat, e = -k := ⟨(-e).toNat, by omega⟩
    refine ⟨n - 90 * 10 ^ k, -k, by omega, ?_, ?_⟩
    · have power : (10 : ℤ) ^ k ≤ 10 ^ digits := pow_le_pow_right₀ (by norm_num) (by omega)
      have size : |(90 * 10 ^ k : ℤ)| = 90 * 10 ^ k := abs_of_nonneg (by positivity)
      have room : (0 : ℤ) < 10 ^ digits := by positivity
      rw [pow_add]
      refine (abs_sub _ _).trans_lt ?_
      rw [size]
      linarith
    · have cancels : (10 : ℚ) ^ k * 10 ^ (-(k : ℤ)) = 1 := by
        rw [← zpow_natCast, ← zpow_add₀ (by norm_num), add_neg_cancel, zpow_zero]
      push_cast
      linear_combination 90 * cancels
  · -- The difference ends in a zero.
    obtain ⟨k, rfl⟩ : ∃ k : Nat, e = k + 1 := ⟨(e - 1).toNat, by omega⟩
    rw [zpow_add_one₀ (by norm_num), zpow_natCast] at small ⊢
    refine ⟨n * 10 ^ k - 9, 1, by omega, ?_, ?_⟩
    · have below : |n| * 10 ^ k < 10 ^ (digits + 5) := by
        rw [abs_mul, abs_mul, abs_of_pos (by positivity : (0 : ℚ) < 10 ^ k), abs_of_pos (by norm_num : (0 : ℚ) < 10),
          ← mul_assoc, pow_succ] at small
        exact_mod_cast lt_of_mul_lt_mul_right small (by norm_num)
      refine (abs_sub _ _).trans_lt ?_
      rw [abs_mul, abs_of_pos (by positivity : (0 : ℤ) < 10 ^ k)]
      exact add_nine_lt few below
    · rw [zpow_one]
      push_cast
      ring

section
variable {c : Context} (working : c.Working) (guarded : c.precision = digits + 5) {shifted : ℚ}
  (rounded : c.round (q - 90) = .ok shifted)
include working guarded rounded

theorem shifted_eq_of_oddRightAngle (odd : OddRightAngle q) : ∃ j : ℤ, shifted = 180 * j := by
  have deep := working.deep
  have below := short.oddRightAngle_lt odd
  obtain ⟨j, rfl⟩ := odd
  have whole : (90 * (2 * (j : ℚ) + 1) - 90) = (180 * j : ℤ) * 10 ^ (0 : ℤ) := by
    rw [zpow_zero, mul_one]
    push_cast
    ring
  have few : |180 * j| < 10 ^ c.precision := by
    have size : |(180 * j : ℚ)| < 10 ^ (digits + 5) := by
      have split : (180 * j : ℚ) = 90 * (2 * j + 1) - 90 := by ring
      have power : (1 : ℚ) ≤ 10 ^ digits := one_le_pow₀ (by norm_num)
      rw [split]
      refine (abs_sub _ _).trans_lt ?_
      rw [abs_of_pos (by norm_num : (0 : ℚ) < 90), pow_add]
      rw [pow_succ] at below
      linarith
    rw [guarded]
    exact_mod_cast size
  rw [whole] at rounded
  have exactly := Context.round_exact _ _ (by rw [Context.tiniest]; omega) few rounded
  refine ⟨j, ?_⟩
  rw [exactly, zpow_zero, mul_one]
  push_cast
  rfl

/-- Below a bound a quarter turn less than another angle is not rounded to a multiple of 180. -/
theorem oddRightAngle_of_shifted_eq (positive : 0 < digits) (small : |q| < 10 ^ (digits + 6)) {j : ℤ}
    (multiple : shifted = 180 * j) : OddRightAngle q := by
  have fine := working.fine
  have deep := working.deep
  have odd (exactly : shifted = q - 90) : OddRightAngle q := ⟨j, by linarith⟩
  rcases le_or_gt 10 |q| with large | low
  · obtain ⟨n, place, least, few, same⟩ := short.sub_short positive large small
    rw [same] at rounded
    refine odd (same ▸ Context.round_exact n place ?_ (guarded ▸ few) rounded)
    rw [Context.tiniest]
    omega
  · -- The difference is near ninety, which is no multiple of 180.
    obtain ⟨above, below⟩ := abs_lt.mp low
    have near := Context.round_near (k := 3) (by rw [Context.tiniest]; omega)
      (by rw [abs_lt]; constructor <;> norm_num <;> linarith) rounded
    have place : (10 : ℚ) ^ ((3 : ℤ) - c.precision) ≤ 1 := by
      have least := working.least
      exact (zpow_le_zpow_right₀ (by norm_num) (show (3 : ℤ) - c.precision ≤ 0 by omega)).trans_eq (zpow_zero _)
    obtain ⟨left, right⟩ := abs_le.mp near
    have above : (-1 : ℚ) < j := by linarith
    have below : (j : ℚ) < 0 := by linarith
    have above : -1 < j := by exact_mod_cast above
    have below : j < 0 := by exact_mod_cast below
    omega

end

end Short

end Reckoner.Decimal

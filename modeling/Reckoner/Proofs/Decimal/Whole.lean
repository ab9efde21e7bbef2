import Reckoner.Proofs.Decimal.Quotients

/-! Rounding to a whole number. A mode is a function of the number alone, and the digits that a decimal drops
are rounded by it, whatever coefficient and exponent stand for the number. -/

namespace Reckoner

namespace Rounding

open Reckoner.Decimal

/-- The whole number that a mode rounds a number to. -/
def whole (mode : Rounding) (q : ℚ) : ℤ :=
  match mode with
  | floor => ⌊q⌋
  | ceiling => ⌈q⌉
  | halfUp => if 0 ≤ q then ⌊q + 1 / 2⌋ else ⌈q - 1 / 2⌉
  | halfEven => nearestEven q
  | truncate => truncated q

/-- The mode that does to a number what this mode does to its opposite. -/
def opposite : Rounding → Rounding
  | floor => ceiling
  | ceiling => floor
  | mode => mode

theorem whole_neg (mode : Rounding) (q : ℚ) : mode.whole (-q) = -mode.opposite.whole q := by
  cases mode with
  | floor => exact Int.floor_neg
  | ceiling => exact Int.ceil_neg
  | halfEven => exact nearestEven_neg q
  | truncate => exact truncated_neg q
  | halfUp =>
    have up : -q + 1 / 2 = -(q - 1 / 2) := by ring
    have down : -q - 1 / 2 = -(q + 1 / 2) := by ring
    simp only [whole, opposite, up, down, Int.floor_neg, Int.ceil_neg]
    rcases lt_trichotomy q 0 with below | rfl | above
    · rw [if_pos (by linarith), if_neg (by linarith)]
    · norm_num
    · rw [if_neg (by linarith), if_pos above.le]

theorem quotient_opposite (mode : Rounding) (numerator denominator : Nat) :
    mode.quotient true numerator denominator = mode.opposite.quotient false numerator denominator := by
  cases mode <;> rfl

theorem whole_bounds (mode : Rounding) (q : ℚ) : ⌊q⌋ ≤ mode.whole q ∧ mode.whole q ≤ ⌈q⌉ := by
  have neighbours : ⌊q⌋ ≤ ⌈q⌉ := Int.floor_le_ceil q
  have below := Int.floor_le q
  have above := Int.le_ceil q
  cases mode with
  | floor => exact ⟨le_rfl, neighbours⟩
  | ceiling => exact ⟨neighbours, le_rfl⟩
  | halfUp =>
    simp only [whole]
    split
    · exact ⟨Int.le_floor.mpr (by linarith), Int.floor_le_iff.mpr (by linarith)⟩
    · exact ⟨Int.le_ceil_iff.mpr (by linarith), Int.ceil_le.mpr (by linarith)⟩
  | halfEven =>
    simp only [whole, nearestEven]
    split
    · exact ⟨le_rfl, neighbours⟩
    · rename_i up
      refine ⟨by omega, Int.add_one_le_iff.mpr (Int.lt_ceil.mpr (lt_of_le_of_ne below fun same => up (.inl ?_)))⟩
      rw [same, sub_self]
      norm_num
  | truncate =>
    simp only [whole, truncated]
    split
    · exact ⟨le_rfl, neighbours⟩
    · exact ⟨neighbours, le_rfl⟩

theorem whole_intCast (mode : Rounding) (n : ℤ) : mode.whole n = n := by
  have bounds := mode.whole_bounds n
  rw [Int.floor_intCast, Int.ceil_intCast] at bounds
  omega

theorem abs_whole_le (mode : Rounding) {q : ℚ} {n : ℤ} (bounded : |q| ≤ n) : |mode.whole q| ≤ n := by
  obtain ⟨low, high⟩ := abs_le.mp bounded
  obtain ⟨above, below⟩ := mode.whole_bounds q
  have least : -n ≤ ⌊q⌋ := Int.le_floor.mpr (by exact_mod_cast low)
  have most : ⌈q⌉ ≤ n := Int.ceil_le.mpr high
  exact abs_le.mpr ⟨by omega, by omega⟩

theorem whole_natCast_div (mode : Rounding) (numerator : Nat) {denominator : Nat} (positive : 0 < denominator) :
    mode.whole ((numerator : ℚ) / denominator) = mode.quotient false numerator denominator := by
  have unit : (0 : ℚ) < denominator := by exact_mod_cast positive
  have parts : (numerator : ℚ) = denominator * (numerator / denominator : Nat) + (numerator % denominator : Nat) := by
    exact_mod_cast (Nat.div_add_mod numerator denominator).symm
  have small : ((numerator % denominator : Nat) : ℚ) < denominator := by exact_mod_cast Nat.mod_lt numerator positive
  have rest : (0 : ℚ) ≤ (numerator % denominator : Nat) := Nat.cast_nonneg _
  cases mode with
  | floor => exact Rat.floor_natCast_div_natCast numerator denominator
  | truncate => exact truncated_natCast_div numerator denominator
  | halfEven => exact nearestEven_div numerator positive
  | ceiling =>
    have rounded : ceiling.quotient false numerator denominator =
        if numerator % denominator = 0 then numerator / denominator else numerator / denominator + 1 := by
      simp [quotient, goesUp]
    rw [rounded]
    show ⌈(numerator : ℚ) / denominator⌉ = _
    rw [Int.ceil_eq_iff, lt_div_iff₀ unit, div_le_iff₀ unit]
    generalize numerator / denominator = n at *
    split
    · rename_i none
      rw [none, Nat.cast_zero, add_zero] at parts
      push_cast
      constructor <;> linarith
    · rename_i some
      have one : (1 : ℚ) ≤ (numerator % denominator : Nat) := by exact_mod_cast Nat.one_le_iff_ne_zero.mpr some
      push_cast
      constructor <;> linarith
  | halfUp =>
    have rounded : halfUp.quotient false numerator denominator =
        if denominator ≤ 2 * (numerator % denominator) then numerator / denominator + 1
        else numerator / denominator := by
      simp [quotient, goesUp]
    rw [rounded]
    show (if 0 ≤ (numerator : ℚ) / denominator then ⌊(numerator : ℚ) / denominator + 1 / 2⌋ else _) = _
    rw [if_pos (by positivity), div_add_div _ _ unit.ne' two_ne_zero, Int.floor_eq_iff, le_div_iff₀ (by linarith),
      div_lt_iff₀ (by linarith)]
    generalize numerator / denominator = n at *
    split
    · rename_i up
      have half : (denominator : ℚ) ≤ 2 * (numerator % denominator : Nat) := by exact_mod_cast up
      push_cast
      constructor <;> linarith
    · rename_i kept
      have half : 2 * ((numerator % denominator : Nat) : ℚ) < denominator := by exact_mod_cast not_le.mp kept
      push_cast
      constructor <;> linarith

/-- A coefficient with places behind the point is rounded by the digits there. -/
theorem whole_signed (mode : Rounding) (negative : Bool) (coefficient places : Nat) :
    mode.whole (Context.signed negative coefficient * 10 ^ (-(places : ℤ))) =
      Context.signed negative (mode.quotient negative coefficient (10 ^ places)) := by
  have unsigned (mode : Rounding) := mode.whole_natCast_div coefficient
    (Nat.pow_pos (n := places) (show 0 < 10 by decide))
  push_cast at unsigned
  rw [zpow_neg, zpow_natCast, ← div_eq_mul_inv]
  cases negative with
  | false => simpa [Context.signed] using unsigned mode
  | true => simpa [Context.signed, neg_div, whole_neg, quotient_opposite] using unsigned mode.opposite

/-- Of less than half a unit, only the sign and whether it is zero are seen. -/
theorem quotient_congr (mode : Rounding) (negative : Bool) {numerator denominator other : Nat}
    (small : 2 * numerator < denominator) (tiny : 2 * numerator < other) :
    mode.quotient negative numerator denominator = mode.quotient negative numerator other := by
  have parts (unit : Nat) (below : 2 * numerator < unit) :
      numerator / unit = 0 ∧ numerator % unit = numerator := by
    have less : numerator < unit := by omega
    exact ⟨Nat.div_eq_of_lt less, Nat.mod_eq_of_lt less⟩
  obtain ⟨first, second⟩ := parts denominator small
  obtain ⟨third, fourth⟩ := parts other tiny
  cases mode <;> simp only [quotient, goesUp, first, second, third, fourth] <;> grind

end Rounding

namespace Decimal.Context

open Reckoner.Numeral

theorem toInt_eq {negative : Bool} {coefficient : Nat} {exponent : Int} (whole : 0 ≤ exponent) :
    (((finite negative coefficient exponent).toInt : ℤ) : ℚ) = (finite negative coefficient exponent).value := by
  obtain ⟨places, rfl⟩ := Int.eq_ofNat_of_zero_le whole
  rw [value_finite, toInt, signed]
  cases negative <;> simp [Int.toNat_natCast]

/-- A decimal is rounded to the whole number that its mode rounds the number to. -/
theorem roundToWhole_eq (mode : Rounding) {z : Decimal} (given : z.isFinite = true) :
    (z.roundToWhole mode).value = mode.whole z.value ∧ (z.roundToWhole mode).toInt = mode.whole z.value := by
  obtain ⟨s, m, e, rfl⟩ := isFinite_iff.mp given
  unfold roundToWhole
  dsimp only
  split
  · rename_i whole
    have same : (((finite s m e).toInt : ℤ) : ℚ) = (finite s m e).value := toInt_eq whole
    rw [← same, Rounding.whole_intCast]
    exact ⟨rfl, rfl⟩
  · rename_i broken
    obtain ⟨places, rfl⟩ : ∃ places : Nat, e = -(places : ℤ) := ⟨(-e).toNat, by omega⟩
    -- Of a number of a tenth at most only so much is left as of any smaller one.
    have same : mode.quotient s m (10 ^ min (-(-(places : ℤ))).toNat (digitCount m + 1)) =
        mode.quotient s m (10 ^ places) := by
      rw [neg_neg, Int.toNat_natCast]
      rcases Nat.le_total places (digitCount m + 1) with few | many
      · rw [Nat.min_eq_left few]
      · have power : 10 ^ (digitCount m + 1) ≤ 10 ^ places := Nat.pow_le_pow_right (by decide) many
        have below := lt_pow_digitCount m
        rw [Nat.min_eq_right many]
        rw [Nat.pow_succ] at power ⊢
        exact mode.quotient_congr s (by omega) (by omega)
    rw [same, value_finite s m, mode.whole_signed]
    refine ⟨by rw [value_finite, zpow_zero, mul_one], ?_⟩
    have whole : (((finite s (mode.quotient s m (10 ^ places)) 0).toInt : ℤ) : ℚ) = _ := toInt_eq le_rfl
    rw [value_finite, zpow_zero, mul_one] at whole
    exact_mod_cast whole

end Decimal.Context

end Reckoner

import Reckoner.Proofs.Decimal.Bounded
import Reckoner.Proofs.NumberSystem.DecimalRange

/-! The remainder of decimals is the exact remainder of truncated division. It has few enough digits to stay as it
is, whatever the exponents of the operands are; only the quotient can be too long. -/

namespace Reckoner.Decimal

/-- What is left of a number without its whole part has its sign, and is not larger. -/
theorem sub_truncated_bounds (q : ℚ) : 0 ≤ q * (q - truncated q) ∧ |q - truncated q| ≤ |q| := by
  have parted := abs_sub_truncated_lt q
  unfold truncated at *
  split
  · rename_i nonneg
    have whole : (0 : ℚ) ≤ ⌊q⌋ := by exact_mod_cast Int.floor_nonneg.mpr nonneg
    have rest : 0 ≤ q - ⌊q⌋ := by linarith [Int.floor_le q]
    refine ⟨mul_nonneg nonneg rest, ?_⟩
    rw [abs_of_nonneg nonneg, abs_of_nonneg rest]
    linarith
  · rename_i negative
    have below : q ≤ 0 := (not_le.mp negative).le
    have whole : ((⌈q⌉ : ℤ) : ℚ) ≤ 0 := by exact_mod_cast Int.ceil_le.mpr (by exact_mod_cast below)
    have rest : q - ⌈q⌉ ≤ 0 := by linarith [Int.le_ceil q]
    refine ⟨mul_nonneg_of_nonpos_of_nonpos below rest, ?_⟩
    rw [abs_of_nonpos below, abs_of_nonpos rest]
    linarith

section
variable {d : ℚ} (nonzero : d ≠ 0) (q : ℚ)
include nonzero

theorem remainder_eq_mul : remainder q d = d * (q / d - truncated (q / d)) := by
  rw [remainder, mul_sub, mul_div_cancel₀ _ nonzero]

theorem abs_remainder_le : |remainder q d| ≤ |q| := by
  calc |remainder q d| = |d| * |q / d - truncated (q / d)| := by rw [remainder_eq_mul nonzero, abs_mul]
    _ ≤ |d| * |q / d| := mul_le_mul_of_nonneg_left (sub_truncated_bounds _).2 (abs_nonneg d)
    _ = |q| := by rw [← abs_mul, mul_div_cancel₀ _ nonzero]

theorem remainder_pos_iff (some : remainder q d ≠ 0) : 0 < remainder q d ↔ 0 < q := by
  have side : 0 ≤ q * remainder q d := by
    calc 0 ≤ d ^ 2 * (q / d * (q / d - truncated (q / d))) := mul_nonneg (sq_nonneg d) (sub_truncated_bounds _).1
      _ = d * (q / d) * (d * (q / d - truncated (q / d))) := by ring
      _ = q * remainder q d := by rw [mul_div_cancel₀ _ nonzero, ← remainder_eq_mul nonzero]
  have dividend : q ≠ 0 := by
    rintro rfl
    exact some (abs_nonpos_iff.mp ((abs_remainder_le nonzero 0).trans_eq abs_zero))
  constructor
  · intro positive
    exact lt_of_le_of_ne (nonneg_of_mul_nonneg_left side positive) dividend.symm
  · intro positive
    exact lt_of_le_of_ne (nonneg_of_mul_nonneg_right side positive) some.symm

end

/-- A remainder has no more digits than the operands: it is a multiple of the last place of one of them, and not
larger than that one. -/
theorem short_remainder {digits : Nat} {q d : ℚ} (first : Short digits q) (second : Short digits d) (nonzero : d ≠ 0) :
    Short digits (remainder q d) := by
  have few {n e : ℤ} (bound : |n| < 10 ^ digits) (multiple : MultipleOf e (Decimal.remainder q d))
      (most : |Decimal.remainder q d| ≤ |(n : ℚ) * 10 ^ e|) : Short digits (Decimal.remainder q d) := by
    obtain ⟨k, same⟩ := multiple
    refine ⟨k, e, ?_, same⟩
    have unit := pow_ten_pos e
    rw [same, abs_mul, abs_mul] at most
    have whole := le_of_mul_le_mul_right most (abs_pos.mpr unit.ne')
    exact lt_of_le_of_lt (by exact_mod_cast whole) bound
  obtain ⟨m, e, above, dividend⟩ := first
  obtain ⟨n, f, below, divisor⟩ := second
  rcases le_total e f with fine | coarse
  · refine few above (.remainder ⟨m, dividend⟩ (.mono ⟨n, divisor⟩ fine)) ?_
    rw [← dividend]
    exact abs_remainder_le nonzero q
  · refine few below (.remainder (.mono ⟨m, dividend⟩ coarse) ⟨n, divisor⟩) ?_
    rw [← divisor]
    exact (abs_remainder_lt nonzero q).le

namespace Context

variable {c : Context} (precise : 0 < c.precision) {x y : Decimal} (first : c.Admits x) (second : c.Admits y)
  (nonzero : y.value ≠ 0) (few : |truncated (x.value / y.value)| < 10 ^ c.precision)
include precise first second nonzero few

/-- Unless it is too small, the remainder of two numbers in the context is exact. -/
theorem rem_exact (normal : c.Normal (remainder x.value y.value)) :
    Settles (fun z => z.isFinite = true ∧ z.value = remainder x.value y.value) (c.rem x y) := by
  have short := short_remainder first.short second.short nonzero
  have small := (abs_remainder_le nonzero x.value).trans_lt first.bounds.2
  have gives := rem_gives precise first.isFinite second.isFinite nonzero few
  apply (gives.settles (normal.fits_of_short precise short small)).mono
  intro z rounding
  exact ⟨rounding.isFinite, normal.value_eq rounding short⟩

theorem rem_subnormal (refuses : c.refusesSubnormal = true) (ordered : c.least ≤ c.greatest + 1)
    (some : remainder x.value y.value ≠ 0) (tiny : |remainder x.value y.value| < 10 ^ c.least) :
    c.rem x y = .error .subnormal := by
  have gives := rem_gives precise first.isFinite second.isFinite nonzero few
  have below := (log_lt_iff (abs_pos.mpr some)).mpr tiny
  have refused : c.round (remainder x.value y.value) = .error .subnormal := by
    rw [round, if_neg some, if_neg (by omega), if_pos below, if_pos refuses]
  have outcome := gives.rounded.trans refused
  cases computed : c.rem x y with
  | ok z => rw [computed] at outcome; cases outcome
  | error signal => rw [computed] at outcome; exact congrArg Except.error (Except.error.inj outcome)

end Context

end Reckoner.Decimal

namespace Reckoner.NumberSystem.Decimals

open Reckoner.Decimal

variable {c : Decimal.Context}

theorem remainderOf_eq {x y : Decimal} (given : y.isFinite = true) (nonzero : y.value ≠ 0) :
    remainderOf c x y = reported (c.rem x y) := by
  have apart : decide (y.value = zero.value) = false := by
    rw [Context.value_zero]
    exact decide_eq_false nonzero
  unfold remainderOf
  rw [Context.isEqual_eq given rfl, apart]
  rfl

/-- For all operands in a context and a divisor that is not zero, the remainder is that of truncated division,
without any rounding: it is zero or has the sign of the dividend, and it is smaller than the divisor. It fails if the
whole quotient has more digits than the precision, and if the remainder is too small for the range and not zero. -/
theorem remainder_exact {precision range : Int} (given : context? precision range = some c) {x y : Decimal}
    (first : c.Admits x) (second : c.Admits y) (nonzero : y.value ≠ 0) :
    (|truncated (x.value / y.value)| < 10 ^ c.precision →
      remainder x.value y.value = 0 ∨ 10 ^ (-range) ≤ |remainder x.value y.value| →
      ∃ r, remainderOf c x y = .ok r ∧ c.Admits r ∧
        r.value = x.value - y.value * truncated (x.value / y.value) ∧
        (r.value = 0 ∨ (0 < r.value ↔ 0 < x.value)) ∧ |r.value| < |y.value|) ∧
    (|truncated (x.value / y.value)| < 10 ^ c.precision →
      remainder x.value y.value ≠ 0 → |remainder x.value y.value| < 10 ^ (-range) →
      remainderOf c x y = .error (.report .overflow "Overflow: result magnitude is out of range for decimal")) ∧
    (10 ^ c.precision ≤ |truncated (x.value / y.value)| →
      remainderOf c x y = .error (.report .invalidInput "Invalid decimal operation")) := by
  have rounds := rounds_of_context? given
  have wide := range_nonneg given
  obtain ⟨positive, rfl⟩ := context?_eq_some given
  have precise : 0 < precision.toNat := by omega
  rw [remainderOf_eq second.isFinite nonzero]
  refine ⟨?_, ?_, ?_⟩
  · intro few normal
    obtain ⟨r, computed, sound, same⟩ := (Context.rem_exact precise first second nonzero few normal).exists_eq
    refine ⟨r, congrArg reported computed, rounds.rem first.isFinite second.isFinite r computed, same, ?_, ?_⟩
    · rw [same]
      exact or_iff_not_imp_left.mpr (remainder_pos_iff nonzero x.value)
    · rw [same]
      exact abs_remainder_lt nonzero x.value
  · intro few some tiny
    have ordered : -range ≤ range + 1 := by omega
    exact congrArg reported (Context.rem_subnormal precise first second nonzero few rfl ordered some tiny)
  · intro many
    exact congrArg reported (Context.rem_refuses first.isFinite second.isFinite nonzero many)

/-- Seven and a half below zero, divided by four tenths at three digits. -/
theorem remainder_exact_sample : context? 3 5 = some ⟨3, -5, 5, true⟩ ∧
    Decimal.Context.Admits ⟨3, -5, 5, true⟩ (.finite true 75 (-1)) ∧
    Decimal.Context.Admits ⟨3, -5, 5, true⟩ (.finite false 4 (-1)) ∧
    ∃ r, remainderOf ⟨3, -5, 5, true⟩ (.finite true 75 (-1)) (.finite false 4 (-1)) = .ok r ∧ r.value = -3 / 10 := by
  have given : context? 3 5 = some ⟨3, -5, 5, true⟩ := rfl
  have first : Decimal.Context.Admits ⟨3, -5, 5, true⟩ (.finite true 75 (-1)) :=
    ⟨by with_unfolding_all decide, .inr ⟨by with_unfolding_all decide, by with_unfolding_all decide⟩⟩
  have second : Decimal.Context.Admits ⟨3, -5, 5, true⟩ (.finite false 4 (-1)) :=
    ⟨by with_unfolding_all decide, .inr ⟨by with_unfolding_all decide, by with_unfolding_all decide⟩⟩
  have dividend : (Decimal.finite true 75 (-1)).value = -(75 / 10) := by
    rw [Context.value_finite]
    norm_num [Context.signed]
  have divisor : (Decimal.finite false 4 (-1)).value = 4 / 10 := by
    rw [Context.value_finite]
    norm_num [Context.signed]
  have quotient : truncated (-(75 / 10) / (4 / 10)) = -18 := by
    rw [show (-(75 / 10) / (4 / 10) : ℚ) = -((75 : ℕ) / (4 : ℕ)) by norm_num, truncated_neg, truncated_natCast_div]
    rfl
  have exact := (remainder_exact given first second (by rw [divisor]; norm_num)).1
  rw [remainder, dividend, divisor, quotient] at exact
  obtain ⟨r, computed, _, same, _⟩ := exact (by norm_num) (.inr (by norm_num))
  exact ⟨given, first, second, r, computed, same.trans (by norm_num)⟩

/-- The remainder of a power of ten and three is one, but the whole quotient has a digit more than the precision. -/
theorem remainder_of_long_quotient : context? 28 defaultRange = some ⟨28, -999999, 999999, true⟩ ∧
    Decimal.Context.Admits ⟨28, -999999, 999999, true⟩ (.finite false 1 29) ∧
    Decimal.Context.Admits ⟨28, -999999, 999999, true⟩ (.finite false 3 0) ∧
    remainder (Decimal.finite false 1 29).value (Decimal.finite false 3 0).value = 1 ∧
    remainderOf ⟨28, -999999, 999999, true⟩ (.finite false 1 29) (.finite false 3 0) =
      .error (.report .invalidInput "Invalid decimal operation") := by
  have one_left : remainder (Decimal.finite false 1 29).value (Decimal.finite false 3 0).value = 1 := by
    have rest := remainder_natCast_mul (10 ^ 29) (show 0 < 3 by decide) one_ne_zero
    rw [Context.value_finite, Context.value_finite]
    norm_num [Context.signed] at rest ⊢
    exact rest
  refine ⟨rfl, ⟨?_, .inr ⟨?_, ?_⟩⟩, ⟨?_, .inr ⟨?_, ?_⟩⟩, one_left, ?_⟩
  all_goals with_unfolding_all decide

end Reckoner.NumberSystem.Decimals

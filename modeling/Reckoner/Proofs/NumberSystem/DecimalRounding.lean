import Reckoner.Proofs.Decimal.Range
import Reckoner.Proofs.Decimal.Whole
import Reckoner.Proofs.NumberSystem.DecimalRange

/-! Decimals rounded to whole numbers. The result is exact and not longer than the precision, but it is not
held to the range, which it can leave for the next power of ten if the range is narrower than the precision. -/

namespace Reckoner.Decimal.Context

open Reckoner.Numeral

variable {c : Context}

/-- What the rounding of a context leaves as it is does not begin above the range. -/
theorem leading_le_of_finish {negative : Bool} {coefficient : Nat} {exponent : Int}
    (kept : c.finish (finite negative coefficient exponent) = .ok (finite negative coefficient exponent)) :
    leading coefficient exponent ≤ c.greatest := by
  rw [finish, finishFinite] at kept
  dsimp only at kept
  split at kept
  · rename_i zero
    simp only [Except.ok.injEq, finite.injEq, zeroExponent] at kept
    have same := kept.2.2
    rw [zero, leading, digitCount_zero]
    split at same <;> omega
  split at kept
  · cases kept
  · rename_i inside
    exact Int.not_lt.mp inside

/-- A rounded coefficient is that of a number in the range, or it is the power of ten that follows it. -/
theorem leading_le_or_eq {coefficient places : Nat} (range : c.greatest = places)
    (bounded : coefficient ≤ 10 ^ (places + 1)) :
    leading coefficient 0 ≤ c.greatest ∨ coefficient = 10 ^ (places + 1) := by
  rcases Nat.lt_or_eq_of_le bounded with below | next
  · have short := (digitCount_le_iff (Nat.succ_pos places)).mpr below
    refine .inl ?_
    rw [leading]
    omega
  · exact .inr next

/-- A number of the context, rounded to a whole one, has no more digits than the precision. It is in the range
or the first number above it or below. -/
theorem roundToWhole_fits (precise : 0 < c.precision) (places : Nat) (range : c.greatest = places) (mode : Rounding)
    {x : Decimal} (admitted : c.Admits x) (kept : c.finish x = .ok x) :
    ∃ negative coefficient exponent, x.roundToWhole mode = finite negative coefficient exponent ∧
      digitCount coefficient ≤ c.precision ∧
      (leading coefficient exponent ≤ c.greatest ∨ exponent = 0 ∧ coefficient = 10 ^ (places + 1)) := by
  obtain ⟨nearest, _⟩ := roundToWhole_eq mode admitted.isFinite
  have below := admitted.bounds.2
  obtain ⟨s, m, e, rfl⟩ := isFinite_iff.mp admitted.isFinite
  unfold roundToWhole at nearest ⊢
  dsimp only at nearest ⊢
  split at nearest
  · rename_i whole
    rw [if_pos whole]
    exact ⟨s, m, e, rfl, admitted.1, .inl (leading_le_of_finish kept)⟩
  · rename_i fractional
    rw [if_neg fractional]
    have short := digitCount_quotient_le mode s precise
      (show 1 ≤ min (-e).toNat (digitCount m + 1) by omega) admitted.1
    generalize mode.quotient s m (10 ^ _) = n at nearest short
    refine ⟨s, n, 0, rfl, short, (leading_le_or_eq range ?_).imp_right fun next => ⟨rfl, next⟩⟩
    -- The power of ten above the number is a whole one, so nothing below it is rounded beyond it.
    have top : ((10 ^ (places + 1) : ℤ) : ℚ) = 10 ^ (c.greatest + 1) := by
      rw [range, ← Nat.cast_succ, zpow_natCast]
      push_cast
      rfl
    have bounded := mode.abs_whole_le (below.le.trans_eq top.symm)
    have size : ((|mode.whole (finite s m e).value| : ℤ) : ℚ) = n := by
      rw [Int.cast_abs, ← nearest, value_finite, zpow_zero, mul_one, abs_signed]
    have same : |mode.whole (finite s m e).value| = n := by exact_mod_cast size
    rw [same] at bounded
    exact_mod_cast bounded

end Reckoner.Decimal.Context

namespace Reckoner.NumberSystem.Decimals

open Reckoner.Decimal Reckoner.Numeral

variable {c : Decimal.Context}

/-- In every context, all numbers that its rounding keeps are rounded to the exact whole number, which has no more
digits than the precision. It is in the range, or the range is narrower than the precision by two places and the number
is the power of ten that follows it; that one is returned all the same. -/
theorem toIntegral_exact {precision range : Int} (given : context? precision range = some c) {x : Decimal}
    (finite : x.isFinite = true) (representable : c.finish x = .ok x) (mode : Rounding) :
    ∃ negative coefficient exponent,
      (system c).toIntegral mode x = .ok (.finite negative coefficient exponent) ∧
      (Decimal.finite negative coefficient exponent).value = mode.whole x.value ∧
      digitCount coefficient ≤ precision ∧
      ((Decimal.finite negative coefficient exponent).adjusted ≤ range ∨
        range + 2 ≤ precision ∧ |mode.whole x.value| = 10 ^ (range + 1).toNat) := by
  have rounds := rounds_of_context? given
  have wide := range_nonneg given
  obtain ⟨positive, rfl⟩ := context?_eq_some given
  obtain ⟨places, rfl⟩ := Int.eq_ofNat_of_zero_le wide
  have precise : 0 < precision.toNat := by omega
  have admitted := rounds.finish finite x representable
  obtain ⟨nearest, _⟩ := Context.roundToWhole_eq mode finite
  obtain ⟨s, n, e, rounded, short, fits⟩ :=
    Context.roundToWhole_fits precise places rfl mode admitted representable
  have digits : (digitCount n : Int) ≤ precision := by
    have length : digitCount n ≤ precision.toNat := short
    omega
  have found : (system ⟨precision.toNat, -places, places, true⟩).toIntegral mode x = .ok (.finite s n e) := by
    obtain ⟨_, _, _, rfl⟩ := isFinite_iff.mp finite
    rw [← rounded]
    rfl
  rw [rounded] at nearest
  refine ⟨s, n, e, found, nearest, digits, fits.imp_right ?_⟩
  rintro ⟨whole, next⟩
  rw [next, digitCount_pow] at digits
  refine ⟨by omega, ?_⟩
  have size : ((|mode.whole x.value| : ℤ) : ℚ) = ((10 ^ (places + 1) : ℕ) : ℚ) := by
    rw [Int.cast_abs, ← nearest, Context.value_finite, whole, zpow_zero, mul_one, Context.abs_signed, next]
  have same : |mode.whole x.value| = ((10 ^ (places + 1) : ℕ) : ℤ) := by exact_mod_cast size
  rw [same]
  push_cast
  rfl

/-- Half a unit from a thousand, rounded away from zero: the carry makes the number longer, and it still fits. -/
theorem toIntegral_exact_carried : context? 4 3 = some ⟨4, -3, 3, true⟩ ∧
    Decimal.Context.finish ⟨4, -3, 3, true⟩ (.finite true 9995 (-1)) = .ok (.finite true 9995 (-1)) ∧
    ∃ negative coefficient exponent,
      (system ⟨4, -3, 3, true⟩).toIntegral .halfUp (.finite true 9995 (-1)) =
        .ok (.finite negative coefficient exponent) ∧
      (Decimal.finite negative coefficient exponent).value = -1000 ∧
      (Decimal.finite negative coefficient exponent).adjusted ≤ 3 := by
  have given : context? 4 3 = some ⟨4, -3, 3, true⟩ := rfl
  have kept : Decimal.Context.finish ⟨4, -3, 3, true⟩ (.finite true 9995 (-1)) = .ok (.finite true 9995 (-1)) := by
    with_unfolding_all decide
  obtain ⟨s, n, e, found, nearest, -, fits⟩ := toIntegral_exact given rfl kept .halfUp
  have whole : Rounding.halfUp.whole (Decimal.finite true 9995 (-1)).value = -1000 := by
    rw [Context.value_finite, Rounding.whole]
    norm_num [Context.signed]
  rw [whole] at nearest
  refine ⟨given, kept, s, n, e, found, by exact_mod_cast nearest, ?_⟩
  exact fits.resolve_right fun narrow => absurd narrow.1 (by decide)

/-- Three digits below a hundred: the next whole number is a hundred, above the range. It is returned, where the sum
of the same size is refused. -/
theorem toIntegral_leaves_range : context? 3 1 = some ⟨3, -1, 1, true⟩ ∧
    Decimal.Context.finish ⟨3, -1, 1, true⟩ (.finite false 999 (-1)) = .ok (.finite false 999 (-1)) ∧
    Rounding.ceiling.whole (Decimal.finite false 999 (-1)).value = 100 ∧
    (system ⟨3, -1, 1, true⟩).toIntegral .ceiling (.finite false 999 (-1)) = .ok (.finite false 100 0) ∧
    (1 : Int) < (Decimal.finite false 100 0).adjusted ∧
    (system ⟨3, -1, 1, true⟩).add (.finite false 99 0) (.finite false 1 0) =
      .error (.report .overflow "Overflow: result is out of range for decimal") := by
  have whole : Rounding.ceiling.whole (Decimal.finite false 999 (-1)).value = 100 := by
    rw [Context.value_finite, Rounding.whole]
    norm_num [Context.signed, Int.ceil_eq_iff]
  refine ⟨rfl, ?_, whole, ?_, ?_, ?_⟩
  all_goals with_unfolding_all decide

end Reckoner.NumberSystem.Decimals

import Reckoner.Proofs.Binary64.Whole
import Reckoner.Proofs.NumberSystem.IntegerArithmetic
import Reckoner.Proofs.NumberSystem.IntegerDisplay

/-! Powers of whole numbers. A power is the truncated exact one. With a bounded width it is refused if it is out of
range, before it is computed if the estimate of its length is beyond the width; all that is assumed of the estimate is
that it never is for a power that could fit. -/

namespace Reckoner.NumberSystem.Integer

open Reckoner.Decimal (truncated truncated_intCast truncated_intCast_div)

/-! ### Exact powers -/

theorem truncated_inv {n : Int} (large : 1 < n.natAbs) : truncated ((n : ℚ)⁻¹) = 0 := by
  rw [← one_div, ← Int.cast_one, truncated_intCast_div]
  refine Int.natAbs_eq_zero.mp ?_
  rw [Int.natAbs_tdiv]
  exact Nat.div_eq_of_lt large

theorem truncated_zpow_of_nonneg (base : Int) {exponent : Int} (positive : 0 ≤ exponent) :
    truncated ((base : ℚ) ^ exponent) = base ^ exponent.toNat := by
  obtain ⟨n, rfl⟩ := Int.eq_ofNat_of_zero_le positive
  rw [zpow_natCast, ← Int.cast_pow, truncated_intCast, Int.toNat_natCast]

theorem truncated_zpow_of_neg {base exponent : Int} (large : 1 < base.natAbs) (negative : exponent < 0) :
    truncated ((base : ℚ) ^ exponent) = 0 := by
  obtain ⟨n, rfl⟩ := Int.eq_negSucc_of_lt_zero negative
  rw [zpow_negSucc, ← Int.cast_pow]
  refine truncated_inv ?_
  rw [Int.natAbs_pow]
  exact Nat.one_lt_pow (Nat.succ_ne_zero n) large

theorem truncated_neg_one_zpow (exponent : Int) :
    truncated (((-1 : Int) : ℚ) ^ exponent) = if exponent % 2 = 0 then 1 else -1 := by
  rw [Int.cast_neg, Int.cast_one]
  split
  · rename_i even
    rw [(Int.even_iff.mpr even).neg_one_zpow]
    exact truncated_intCast 1
  · rename_i odd
    rw [(Int.not_even_iff_odd.mp fun even => odd (Int.even_iff.mp even)).neg_one_zpow]
    exact truncated_intCast (-1)

/-- The powers of numbers of magnitude at most one are found from the sign and the parity. -/
theorem unitPower_eq {base : Int} (small : base.natAbs ≤ 1) (exponent : Nat) :
    unitPower base exponent = base ^ exponent := by
  obtain rfl | rfl | rfl : base = 0 ∨ base = 1 ∨ base = -1 := by omega
  · unfold unitPower
    split
    · rename_i none
      rw [none, pow_zero]
    · rename_i some
      rw [zero_pow some]
      rfl
  · simp [unitPower]
  · rcases Nat.even_or_odd exponent with even | odd
    · simp [unitPower, even.neg_one_pow, Nat.even_iff.mp even]
    · have rest : exponent % 2 = 1 := Nat.odd_iff.mp odd
      have some : exponent ≠ 0 := by
        rintro rfl
        cases rest
      simp [unitPower, odd.neg_one_pow, rest, some]

/-! ### Powers by cases -/

section
variable (logarithm : Nat → Float) (width : Width)

theorem power_zero_of_neg {exponent : Int} (negative : exponent < 0) :
    power logarithm width 0 exponent = .error divisionByZero := by
  rw [power, if_pos negative, if_pos rfl]

/-- A negative exponent gives the truncated reciprocal, whatever the width. -/
theorem power_of_neg {base exponent : Int} (nonzero : base ≠ 0) (negative : exponent < 0) :
    power logarithm width base exponent = .ok (truncated ((base : ℚ) ^ exponent)) := by
  rw [power, if_pos negative, if_neg nonzero]
  split
  · rename_i one
    rw [one, Int.cast_one, one_zpow]
    exact congrArg Except.ok (truncated_intCast 1).symm
  split
  · rename_i opposite
    rw [opposite, truncated_neg_one_zpow]
  · rw [truncated_zpow_of_neg (by omega) negative]

theorem power_of_small {base exponent : Int} (positive : 0 ≤ exponent) (small : base.natAbs ≤ 1) :
    power logarithm width base exponent = checkResult width (truncated ((base : ℚ) ^ exponent)) := by
  rw [power, if_neg (Int.not_lt.mpr positive), if_pos small, unitPower_eq small,
    truncated_zpow_of_nonneg base positive]

/-- The power of a larger base is computed if its length is estimated within the limit. -/
theorem power_of_large {base exponent : Int} (positive : 0 ≤ exponent) (large : 1 < base.natAbs) :
    power logarithm width base exponent = (do
      if ← powerIsTooLong logarithm width base exponent.toNat then
        throw (overflow width.name ((← writeInt base) ++ " ^ " ++ (← writeInt exponent)))
      checkResult width (truncated ((base : ℚ) ^ exponent))) := by
  rw [power, if_neg (Int.not_lt.mpr positive), if_neg (Nat.not_le.mpr large), truncated_zpow_of_nonneg base positive]

end

/-! ### Bounded widths -/

/-- Whether the estimate of the length of a power is within the width, or the power is beyond it. No length is
estimated for a base of magnitude at most one. -/
def Estimates (logarithm : Nat → Float) (bits base exponent : Nat) : Prop :=
  1 < base → base ^ exponent ≤ 2 ^ (bits - 1) → ¬ Binary64.ofInt bits < Binary64.ofInt exponent * logarithm base

variable {bits : Nat} (logarithm : Nat → Float)

theorem powerIsTooLong_eq (narrow : bits ≤ 1024) (base : Int) {exponent : Int} (fits : InRange bits exponent)
    (positive : 0 ≤ exponent) :
    powerIsTooLong logarithm ⟨some bits⟩ base exponent.toNat =
      .ok (Binary64.ofInt bits < Binary64.ofInt exponent.toNat * logarithm base.natAbs) := by
  have finite : (Binary64.ofInt exponent.toNat).isInf = false := by
    rw [Bool.eq_false_iff, Ne, Binary64.isInf_ofInt]
    have below : exponent.toNat < 2 ^ 1023 := calc
      exponent.toNat < 2 ^ (bits - 1) := by
        have greatest := fits.2
        zify
        omega
      _ ≤ 2 ^ 1023 := pow_le_pow_right₀ one_le_two (by omega)
    exact Nat.not_le.mpr (below.trans_le Binary64.le_overflowBound)
  rw [powerIsTooLong, if_neg (by rw [finite]; decide)]
  rfl

theorem not_inRange_of_estimate {base exponent : Int} (large : 1 < base.natAbs) (positive : 0 ≤ exponent)
    (estimates : Estimates logarithm bits base.natAbs exponent.toNat)
    (beyond : Binary64.ofInt bits < Binary64.ofInt exponent.toNat * logarithm base.natAbs) :
    ¬ InRange bits (truncated ((base : ℚ) ^ exponent)) := by
  intro fits
  have small := natAbs_of_inRange fits
  rw [truncated_zpow_of_nonneg base positive, Int.natAbs_pow] at small
  exact estimates large small beyond

theorem writeInt_of_inRange (narrow : bits ≤ 1024) {n : Int} (fits : InRange bits n) : writeInt n = .ok (toString n) :=
  format_eq (narrow.trans (by decide)) fits

theorem power_exact_of_nonneg (narrow : bits ≤ 1024) {base exponent : Int} (first : InRange bits base)
    (second : InRange bits exponent) (estimates : Estimates logarithm bits base.natAbs exponent.toNat)
    (positive : 0 ≤ exponent) :
    ExactOrRefused bits ["result", toString base ++ " ^ " ++ toString exponent] (truncated ((base : ℚ) ^ exponent))
      (power logarithm ⟨some bits⟩ base exponent) := by
  have computed : ExactOrRefused bits ["result", toString base ++ " ^ " ++ toString exponent]
      (truncated ((base : ℚ) ^ exponent)) (checkResult ⟨some bits⟩ (truncated ((base : ℚ) ^ exponent))) :=
    (checkResult_exact _).subset (by simp)
  rcases Nat.lt_or_ge 1 base.natAbs with large | small
  · rw [power_of_large logarithm _ positive large, powerIsTooLong_eq logarithm narrow base second positive, ok_bind]
    by_cases beyond : Binary64.ofInt bits < Binary64.ofInt exponent.toNat * logarithm base.natAbs
    · have outside := not_inRange_of_estimate logarithm large positive estimates beyond
      refine ⟨fun fits => absurd fits outside, fun _ => ⟨_, List.mem_cons_of_mem _ (List.mem_singleton_self _), ?_⟩⟩
      rw [if_pos (decide_eq_true beyond), writeInt_of_inRange narrow first, writeInt_of_inRange narrow second, ok_bind,
        ok_bind, overflow_eq]
      rfl
    · rw [if_neg (by simpa using beyond)]
      exact computed
  · rw [power_of_small logarithm _ positive small]
    exact computed

theorem inRange_of_neg (wide : 2 ≤ bits) {base exponent : Int} (nonzero : base ≠ 0) (negative : exponent < 0) :
    InRange bits (truncated ((base : ℚ) ^ exponent)) := by
  have small : (truncated ((base : ℚ) ^ exponent)).natAbs ≤ 1 := by
    rcases Nat.lt_or_ge 1 base.natAbs with large | small
    · rw [truncated_zpow_of_neg large negative]
      decide
    · obtain rfl | rfl : base = 1 ∨ base = -1 := by omega
      · rw [Int.cast_one, one_zpow]
        exact (congrArg Int.natAbs (truncated_intCast 1)).le
      · rw [truncated_neg_one_zpow]
        split <;> decide
  have power := Width.two_le_pow wide
  unfold InRange
  omega

/-- Up to 1024 bits powers are exact or refused, and the power of zero with a negative exponent is a division by zero.
An overflow names the power, or only the result if the power had to be computed. -/
theorem power_exact (wide : 2 ≤ bits) (narrow : bits ≤ 1024) {base exponent : Int} (first : InRange bits base)
    (second : InRange bits exponent) (estimates : Estimates logarithm bits base.natAbs exponent.toNat) :
    (power logarithm ⟨some bits⟩ base exponent = .error divisionByZero ↔ base = 0 ∧ exponent < 0) ∧
    (¬ (base = 0 ∧ exponent < 0) →
      ExactOrRefused bits ["result", toString base ++ " ^ " ++ toString exponent] (truncated ((base : ℚ) ^ exponent))
        (power logarithm ⟨some bits⟩ base exponent)) := by
  have defined (apart : ¬ (base = 0 ∧ exponent < 0)) :
      ExactOrRefused bits ["result", toString base ++ " ^ " ++ toString exponent] (truncated ((base : ℚ) ^ exponent))
        (power logarithm ⟨some bits⟩ base exponent) := by
    rcases lt_or_ge exponent 0 with negative | positive
    · have nonzero : base ≠ 0 := fun zero => apart ⟨zero, negative⟩
      rw [power_of_neg logarithm _ nonzero negative]
      exact ⟨fun _ => rfl, fun outside => absurd (inRange_of_neg wide nonzero negative) outside⟩
    · exact power_exact_of_nonneg logarithm narrow first second estimates positive
  refine ⟨⟨?_, ?_⟩, defined⟩
  · intro failed
    exact by_contra fun apart => (defined apart).ne_divisionByZero failed
  · rintro ⟨rfl, negative⟩
    exact power_zero_of_neg logarithm _ negative

/-- The least number of eight bits is a power, and the estimate of its length is not beyond the width. -/
theorem power_exact_least : 2 ≤ 8 ∧ 8 ≤ 1024 ∧ InRange 8 (-2) ∧ InRange 8 7 ∧
    Estimates (fun n => Binary64.ofInt n.log2) 8 2 7 ∧
    power (fun n => Binary64.ofInt n.log2) ⟨some 8⟩ (-2) 7 = .ok (-128) := by
  have base : InRange 8 (-2) := ⟨by decide, by decide⟩
  have exponent : InRange 8 7 := ⟨by decide, by decide⟩
  have estimates : Estimates (fun n => Binary64.ofInt n.log2) 8 2 7 := fun _ _ => by with_unfolding_all decide
  have exact := (power_exact (fun n => Binary64.ofInt n.log2) (by decide) (by decide) base exponent estimates).2
    (by decide)
  have value : truncated (((-2 : Int) : ℚ) ^ (7 : Int)) = -128 :=
    truncated_zpow_of_nonneg (-2) (show (0 : Int) ≤ 7 by decide)
  rw [value] at exact
  exact ⟨by decide, by decide, base, exponent, estimates, exact.1 ⟨by decide, by decide⟩⟩

end Reckoner.NumberSystem.Integer

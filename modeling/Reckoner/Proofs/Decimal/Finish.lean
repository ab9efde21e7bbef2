import Reckoner.Proofs.Decimal.Nearest
import Reckoner.Decimal.Constants

/-! The one rounding of the arithmetic. A coefficient and an exponent are rounded as the number is that they
stand for, and an outcome is the rounding of a number or an error that is no division by zero. -/

namespace Reckoner.Decimal

open Reckoner.Numeral

/-! ### Outcomes without a division by zero -/

/-- Whether the value of an outcome, if it has one, has a property, and no division by zero is reported. -/
abbrev Reaches {β : Type} (holds : β → Prop) (outcome : Except Signal β) : Prop :=
  Concludes (· ≠ .divisionByZero) holds outcome

/-! ### The rounding of a coefficient -/

theorem dropDigits_eq (coefficient count : Nat) :
    dropDigits coefficient count = Rounding.halfEven.quotient false coefficient (10 ^ count) := by
  unfold dropDigits
  split
  · rename_i short
    have below := lt_pow_digitCount coefficient
    have power : 10 ^ (digitCount coefficient + 1) ≤ 10 ^ count := Nat.pow_le_pow_right (by decide) short
    rw [Nat.pow_succ] at power
    have whole : coefficient / 10 ^ count = 0 := Nat.div_eq_of_lt (by omega)
    have rest : coefficient % 10 ^ count = coefficient := Nat.mod_eq_of_lt (by omega)
    unfold Rounding.quotient Rounding.goesUp
    simp only [whole, rest, Bool.or_eq_true, decide_eq_true_eq, Bool.and_eq_true, beq_iff_eq]
    split <;> omega
  · rfl

namespace Context

theorem signed_eq (negative : Bool) (coefficient : Nat) :
    (signed negative coefficient : ℚ) = if negative then -(coefficient : ℚ) else coefficient := by
  cases negative <;> simp [signed]

theorem signed_zero (negative : Bool) : signed negative 0 = 0 := by
  cases negative <;> rfl

theorem roundAt_signed (negative : Bool) (coefficient count : Nat) (exponent : Int) :
    roundAt (exponent + count) (signed negative coefficient * 10 ^ exponent) =
      signed negative (dropDigits coefficient count) * 10 ^ (exponent + count) := by
  have positive : 0 < 10 ^ count := Nat.pow_pos (by decide)
  have unsigned : roundAt (exponent + count) (coefficient * 10 ^ exponent) =
      dropDigits coefficient count * 10 ^ (exponent + count) := by
    have ratio : (coefficient : ℚ) * 10 ^ exponent / 10 ^ (exponent + count) =
        (coefficient : ℚ) / ((10 ^ count : Nat) : ℚ) := by
      rw [zpow_add₀ (by norm_num), zpow_natCast]
      push_cast
      field_simp
    rw [roundAt, ratio, nearestEven_div coefficient positive, dropDigits_eq]
    push_cast
    rfl
  cases negative with
  | false => simpa [signed] using unsigned
  | true => simpa [signed, roundAt_neg] using unsigned

theorem mul_pow_mul_zpow {exponent shift : Int} (above : shift ≤ exponent) (coefficient : Nat) :
    ((coefficient * 10 ^ (exponent - shift).toNat : Nat) : ℚ) * 10 ^ shift = coefficient * 10 ^ exponent := by
  push_cast
  rw [mul_assoc, ← zpow_natCast, ← zpow_add₀ (by norm_num), Int.toNat_of_nonneg (by omega)]
  congr 2
  omega

theorem trailingZeros_moved (most coefficient : Nat) (exponent : Int) :
    ((coefficient / 10 ^ trailingZeros most coefficient : Nat) : ℚ) *
      10 ^ (exponent + trailingZeros most coefficient) = coefficient * 10 ^ exponent := by
  rw [zpow_add₀ (by norm_num), zpow_natCast, mul_comm (_ ^ exponent), ← mul_assoc]
  congr 1
  exact_mod_cast Nat.div_mul_cancel (pow_trailingZeros_dvd most coefficient)

theorem pow_leading_le {coefficient : Nat} (positive : coefficient ≠ 0) (exponent : Int) :
    (10 : ℚ) ^ leading coefficient exponent ≤ coefficient * 10 ^ exponent := by
  have count := digitCount_pos coefficient
  have power : (10 : ℚ) ^ (digitCount coefficient - 1) ≤ coefficient := by
    exact_mod_cast pow_digitCount_le positive
  have split : leading coefficient exponent = ((digitCount coefficient - 1 : Nat) : ℤ) + exponent := by
    rw [leading]
    omega
  rw [split, zpow_add₀ (by norm_num), zpow_natCast]
  exact mul_le_mul_of_nonneg_right power (pow_ten_pos exponent).le

theorem lt_pow_leading (coefficient : Nat) (exponent : Int) :
    (coefficient : ℚ) * 10 ^ exponent < 10 ^ (leading coefficient exponent + 1) := by
  have power : (coefficient : ℚ) < 10 ^ digitCount coefficient := by
    exact_mod_cast lt_pow_digitCount coefficient
  have split : leading coefficient exponent + 1 = (digitCount coefficient : ℤ) + exponent := by
    rw [leading]
    omega
  rw [split, zpow_add₀ (by norm_num), zpow_natCast]
  exact mul_lt_mul_of_pos_right power (pow_ten_pos exponent)

theorem log_eq_leading {coefficient : Nat} (positive : coefficient ≠ 0) (exponent : Int) :
    Int.log 10 ((coefficient : ℚ) * 10 ^ exponent) = leading coefficient exponent :=
  log_eq (pow_leading_le positive exponent) (lt_pow_leading coefficient exponent)

theorem roundAt_signed_of_le {place exponent : ℤ} (coarse : place ≤ exponent) (negative : Bool) (coefficient : Nat) :
    roundAt place (signed negative coefficient * 10 ^ exponent) = signed negative coefficient * 10 ^ exponent := by
  obtain ⟨n, _, same⟩ := exists_pow_eq_mul coarse
  have multiple := roundAt_multiple place (signed negative coefficient * n)
  rw [same, ← mul_assoc]
  exact_mod_cast multiple

/-- A one with zeros behind it is the same number with a zero less and the next exponent. -/
theorem signed_carried {precision : Nat} (precise : 0 < precision) (negative : Bool) (exponent : ℤ) :
    (signed negative (10 ^ precision / 10) : ℚ) * 10 ^ (exponent + 1) =
      signed negative (10 ^ precision) * 10 ^ exponent := by
  obtain ⟨digits, split⟩ : ∃ digits, precision = digits + 1 := ⟨precision - 1, by omega⟩
  rw [split, Nat.pow_succ, Nat.mul_div_cancel _ (by decide), signed_eq, signed_eq, zpow_add_one₀ (by norm_num)]
  cases negative <;> simp <;> ring

variable {c : Context}

/-- A coefficient with too many digits loses those in excess. If they round it up to a one with zeros behind
it, its first digit is at the next place. -/
theorem map_dropExcess (precise : 0 < c.precision) (negative : Bool) {coefficient excess : Nat} {exponent : Int}
    (count : digitCount coefficient = c.precision + excess) (long : 0 < excess)
    (fits : exponent + digitCount coefficient - 1 ≤ c.greatest) :
    (if dropDigits coefficient excess < 10 ^ c.precision then
        .ok (finite negative (dropDigits coefficient excess) (exponent + excess))
      else if c.greatest < exponent + digitCount coefficient - 1 + 1 then .error .overflow
      else .ok (finite negative (dropDigits coefficient excess / 10) (exponent + excess + 1)) :
      Except Signal Decimal).map value =
    if |(signed negative (dropDigits coefficient excess) : ℚ) * 10 ^ (exponent + excess)| < 10 ^ (c.greatest + 1)
      then .ok (signed negative (dropDigits coefficient excess) * 10 ^ (exponent + excess))
      else .error .overflow := by
  have room := pow_ten_pos (exponent + excess)
  have length : exponent + digitCount coefficient - 1 + 1 = c.precision + (exponent + excess) := by omega
  have above : c.precision < digitCount coefficient := by omega
  obtain ⟨_, most⟩ := dropDigits_bounds precise above
  rw [show digitCount coefficient - c.precision = excess by omega] at most
  rw [abs_mul, abs_signed, abs_of_pos room, length]
  have power : (10 : ℚ) ^ (c.precision + (exponent + excess)) = 10 ^ c.precision * 10 ^ (exponent + excess) := by
    rw [zpow_add₀ (by norm_num), zpow_natCast]
  split
  · rename_i kept
    have top : (10 : ℚ) ^ (c.precision + (exponent + excess)) ≤ 10 ^ (c.greatest + 1) :=
      zpow_le_zpow_right₀ (by norm_num) (by omega)
    rw [power] at top
    have below : (dropDigits coefficient excess : ℚ) * 10 ^ (exponent + excess) < 10 ^ (c.greatest + 1) :=
      (mul_lt_mul_of_pos_right (by exact_mod_cast kept) room).trans_le top
    rw [if_pos below]
    simp [Except.map, value_finite]
  · rename_i carries
    have nines : dropDigits coefficient excess = 10 ^ c.precision := le_antisymm most (Nat.not_lt.mp carries)
    have next : (10 : ℚ) ^ (c.precision + (exponent + excess)) < 10 ^ (c.greatest + 1) ↔
        ¬ c.greatest < c.precision + (exponent + excess) := by
      rw [zpow_lt_zpow_iff_right₀ (by norm_num), not_lt, Int.lt_add_one_iff]
    rw [nines, Nat.cast_pow, Nat.cast_ofNat, ← power]
    simp only [next, ite_not]
    split
    · rfl
    · simp only [Except.map, value_finite, signed_carried precise]

/-- The one rounding of the arithmetic is the rounding of the number. -/
theorem map_finishFinite (precise : 0 < c.precision) (negative : Bool) (coefficient : Nat) (exponent : Int) :
    (c.finishFinite negative coefficient exponent).map value =
      c.round (signed negative coefficient * 10 ^ exponent) := by
  by_cases zero : coefficient = 0
  · rw [zero, signed_zero, Int.cast_zero, zero_mul, round_zero, finishFinite, if_pos rfl]
    simp [Except.map, value_finite, signed_zero]
  have unit := pow_ten_pos exponent
  have size : |(signed negative coefficient : ℚ) * 10 ^ exponent| = coefficient * 10 ^ exponent := by
    rw [abs_mul, abs_signed, abs_of_pos unit]
  have nonzero : (signed negative coefficient : ℚ) * 10 ^ exponent ≠ 0 := by
    rw [← abs_pos, size]
    exact mul_pos (by exact_mod_cast Nat.pos_of_ne_zero zero) unit
  have first : Int.log 10 |(signed negative coefficient : ℚ) * 10 ^ exponent| =
      exponent + digitCount coefficient - 1 := by
    rw [size, log_eq_leading zero, leading]
  unfold finishFinite round
  simp only [if_neg zero, if_neg nonzero, first]
  split
  · rfl
  rename_i fits
  split
  · split
    · rfl
    split
    · rename_i low
      have place : c.tiniest = exponent + ((c.tiniest - exponent).toNat : Nat) := by omega
      have dropped := roundAt_signed negative coefficient (c.tiniest - exponent).toNat exponent
      rw [← place] at dropped
      rw [dropped]
      simp [Except.map, value_finite]
    · rw [roundAt_signed_of_le (by omega)]
      simp [Except.map, value_finite]
  split
  · rename_i short
    have top : (10 : ℚ) ^ (leading coefficient exponent + 1) ≤ 10 ^ (c.greatest + 1) :=
      zpow_le_zpow_right₀ (by norm_num) (by rw [leading]; omega)
    rw [roundAt_signed_of_le (by omega), size, if_pos ((lt_pow_leading coefficient exponent).trans_le top)]
    simp [Except.map, value_finite]
  · rename_i long
    obtain ⟨excess, count⟩ := Nat.exists_eq_add_of_lt (Nat.not_le.mp long)
    have above : digitCount coefficient - c.precision = excess + 1 := by omega
    have place : exponent + digitCount coefficient - 1 - (c.precision - 1) = exponent + (excess + 1 : Nat) := by omega
    rw [place, roundAt_signed, above]
    exact map_dropExcess precise negative (by omega) excess.succ_pos (by omega)

/-! ### Results of operations -/

/-- Whether a decimal is finite and the rounding of a number. -/
structure IsRounding (c : Context) (q : ℚ) (z : Decimal) : Prop where
  isFinite : z.isFinite = true
  rounded : c.round q = .ok z.value

/-- Two roundings of one number are one number. -/
theorem IsRounding.value_eq {q : ℚ} {y z : Decimal} (first : c.IsRounding q y) (second : c.IsRounding q z) :
    y.value = z.value := Except.ok.inj (first.rounded.symm.trans second.rounded)

/-- Whether a number can be rounded. -/
def Fits (c : Context) (q : ℚ) : Prop := ∃ r, c.round q = .ok r

/-- Whether an outcome is the rounding of a number: a finite decimal, or the signal of what does not fit. -/
structure Gives (c : Context) (q : ℚ) (outcome : Except Signal Decimal) : Prop where
  isFinite : Yields (·.isFinite = true) outcome
  rounded : outcome.map value = c.round q

namespace Gives

variable {q : ℚ} {outcome : Except Signal Decimal}

theorem ite {condition : Prop} [Decidable condition] {left right : Except Signal Decimal}
    (first : condition → c.Gives q left) (second : ¬ condition → c.Gives q right) :
    c.Gives q (if condition then left else right) := by
  split
  · exact first ‹_›
  · exact second ‹_›

variable (gives : c.Gives q outcome)
include gives

theorem concludes {granted : Signal → Prop} (grants : ∀ signal, c.round q = .error signal → granted signal) :
    Concludes granted (c.IsRounding q) outcome where
  yields := by
    rintro z rfl
    exact ⟨gives.isFinite z rfl, gives.rounded.symm⟩
  fails := by
    rintro signal rfl
    exact grants signal gives.rounded.symm

theorem reaches : Reaches (c.IsRounding q) outcome :=
  gives.concludes fun _ failed same => round_ne_divisionByZero (failed.trans (congrArg _ same))

theorem settles (fits : c.Fits q) : Settles (c.IsRounding q) outcome := by
  obtain ⟨r, rounded⟩ := fits
  apply gives.concludes
  intro signal failed
  rw [rounded] at failed
  cases failed

end Gives

section
variable (precise : 0 < c.precision)
include precise

theorem finishFinite_gives {q : ℚ} {negative : Bool} {coefficient : Nat} {exponent : Int}
    (same : c.round (signed negative coefficient * 10 ^ exponent) = c.round q) :
    c.Gives q (c.finishFinite negative coefficient exponent) :=
  ⟨(rounds_isFinite c).finite _ _ _, (map_finishFinite precise _ _ _).trans same⟩

theorem finishFinite_natAbs_gives {q : ℚ} {sum exponent : Int} {both : Bool}
    (same : c.round (sum * 10 ^ exponent) = c.round q) :
    c.Gives q (c.finishFinite (if sum = 0 then both else decide (sum < 0)) sum.natAbs exponent) := by
  refine finishFinite_gives precise ?_
  have whole : signed (if sum = 0 then both else decide (sum < 0)) sum.natAbs = sum := by
    split
    · rename_i zero
      rw [zero]
      exact signed_zero both
    · unfold signed
      split <;> simp only [decide_eq_true_eq] at * <;> omega
  rw [whole, same]
end

end Context

end Reckoner.Decimal

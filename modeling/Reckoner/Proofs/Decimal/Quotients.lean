import Reckoner.Proofs.Decimal.Operations

/-! Quotients, remainders and square roots. Their digits do not end, and an operation finds a few more than it
keeps, with a last one that tells what was left out. -/

namespace Reckoner.Decimal

open Reckoner.Numeral

/-! ### Truncated division -/

/-- The whole part of a number, with its sign. -/
def truncated (q : ℚ) : ℤ := if 0 ≤ q then ⌊q⌋ else ⌈q⌉

theorem truncated_neg (q : ℚ) : truncated (-q) = -truncated q := by
  unfold truncated
  rcases lt_trichotomy q 0 with below | rfl | above
  · rw [if_pos (by linarith), if_neg (by linarith), Int.floor_neg]
  · simp
  · rw [if_neg (by linarith), if_pos above.le, Int.ceil_neg]

/-- The rest of a truncated division, with the sign of the dividend. -/
def remainder (q d : ℚ) : ℚ := q - d * truncated (q / d)

theorem remainder_neg (q d : ℚ) : remainder (-q) d = -remainder q d := by
  rw [remainder, neg_div, truncated_neg, remainder]
  push_cast
  ring

theorem remainder_neg_right (q d : ℚ) : remainder q (-d) = remainder q d := by
  rw [remainder, div_neg, truncated_neg, remainder]
  push_cast
  ring

theorem truncated_natCast_div (dividend divisor : Nat) :
    truncated ((dividend : ℚ) / divisor) = (dividend / divisor : Nat) := by
  rw [truncated, if_pos (by positivity), Rat.floor_natCast_div_natCast]
  rfl

theorem truncated_intCast_div (dividend divisor : Int) :
    truncated ((dividend : ℚ) / divisor) = dividend.tdiv divisor := by
  obtain ⟨n, rfl | rfl⟩ := dividend.eq_nat_or_neg <;> obtain ⟨d, rfl | rfl⟩ := divisor.eq_nat_or_neg <;>
    simp only [Int.cast_neg, Int.cast_natCast, neg_div, div_neg, truncated_neg, truncated_natCast_div, Int.neg_tdiv,
      Int.tdiv_neg, Int.ofNat_tdiv]

theorem truncated_intCast (n : Int) : truncated (n : ℚ) = n := by
  rw [truncated, Int.floor_intCast, Int.ceil_intCast, ite_self]

/-- A number is truncated below a positive whole number if it is below it, and below another one if it is at most the
one before. -/
theorem truncated_lt_iff {q : ℚ} {n : ℤ} :
    truncated q < n ↔ if 0 < n then q < n else q ≤ n - 1 := by
  unfold truncated
  rcases le_or_gt 0 q with nonneg | negative
  · rw [if_pos nonneg, Int.floor_lt]
    split
    · rfl
    · rename_i nonpos
      have upper : (n : ℚ) ≤ 0 := by exact_mod_cast not_lt.mp nonpos
      constructor <;> intro <;> linarith
  · rw [if_neg (not_le.mpr negative)]
    split
    · rename_i positive
      have last : ⌈q⌉ ≤ 0 := Int.ceil_le.mpr (by exact_mod_cast negative.le)
      have less : q < n := negative.trans (by exact_mod_cast positive)
      exact ⟨fun _ => less, fun _ => by omega⟩
    · rw [← Int.le_sub_one_iff, Int.ceil_le]
      push_cast
      rfl

theorem remainder_natCast_mul (dividend : Nat) {divisor : Nat} (_ : 0 < divisor) {unit : ℚ}
    (nonzero : unit ≠ 0) :
    remainder (dividend * unit) (divisor * unit) = (dividend % divisor : Nat) * unit := by
  have split : (dividend : ℚ) = divisor * (dividend / divisor : Nat) + (dividend % divisor : Nat) := by
    exact_mod_cast (Nat.div_add_mod dividend divisor).symm
  rw [remainder, mul_div_mul_right _ _ nonzero, truncated_natCast_div, Int.cast_natCast]
  linear_combination unit * split

namespace Context

variable {c : Context} (precise : 0 < c.precision) {x y : Decimal} (first : x.isFinite = true)
include precise

/-! ### Division -/

omit precise in
/-- A quotient that is not whole lies beside its whole part, raised where that would look like a tie or whole. -/
theorem beside_sticky {numerator denominator sticky : Nat} (place : ℤ) (positive : 0 < denominator)
    (rest : numerator % denominator ≠ 0)
    (raised : sticky = if numerator / denominator % 5 = 0 then numerator / denominator + 1
      else numerator / denominator) :
    Beside (5 * 10 ^ place) (sticky * 10 ^ place) ((numerator : ℚ) / denominator * 10 ^ place) := by
  have unit := pow_ten_pos place
  have below : (0 : ℚ) < denominator := by exact_mod_cast positive
  have parts := Nat.div_add_mod numerator denominator
  have small := Nat.mod_lt numerator positive
  generalize numerator / denominator = whole at *
  have above : (whole : ℚ) < numerator / denominator := by
    rw [lt_div_iff₀ below]
    exact_mod_cast (show whole * denominator < numerator by rw [mul_comm]; omega)
  have under : (numerator : ℚ) / denominator < whole + 1 := by
    rw [div_lt_iff₀ below]
    exact_mod_cast (show numerator < (whole + 1) * denominator by rw [add_mul, mul_comm]; omega)
  have digits : (whole : ℚ) = 5 * ((whole / 5 : Nat) : ℚ) + ((whole % 5 : Nat) : ℚ) := by
    exact_mod_cast (show whole = 5 * (whole / 5) + whole % 5 by omega)
  have first : (0 : ℚ) ≤ ((whole % 5 : Nat) : ℚ) := Nat.cast_nonneg _
  have last : ((whole % 5 : Nat) : ℚ) + 1 ≤ 5 := by exact_mod_cast (show whole % 5 + 1 ≤ 5 by omega)
  have inside : 5 * (whole / 5) < sticky ∧ sticky < 5 * (whole / 5) + 5 := by
    rw [raised]
    split <;> omega
  have low : (5 : ℚ) * (whole / 5 : Nat) < sticky := by exact_mod_cast inside.1
  have high : (sticky : ℚ) < 5 * (whole / 5 : Nat) + 5 := by exact_mod_cast inside.2
  refine ⟨(whole / 5 : Nat), ?_⟩
  rw [Int.cast_natCast]
  refine ⟨⟨?_, ?_⟩, ?_, ?_⟩ <;> rw [← mul_assoc] <;> refine mul_lt_mul_of_pos_right ?_ unit <;> linarith

/-- Such a raised whole part is rounded as the quotient, if it is longer than what is kept. -/
theorem round_sticky {numerator denominator sticky : Nat} {place : ℤ} (negative : Bool)
    (positive : 0 < denominator) (rest : numerator % denominator ≠ 0)
    (long : 10 ^ c.precision * denominator ≤ numerator)
    (raised : sticky = if numerator / denominator % 5 = 0 then numerator / denominator + 1
      else numerator / denominator) :
    c.round (signed negative sticky * 10 ^ place) =
      c.round ((if negative then -1 else 1) * ((numerator : ℚ) / denominator * 10 ^ place)) := by
  have beside := beside_sticky place positive rest raised
  have below : (0 : ℚ) < denominator := by exact_mod_cast positive
  have length : (10 : ℚ) ^ (place + c.precision) ≤ |(numerator : ℚ) / denominator * 10 ^ place| := by
    have size : (0 : ℚ) ≤ numerator / denominator * 10 ^ place :=
      mul_nonneg (div_nonneg numerator.cast_nonneg below.le) (pow_ten_pos place).le
    rw [abs_of_nonneg size, zpow_add₀ (by norm_num), mul_comm, zpow_natCast]
    refine mul_le_mul_of_nonneg_right ?_ (pow_ten_pos place).le
    rw [le_div_iff₀ below]
    exact_mod_cast long
  cases negative with
  | false =>
    have same := round_congr place precise length beside
    simpa [signed] using same
  | true =>
    have same := round_congr place precise (by rwa [abs_neg]) beside.neg
    simpa [signed] using same

theorem quotientFinite_gives (negative : Bool) {m n : Nat} (exponent : Int) (numerator : m ≠ 0)
    (denominator : n ≠ 0) :
    c.Gives ((if negative then -1 else 1) * ((m : ℚ) / n * 10 ^ exponent))
      (c.quotientFinite negative m n exponent) := by
  unfold quotientFinite
  dsimp only
  generalize places : (digitCount n : Int) - digitCount m + c.precision + 1 = shift
  have positive : 0 < n * 10 ^ (-shift).toNat := Nat.mul_pos (Nat.pos_of_ne_zero denominator) (Nat.pow_pos (by decide))
  have ratio : ((m * 10 ^ shift.toNat : Nat) : ℚ) / (n * 10 ^ (-shift).toNat : Nat) * 10 ^ (exponent - shift) =
      (m : ℚ) / n * 10 ^ exponent := by
    have apart : exponent - shift = exponent + (-shift).toNat - shift.toNat := by omega
    have below : (n : ℚ) ≠ 0 := by exact_mod_cast denominator
    rw [apart, zpow_sub₀ (by norm_num), zpow_add₀ (by norm_num), zpow_natCast, zpow_natCast]
    push_cast
    field_simp
  rw [← ratio]
  generalize split : m * 10 ^ shift.toNat = dividend at *
  refine .ite ?_ ?_
  · intro whole
    refine finishFinite_gives precise (congrArg c.round ?_)
    obtain ⟨quotient, rfl⟩ := Nat.dvd_of_mod_eq_zero whole
    rw [Nat.mul_div_cancel_left _ positive]
    have below : ((n * 10 ^ (-shift).toNat : Nat) : ℚ) ≠ 0 := by exact_mod_cast positive.ne'
    rw [Nat.cast_mul, mul_div_cancel_left₀ _ below, ← trailingZeros_moved shift.toNat, signed_eq]
    cases negative <;> simp
  · intro rest
    refine finishFinite_gives precise (round_sticky precise negative positive rest ?_ rfl)
    have above := pow_digitCount_le numerator
    have below := (lt_pow_digitCount n).le
    have digits := digitCount_pos m
    calc 10 ^ c.precision * (n * 10 ^ (-shift).toNat)
        ≤ 10 ^ c.precision * (10 ^ digitCount n * 10 ^ (-shift).toNat) :=
          Nat.mul_le_mul_left _ (Nat.mul_le_mul_right _ below)
      _ = 10 ^ (digitCount m - 1) * 10 ^ shift.toNat := by
          rw [← Nat.pow_add, ← Nat.pow_add, ← Nat.pow_add]
          congr 1
          omega
      _ ≤ dividend := split ▸ Nat.mul_le_mul_right _ above

include first in
theorem div_gives (second : y.isFinite = true) (nonzero : y.value ≠ 0) :
    c.Gives (x.value / y.value) (c.div x y) := by
  obtain ⟨s, m, e, rfl⟩ := isFinite_iff.mp first
  obtain ⟨t, n, f, rfl⟩ := isFinite_iff.mp second
  have divisor : n ≠ 0 := by
    rintro rfl
    exact nonzero (by rw [value_finite, signed_zero, Int.cast_zero, zero_mul])
  unfold div
  dsimp only
  rw [if_neg divisor]
  have split : (finite s m e).value / (finite t n f).value =
      (if (s != t) then -1 else 1) * ((m : ℚ) / n * 10 ^ (e - f)) := by
    have unit := (pow_ten_pos f).ne'
    have below : (n : ℚ) ≠ 0 := by exact_mod_cast divisor
    rw [value_finite, value_finite, zpow_sub₀ (by norm_num)]
    cases s <;> cases t <;> simp [signed] <;> field_simp
  rw [split]
  refine .ite ?_ fun numerator => quotientFinite_gives precise _ _ numerator divisor
  intro zero
  refine finishFinite_gives precise (congrArg c.round ?_)
  rw [zero, signed_zero]
  simp

include first in
theorem div_reaches (second : y.isFinite = true) (nonzero : y.value ≠ 0) :
    Reaches (c.IsRounding (x.value / y.value)) (c.div x y) := (div_gives precise first second nonzero).reaches

omit precise in
/-- The places of the first digits only save the division: without them the quotient decides as well. -/
theorem remFinite_eq (c : Context) (s : Bool) (m : Nat) (e : Int) {n : Nat} (divisor : n ≠ 0) (f : Int) :
    c.remFinite s m e n f =
      if 10 ^ c.precision ≤ m * 10 ^ (e - min e f).toNat / (n * 10 ^ (f - min e f).toNat) then .error .invalid
      else c.finishFinite s (m * 10 ^ (e - min e f).toNat % (n * 10 ^ (f - min e f).toNat)) (min e f) := by
  unfold remFinite
  dsimp only
  have unit := pow_ten_pos (min e f)
  have dividend := mul_pow_mul_zpow (show min e f ≤ e by omega) m
  have aligned := mul_pow_mul_zpow (show min e f ≤ f by omega) n
  have positive : 0 < n * 10 ^ (f - min e f).toNat :=
    Nat.mul_pos (Nat.pos_of_ne_zero divisor) (Nat.pow_pos (by decide))
  generalize m * 10 ^ (e - min e f).toNat = above at *
  generalize n * 10 ^ (f - min e f).toNat = below at *
  have low := pow_leading_le divisor f
  have high := lt_pow_leading n f
  split
  · rename_i zero
    rw [zero, Nat.cast_zero, zero_mul] at dividend
    have none : above = 0 := by
      have zeros := (mul_eq_zero.mp dividend).resolve_right unit.ne'
      exact_mod_cast zeros
    rw [none, Nat.zero_div, Nat.zero_mod, if_neg (Nat.not_le.mpr (Nat.pow_pos (by decide)))]
  rename_i nonzero
  have first := pow_leading_le nonzero e
  have last := lt_pow_leading m e
  split
  · -- The quotient is below one, and the dividend stays.
    have less : above < below := by
      have apart : (10 : ℚ) ^ (leading m e + 1) ≤ 10 ^ leading n f :=
        zpow_le_zpow_right₀ (by norm_num) (by omega)
      have sizes := last.trans_le (apart.trans low)
      rw [← dividend, ← aligned] at sizes
      exact_mod_cast lt_of_mul_lt_mul_right sizes unit.le
    rw [Nat.div_eq_of_lt less, Nat.mod_eq_of_lt less, if_neg (Nat.not_le.mpr (Nat.pow_pos (by decide)))]
  split
  · -- The first digits are further apart than the quotient may have digits.
    have long : 10 ^ c.precision * below ≤ above := by
      have apart : (10 : ℚ) ^ c.precision * 10 ^ (leading n f + 1) ≤ 10 ^ leading m e := by
        rw [← zpow_natCast, ← zpow_add₀ (by norm_num)]
        exact zpow_le_zpow_right₀ (by norm_num) (by omega)
      have sizes := (mul_le_mul_of_nonneg_left high.le (by positivity)).trans (apart.trans first)
      rw [← dividend, ← aligned, ← mul_assoc] at sizes
      exact_mod_cast le_of_mul_le_mul_right sizes unit
    rw [if_pos ((Nat.le_div_iff_mul_le positive).mpr long)]
  · rfl

section
variable (second : y.isFinite = true)
include first second

omit precise in
/-- Two numbers as multiples of one unit, and what the remainder does with the multiples. -/
theorem rem_aligned (nonzero : y.value ≠ 0) : ∃ (s : Bool) (dividend divisor : Nat) (exponent : Int),
    |truncated (x.value / y.value)| = (dividend / divisor : Nat) ∧
      remainder x.value y.value = signed s (dividend % divisor) * 10 ^ exponent ∧
      c.rem x y = if 10 ^ c.precision ≤ dividend / divisor then .error .invalid
        else c.finishFinite s (dividend % divisor) exponent := by
  obtain ⟨s, m, e, rfl⟩ := isFinite_iff.mp first
  obtain ⟨t, n, f, rfl⟩ := isFinite_iff.mp second
  have divisor : n ≠ 0 := by
    rintro rfl
    exact nonzero (by rw [value_finite, signed_zero, Int.cast_zero, zero_mul])
  have unit := pow_ten_pos (min e f)
  have positive : 0 < n * 10 ^ (f - min e f).toNat :=
    Nat.mul_pos (Nat.pos_of_ne_zero divisor) (Nat.pow_pos (by decide))
  have unsigned := remainder_natCast_mul (m * 10 ^ (e - min e f).toNat) positive unit.ne'
  have whole := truncated_natCast_div (m * 10 ^ (e - min e f).toNat) (n * 10 ^ (f - min e f).toNat)
  rw [← mul_div_mul_right _ _ unit.ne', mul_pow_mul_zpow (by omega), mul_pow_mul_zpow (by omega)] at whole
  rw [mul_pow_mul_zpow (by omega), mul_pow_mul_zpow (by omega)] at unsigned
  refine ⟨s, m * 10 ^ (e - min e f).toNat, n * 10 ^ (f - min e f).toNat, min e f, ?_, ?_, ?_⟩
  · rw [← Nat.abs_cast, ← whole, value_finite, value_finite, signed_eq, signed_eq]
    cases s <;> cases t <;>
      simp only [Bool.false_eq_true, if_true, if_false, neg_mul, neg_div, div_neg, truncated_neg, abs_neg]
  · rw [value_finite, value_finite, signed_eq, signed_eq, signed_eq]
    cases s <;> cases t <;> simp only [Bool.false_eq_true, if_true, if_false, neg_mul, remainder_neg,
      remainder_neg_right, unsigned]
  · rw [rem, if_neg divisor, remFinite_eq c s m e divisor f]

/-- A remainder is exact before it is rounded, if the quotient has no more digits than are kept. -/
theorem rem_gives (nonzero : y.value ≠ 0) (few : |truncated (x.value / y.value)| < 10 ^ c.precision) :
    c.Gives (remainder x.value y.value) (c.rem x y) := by
  obtain ⟨s, dividend, divisor, exponent, quotient, rest, computed⟩ := rem_aligned (c := c) first second nonzero
  rw [quotient] at few
  rw [computed, rest, if_neg (Nat.not_le.mpr (by exact_mod_cast few))]
  exact finishFinite_gives precise rfl

omit precise in
theorem rem_refuses (nonzero : y.value ≠ 0) (many : 10 ^ c.precision ≤ |truncated (x.value / y.value)|) :
    c.rem x y = .error .invalid := by
  obtain ⟨s, dividend, divisor, exponent, quotient, rest, computed⟩ := rem_aligned (c := c) first second nonzero
  rw [quotient] at many
  rw [computed, if_pos (by exact_mod_cast many)]

theorem rem_concludes {granted : Signal → Prop} (invalid : granted .invalid)
    (grants : ∀ signal, c.round (remainder x.value y.value) = .error signal → granted signal) :
    Concludes granted (c.IsRounding (remainder x.value y.value)) (c.rem x y) := by
  by_cases zero : y.value = 0
  · have refused : c.rem x y = .error .invalid := by
      obtain ⟨s, m, e, rfl⟩ := isFinite_iff.mp first
      obtain ⟨t, n, f, rfl⟩ := isFinite_iff.mp second
      exact if_pos (by simpa [isZero] using (isZero_iff second).mpr zero)
    rw [refused]
    exact .error invalid
  rcases lt_or_ge |truncated (x.value / y.value)| (10 ^ c.precision) with few | many
  · exact (rem_gives precise first second zero few).concludes grants
  · rw [rem_refuses first second zero many]
    exact .error invalid

theorem rem_reaches : Reaches (c.IsRounding (remainder x.value y.value)) (c.rem x y) := by
  apply rem_concludes precise first second nofun
  intro _ failed same
  exact round_ne_divisionByZero (failed.trans (congrArg _ same))

end

/-! ### Square roots -/

omit precise in
/-- A whole number beside the whole part of a root is a unit from the root at most. -/
theorem near_sqrt {root scaled : Nat} (least : Nat.sqrt scaled ≤ root) (most : root ≤ Nat.sqrt scaled + 1)
    (unit : ℚ) (positive : 1 ≤ root) :
    (root * unit - unit) ^ 2 ≤ scaled * unit ^ 2 ∧ scaled * unit ^ 2 ≤ (root * unit + unit) ^ 2 := by
  have low : ((root : ℚ) - 1) ^ 2 ≤ scaled := by
    have square : (root - 1) ^ 2 ≤ scaled :=
      (Nat.pow_le_pow_left (show root - 1 ≤ Nat.sqrt scaled by omega) 2).trans (Nat.sqrt_le' scaled)
    have cast : ((root - 1 : Nat) : ℚ) ^ 2 ≤ scaled := by exact_mod_cast square
    rwa [Nat.cast_sub positive, Nat.cast_one] at cast
  have high : (scaled : ℚ) ≤ ((root : ℚ) + 1) ^ 2 := by
    exact_mod_cast (Nat.lt_succ_sqrt' scaled).le.trans (Nat.pow_le_pow_left (Nat.succ_le_succ least) 2)
  have square := sq_nonneg unit
  constructor
  · calc (root * unit - unit) ^ 2 = ((root : ℚ) - 1) ^ 2 * unit ^ 2 := by ring
      _ ≤ scaled * unit ^ 2 := mul_le_mul_of_nonneg_right low square
  · calc scaled * unit ^ 2 ≤ ((root : ℚ) + 1) ^ 2 * unit ^ 2 := mul_le_mul_of_nonneg_right high square
      _ = (root * unit + unit) ^ 2 := by ring

omit precise in
/-- With enough zeros behind it, a number has a root longer than what is kept. -/
theorem pow_le_sqrt {precision coefficient places : Nat} (nonzero : coefficient ≠ 0)
    (enough : 2 * precision ≤ digitCount coefficient - 1 + 2 * places) :
    10 ^ precision ≤ Nat.sqrt (coefficient * 10 ^ (2 * places)) := by
  refine Nat.le_sqrt'.mpr ?_
  calc (10 ^ precision) ^ 2 = 10 ^ (precision * 2) := (Nat.pow_mul _ _ _).symm
    _ ≤ 10 ^ (digitCount coefficient - 1 + 2 * places) := Nat.pow_le_pow_right (by decide) (by omega)
    _ = 10 ^ (digitCount coefficient - 1) * 10 ^ (2 * places) := Nat.pow_add _ _ _
    _ ≤ coefficient * 10 ^ (2 * places) := Nat.mul_le_mul_right _ (pow_digitCount_le nonzero)

omit precise in
theorem mul_pow_mul_sq (even : Nat) (ideal : Int) (places : Nat) :
    ((even * 10 ^ (2 * places) : Nat) : ℚ) * (10 ^ (ideal - places)) ^ 2 = even * 10 ^ (2 * ideal) := by
  have moved : (10 : ℚ) ^ (2 * ideal) = 10 ^ (2 * places) * (10 ^ (ideal - places)) ^ 2 := by
    rw [← zpow_natCast, ← zpow_natCast, ← zpow_mul, ← zpow_add₀ (by norm_num)]
    congr 1
    push_cast
    ring
  rw [moved]
  push_cast
  ring

include first in
/-- A square root is the rounding of a number near the root, with more digits than are kept. -/
theorem sqrt_gives (nonneg : 0 ≤ x.value) :
    ∃ q unit : ℚ, c.Gives q (c.sqrt x) ∧ 0 ≤ unit ∧ unit * 10 ^ c.precision ≤ q ∧
      (q - unit) ^ 2 ≤ x.value ∧ x.value ≤ (q + unit) ^ 2 := by
  obtain ⟨s, m, e, rfl⟩ := isFinite_iff.mp first
  unfold sqrt
  dsimp only
  by_cases zero : m = 0
  · rw [if_pos zero, zero, value_finite, signed_zero]
    refine ⟨0, 0, finishFinite_gives precise (congrArg c.round ?_), le_rfl, by simp, by simp, by simp⟩
    rw [signed_zero, Int.cast_zero, zero_mul]
  have sign : ¬ s = true := by
    rintro rfl
    have below : (finite true m e).value < 0 := by
      rw [value_finite, signed_eq, if_pos rfl, neg_mul, neg_lt_zero]
      exact mul_pos (by exact_mod_cast Nat.pos_of_ne_zero zero) (pow_ten_pos e)
    exact absurd nonneg (not_le.mpr below)
  rw [if_neg zero, if_neg sign]
  generalize lower : e.fdiv 2 = ideal
  generalize split : m * 10 ^ (e - 2 * ideal).toNat = even
  generalize missing : ((2 * (c.precision + 1) - digitCount even : Int).toNat + 1) / 2 = places
  generalize unit : (10 : ℚ) ^ (ideal - places) = step
  have apart : 0 < step := unit ▸ pow_ten_pos _
  have halves : 2 * ideal ≤ e := by
    rw [← lower, Int.fdiv_eq_ediv_of_nonneg _ (by decide)]
    omega
  have whole : (finite s m e).value = (even * 10 ^ (2 * places) : Nat) * step ^ 2 := by
    rw [← unit, mul_pow_mul_sq, ← split, mul_pow_mul_zpow halves, value_finite, signed_eq, if_neg sign]
  have long : 10 ^ c.precision ≤ Nat.sqrt (even * 10 ^ (2 * places)) := by
    have nonzero : even ≠ 0 := split ▸ Nat.mul_ne_zero zero (Nat.pow_pos (by decide)).ne'
    have digits := digitCount_pos even
    exact pow_le_sqrt nonzero (by omega)
  have some : 1 ≤ 10 ^ c.precision := Nat.pow_pos (by decide)
  have enough {root : Nat} (least : Nat.sqrt (even * 10 ^ (2 * places)) ≤ root) :
      step * 10 ^ c.precision ≤ root * step := by
    rw [mul_comm]
    exact mul_le_mul_of_nonneg_right (by exact_mod_cast long.trans least) apart.le
  rw [whole]
  generalize even * 10 ^ (2 * places) = scaled at *
  split
  · refine ⟨Nat.sqrt scaled * step, step, finishFinite_gives precise (congrArg c.round ?_), apart.le, enough le_rfl,
      near_sqrt le_rfl (Nat.le_succ _) step (some.trans long)⟩
    rw [← unit, ← trailingZeros_moved places, signed_eq, if_neg (by decide)]
  · generalize raised : (if Nat.sqrt scaled % 5 = 0 then Nat.sqrt scaled + 1 else Nat.sqrt scaled) = root
    have least : Nat.sqrt scaled ≤ root := by
      rw [← raised]
      split <;> omega
    have most : root ≤ Nat.sqrt scaled + 1 := by
      rw [← raised]
      split <;> omega
    refine ⟨root * step, step, finishFinite_gives precise (congrArg c.round ?_), apart.le, enough least,
      near_sqrt least most step (some.trans (long.trans least))⟩
    rw [← unit, signed_eq, if_neg (by decide)]

include first in
theorem sqrt_reaches :
    Reaches (fun z => ∃ q unit : ℚ, c.IsRounding q z ∧ 0 ≤ unit ∧ unit * 10 ^ c.precision ≤ q ∧
      (q - unit) ^ 2 ≤ x.value ∧ x.value ≤ (q + unit) ^ 2) (c.sqrt x) := by
  rcases lt_or_ge x.value 0 with negative | nonneg
  · obtain ⟨s, m, e, rfl⟩ := isFinite_iff.mp first
    rw [value_finite, signed_eq] at negative
    have nonzero : m ≠ 0 := by
      rintro rfl
      simp at negative
    have sign : s = true := by
      by_contra positive
      rw [if_neg positive] at negative
      exact absurd negative (not_lt.mpr (mul_nonneg m.cast_nonneg (pow_ten_pos e).le))
    unfold sqrt
    dsimp only
    rw [if_neg nonzero, if_pos sign]
    exact .error nofun
  · obtain ⟨q, unit, gives, near⟩ := sqrt_gives precise first nonneg
    exact gives.reaches.mono fun z rounding => ⟨q, unit, rounding, near⟩

end Context

end Reckoner.Decimal

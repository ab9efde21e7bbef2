import Reckoner.Proofs.Decimal.Normalize
import Mathlib.Data.Int.Log
import Mathlib.Data.Rat.Floor
import Mathlib.Tactic.FieldSimp
import Mathlib.Tactic.Linarith
import Mathlib.Tactic.Ring

/-! Decimals as rational numbers. A rational number is rounded to a multiple of a power of ten, the nearest
one and the even one in a tie; which power a context rounds to depends on the first digit of the number.
The one rounding of the decimal arithmetic is this rounding of the exact number, whatever coefficient and
exponent stand for it. -/

namespace Reckoner.Decimal

open Reckoner.Numeral

/-! ### The nearest whole number -/

/-- The nearest whole number, the even one in a tie. -/
def nearestEven (q : ℚ) : ℤ :=
  if 2 * (q - ⌊q⌋) < 1 ∨ 2 * (q - ⌊q⌋) = 1 ∧ Even ⌊q⌋ then ⌊q⌋ else ⌊q⌋ + 1

theorem nearestEven_near (q : ℚ) : 2 * |q - nearestEven q| ≤ 1 := by
  have below := Int.floor_le q
  have above := Int.lt_floor_add_one q
  unfold nearestEven
  split
  · rename_i down
    rw [abs_of_nonneg (by linarith)]
    rcases down with less | ⟨tie, _⟩ <;> linarith
  · rename_i up
    have half : 1 ≤ 2 * (q - ⌊q⌋) := not_lt.mp fun less => up (.inl less)
    push_cast
    rw [abs_of_nonpos (by linarith)]
    linarith

theorem even_nearestEven {q : ℚ} (tie : 2 * |q - nearestEven q| = 1) : Even (nearestEven q) := by
  have below := Int.floor_le q
  have above := Int.lt_floor_add_one q
  unfold nearestEven at tie ⊢
  split at tie
  · rename_i down
    rw [if_pos down]
    rw [abs_of_nonneg (by linarith)] at tie
    rcases down with less | ⟨_, even⟩
    · linarith
    · exact even
  · rename_i up
    rw [if_neg up]
    push_cast at tie
    rw [abs_of_nonpos (by linarith)] at tie
    have odd : ¬ Even ⌊q⌋ := fun even => up (.inr ⟨by linarith, even⟩)
    exact (Int.not_even_iff_odd.mp odd).add_one

/-- A whole number that is as near as any, and even in a tie, is the nearest one. -/
theorem eq_nearestEven {q : ℚ} {n : ℤ} (near : 2 * |q - n| ≤ 1) (even : 2 * |q - n| = 1 → Even n) :
    nearestEven q = n := by
  have other := nearestEven_near q
  by_contra apart
  -- The two are neighbours and both as far from `q`, so both are even.
  have far : (1 : ℚ) ≤ |((nearestEven q - n : ℤ) : ℚ)| := by
    rw [← Int.cast_abs]
    exact_mod_cast Int.one_le_abs (sub_ne_zero.mpr apart)
  have between : |((nearestEven q - n : ℤ) : ℚ)| ≤ |q - n| + |q - nearestEven q| := by
    push_cast
    have split : (nearestEven q : ℚ) - n = (q - n) - (q - nearestEven q) := by ring
    rw [split]
    exact abs_sub _ _
  have first := even (by linarith)
  have second := even_nearestEven (q := q) (by linarith)
  obtain ⟨i, left⟩ := first
  obtain ⟨j, right⟩ := second
  have close : |((nearestEven q - n : ℤ) : ℚ)| ≤ 1 := by linarith
  rw [← Int.cast_abs] at close
  have close : |nearestEven q - n| ≤ 1 := by exact_mod_cast close
  rw [abs_le] at close
  omega

theorem nearestEven_neg (q : ℚ) : nearestEven (-q) = -nearestEven q := by
  have mirrored : |(-q) - ((-nearestEven q : ℤ) : ℚ)| = |q - nearestEven q| := by
    push_cast
    rw [← abs_neg]
    congr 1
    ring
  refine eq_nearestEven ?_ ?_
  · rw [mirrored]
    exact nearestEven_near q
  · intro tie
    rw [mirrored] at tie
    exact (even_nearestEven tie).neg

theorem nearestEven_div (numerator : Nat) {denominator : Nat} (positive : 0 < denominator) :
    nearestEven ((numerator : ℚ) / denominator) =
      (Rounding.halfEven.quotient false numerator denominator : Nat) := by
  have unit : (0 : ℚ) < denominator := by exact_mod_cast positive
  have split : (numerator : ℚ) / denominator - (((numerator / denominator : Nat) : ℤ) : ℚ) =
      ((numerator % denominator : Nat) : ℚ) / denominator := by
    rw [Int.cast_natCast, eq_div_iff unit.ne', sub_mul, div_mul_cancel₀ _ unit.ne', sub_eq_iff_eq_add']
    exact_mod_cast (Nat.div_add_mod' numerator denominator).symm
  have less (rest : Nat) : 2 * ((rest : ℚ) / denominator) < 1 ↔ 2 * rest < denominator := by
    rw [← mul_div_assoc, div_lt_one unit]
    exact_mod_cast Iff.rfl
  have tie (rest : Nat) : 2 * ((rest : ℚ) / denominator) = 1 ↔ 2 * rest = denominator := by
    rw [← mul_div_assoc, div_eq_one_iff_eq unit.ne']
    exact_mod_cast Iff.rfl
  unfold nearestEven
  rw [Rat.floor_natCast_div_natCast, ← Int.natCast_ediv, split]
  simp only [less, tie, Int.even_coe_nat]
  unfold Rounding.quotient
  simp only [Rounding.goesUp, Bool.or_eq_true, decide_eq_true_eq, Bool.and_eq_true, beq_iff_eq,
    Nat.even_iff]
  split <;> split <;> omega

/-! ### The nearest multiple of a power of ten -/

/-- The nearest multiple of `10 ^ place`, the even one in a tie. -/
def roundAt (place : ℤ) (q : ℚ) : ℚ := nearestEven (q / 10 ^ place) * 10 ^ place

theorem pow_ten_pos (place : ℤ) : (0 : ℚ) < 10 ^ place := zpow_pos (by norm_num) place

theorem roundAt_zero (place : ℤ) : roundAt place 0 = 0 := by
  have none : nearestEven 0 = 0 := by
    rw [nearestEven]
    norm_num
  rw [roundAt, zero_div, none]
  norm_num

theorem roundAt_neg (place : ℤ) (q : ℚ) : roundAt place (-q) = -roundAt place q := by
  rw [roundAt, neg_div, nearestEven_neg, roundAt]
  push_cast
  ring

/-- A multiple that is as near as any, and even in a tie, is the nearest one. -/
theorem eq_roundAt {place : ℤ} {q : ℚ} {n : ℤ} (near : 2 * |q - n * 10 ^ place| ≤ 10 ^ place)
    (even : 2 * |q - n * 10 ^ place| = 10 ^ place → Even n) : roundAt place q = n * 10 ^ place := by
  have unit := pow_ten_pos place
  have scaled : 2 * |q / 10 ^ place - n| = 2 * |q - n * 10 ^ place| / 10 ^ place := by
    rw [mul_div_assoc, ← abs_of_pos unit, ← abs_div, abs_of_pos unit, sub_div, mul_div_cancel_right₀ _ unit.ne']
  rw [roundAt, eq_nearestEven (n := n)]
  · rw [scaled]
    exact (div_le_one unit).mpr near
  · intro tie
    rw [scaled, div_eq_one_iff_eq unit.ne'] at tie
    exact even tie

/-- Rounding moves a number by half a unit at most. -/
theorem roundAt_error (place : ℤ) (q : ℚ) : |roundAt place q - q| ≤ 10 ^ place / 2 := by
  have unit := pow_ten_pos place
  have near := nearestEven_near (q / 10 ^ place)
  have scaled : roundAt place q - q = -((q / 10 ^ place - nearestEven (q / 10 ^ place)) * 10 ^ place) := by
    rw [roundAt, sub_mul, div_mul_cancel₀ _ unit.ne']
    ring
  rw [scaled, abs_neg, abs_mul, abs_of_pos unit]
  nlinarith

theorem roundAt_multiple (place : ℤ) (n : ℤ) : roundAt place (n * 10 ^ place) = n * 10 ^ place := by
  have unit := pow_ten_pos place
  refine eq_roundAt ?_ ?_
  · rw [sub_self, abs_zero]
    linarith
  · intro tie
    rw [sub_self, abs_zero] at tie
    linarith

theorem le_roundAt {place : ℤ} {q : ℚ} {n : ℤ} (above : n * 10 ^ place ≤ q) :
    n * 10 ^ place ≤ roundAt place q := by
  have unit := pow_ten_pos place
  have error := (abs_le.mp (roundAt_error place q)).1
  rw [roundAt] at error ⊢
  have close : ((n : ℚ) - 1) * 10 ^ place < nearestEven (q / 10 ^ place) * 10 ^ place := by linarith
  have next : n - 1 < nearestEven (q / 10 ^ place) := by
    exact_mod_cast lt_of_mul_lt_mul_right close unit.le
  have least : (n : ℚ) ≤ nearestEven (q / 10 ^ place) := by exact_mod_cast Int.sub_one_lt_iff.mp next
  exact mul_le_mul_of_nonneg_right least unit.le

theorem roundAt_le {place : ℤ} {q : ℚ} {n : ℤ} (below : q ≤ n * 10 ^ place) :
    roundAt place q ≤ n * 10 ^ place := by
  have mirrored : ((-n : ℤ) : ℚ) * 10 ^ place ≤ -q := by
    push_cast
    linarith
  have opposite := le_roundAt mirrored
  rw [roundAt_neg] at opposite
  push_cast at opposite
  linarith

theorem exists_pow_eq_mul {place k : ℤ} (within : place ≤ k) :
    ∃ n : ℤ, 0 < n ∧ (10 : ℚ) ^ k = n * 10 ^ place := by
  refine ⟨10 ^ (k - place).toNat, by positivity, ?_⟩
  push_cast
  rw [← zpow_natCast, Int.toNat_of_nonneg (by omega), ← zpow_add₀ (by norm_num)]
  congr 1
  omega

/-- Two different multiples of powers of ten differ by the smaller power at least. -/
theorem pow_le_abs_sub {place k l n m : ℤ} (first : place ≤ k) (second : place ≤ l)
    (apart : (n : ℚ) * 10 ^ k ≠ m * 10 ^ l) : (10 : ℚ) ^ place ≤ |(n : ℚ) * 10 ^ k - m * 10 ^ l| := by
  have unit := pow_ten_pos place
  obtain ⟨i, _, left⟩ := exists_pow_eq_mul first
  obtain ⟨j, _, right⟩ := exists_pow_eq_mul second
  have split : (n : ℚ) * 10 ^ k - m * 10 ^ l = ((n * i - m * j : ℤ) : ℚ) * 10 ^ place := by
    rw [left, right]
    push_cast
    ring
  have nonzero := sub_ne_zero.mpr apart
  rw [split] at nonzero ⊢
  have whole : 1 ≤ |n * i - m * j| := Int.one_le_abs (by exact_mod_cast left_ne_zero_of_mul nonzero)
  rw [abs_mul, abs_of_pos unit]
  exact le_mul_of_one_le_left unit.le (by exact_mod_cast whole)

theorem abs_roundAt_le {place k : ℤ} {q : ℚ} (within : place ≤ k) (below : |q| ≤ 10 ^ k) :
    |roundAt place q| ≤ 10 ^ k := by
  obtain ⟨n, _, same⟩ := exists_pow_eq_mul within
  obtain ⟨low, high⟩ := abs_le.mp below
  rw [same] at low high ⊢
  refine abs_le.mpr ⟨?_, roundAt_le high⟩
  have mirrored : ((-n : ℤ) : ℚ) * 10 ^ place ≤ q := by
    push_cast
    linarith
  have least := le_roundAt mirrored
  push_cast at least
  linarith

/-- A number that passes a power of ten by less than half a unit is rounded to it at most. -/
theorem abs_roundAt_le_of_near {place k : ℤ} {q : ℚ} (within : place ≤ k) (near : |q| < 10 ^ k + 10 ^ place / 2) :
    |roundAt place q| ≤ 10 ^ k := by
  have unit := pow_ten_pos place
  obtain ⟨m, _, same⟩ := exists_pow_eq_mul within
  have below : |roundAt place q| < (m + 1) * 10 ^ place := by
    rw [same] at near
    linarith [roundAt_error place q, abs_sub_abs_le_abs_sub (roundAt place q) q]
  rw [roundAt, abs_mul, abs_of_pos unit] at below ⊢
  rw [same]
  have less : |nearestEven (q / 10 ^ place)| < m + 1 := by exact_mod_cast lt_of_mul_lt_mul_right below unit.le
  exact mul_le_mul_of_nonneg_right (by exact_mod_cast Int.lt_add_one_iff.mp less) unit.le

theorem le_abs_roundAt {place k : ℤ} {q : ℚ} (within : place ≤ k) (above : 10 ^ k ≤ |q|) :
    10 ^ k ≤ |roundAt place q| := by
  obtain ⟨n, _, same⟩ := exists_pow_eq_mul within
  rw [same] at above ⊢
  rcases le_abs.mp above with positive | negative
  · exact (le_roundAt positive).trans (le_abs_self _)
  · have opposite := le_roundAt negative
    rw [roundAt_neg] at opposite
    exact opposite.trans (neg_le_abs _)

/-! ### Numbers between the same neighbours -/

/-- Whether two numbers lie between the same two neighbouring multiples of a unit. -/
def Beside (unit q r : ℚ) : Prop :=
  ∃ k : ℤ, (k * unit < q ∧ q < (k + 1) * unit) ∧ k * unit < r ∧ r < (k + 1) * unit

namespace Beside

variable {unit q r : ℚ}

theorem symm (beside : Beside unit q r) : Beside unit r q := by
  obtain ⟨k, first, second⟩ := beside
  exact ⟨k, second, first⟩

theorem le_of_le (positive : 0 < unit) (beside : Beside unit q r) {n : ℤ} (above : n * unit ≤ q) :
    n * unit < r := by
  obtain ⟨k, ⟨_, high⟩, low, _⟩ := beside
  have less : n < k + 1 := by
    exact_mod_cast lt_of_mul_lt_mul_right (above.trans_lt high) positive.le
  have least : (n : ℚ) ≤ k := by exact_mod_cast Int.lt_add_one_iff.mp less
  exact (mul_le_mul_of_nonneg_right least positive.le).trans_lt low

theorem neg (beside : Beside unit q r) : Beside unit (-q) (-r) := by
  obtain ⟨k, ⟨low, high⟩, low', high'⟩ := beside
  refine ⟨-k - 1, ?_⟩
  push_cast
  refine ⟨⟨?_, ?_⟩, ?_, ?_⟩ <;> linarith

theorem ge_of_ge (positive : 0 < unit) (beside : Beside unit q r) {n : ℤ} (below : q ≤ n * unit) :
    r < n * unit := by
  have mirrored : ((-n : ℤ) : ℚ) * unit ≤ -q := by
    push_cast
    linarith
  have opposite := beside.neg.le_of_le positive mirrored
  push_cast at opposite
  linarith

theorem le_abs_of_le_abs (positive : 0 < unit) (beside : Beside unit q r) {n : ℤ}
    (above : n * unit ≤ |q|) : n * unit ≤ |r| := by
  rcases le_abs.mp above with right | left
  · exact (beside.le_of_le positive right).le.trans (le_abs_self _)
  · exact (beside.neg.le_of_le positive left).le.trans (neg_le_abs _)

theorem roundAt_eq {place : ℤ} (positive : 0 < unit) (beside : Beside unit q r) {half : ℤ}
    (even : (10 : ℚ) ^ place = 2 * half * unit) : roundAt place q = roundAt place r := by
  have error := abs_le.mp (roundAt_error place r)
  generalize multiple : nearestEven (r / 10 ^ place) = n
  rw [roundAt, multiple] at error
  have low : ((2 * n * half - half : ℤ) : ℚ) * unit ≤ r := by
    push_cast
    rw [even] at error
    linarith
  have high : r ≤ ((2 * n * half + half : ℤ) : ℚ) * unit := by
    push_cast
    rw [even] at error
    linarith
  have left := beside.symm.le_of_le positive low
  have right := beside.symm.ge_of_ge positive high
  push_cast at left right
  have inside : 2 * |q - n * 10 ^ place| < 10 ^ place := by
    rw [even]
    have bound : |q - n * (2 * half * unit)| < half * unit := by
      rw [abs_lt]
      constructor <;> linarith
    linarith
  rw [eq_roundAt inside.le fun tie => absurd tie inside.ne, roundAt, multiple]

end Beside

/-! ### Rounding in a context -/

/-- The number that a finite decimal is; what is not finite counts as zero. -/
def value (x : Decimal) : ℚ := x.rational?.getD 0

theorem le_log_iff {q : ℚ} (positive : 0 < q) {k : ℤ} : k ≤ Int.log 10 q ↔ 10 ^ k ≤ q := by
  rw [← Int.zpow_le_iff_le_log (by norm_num) positive]
  exact_mod_cast Iff.rfl

theorem log_lt_iff {q : ℚ} (positive : 0 < q) {k : ℤ} : Int.log 10 q < k ↔ q < 10 ^ k := by
  rw [← not_le, ← not_le, le_log_iff positive]

theorem pow_log_le {q : ℚ} (positive : 0 < q) : 10 ^ Int.log 10 q ≤ q := (le_log_iff positive).mp le_rfl

theorem log_eq {q : ℚ} {k : ℤ} (above : 10 ^ k ≤ q) (below : q < 10 ^ (k + 1)) : Int.log 10 q = k := by
  have positive : 0 < q := (pow_ten_pos k).trans_le above
  have least := (le_log_iff positive).mpr above
  have most := (log_lt_iff positive).mpr below
  omega

namespace Context

theorem value_finite (negative : Bool) (coefficient : Nat) (exponent : Int) :
    (finite negative coefficient exponent).value =
      (signed negative coefficient : ℚ) * 10 ^ exponent := by
  cases negative <;> simp [value, rational?, signed]

theorem abs_signed (negative : Bool) (coefficient : Nat) :
    |(signed negative coefficient : ℚ)| = coefficient := by
  cases negative <;> simp [signed]

/-- The exponent of the last digit that a number keeps. -/
def lastPlace (c : Context) (q : ℚ) : ℤ :=
  if Int.log 10 |q| < c.least then c.tiniest else Int.log 10 |q| - (c.precision - 1)

/-- A rational number, rounded to the precision, or what does not fit. -/
def round (c : Context) (q : ℚ) : Except Signal ℚ :=
  if q = 0 then .ok 0
  else if c.greatest < Int.log 10 |q| then .error .overflow
  else if Int.log 10 |q| < c.least then
    if c.refusesSubnormal then .error .subnormal else .ok (roundAt c.tiniest q)
  else if |roundAt (Int.log 10 |q| - (c.precision - 1)) q| < 10 ^ (c.greatest + 1) then
    .ok (roundAt (Int.log 10 |q| - (c.precision - 1)) q)
  else .error .overflow

variable {c : Context} {q r : ℚ}

theorem eq_roundAt_of_round (rounded : c.round q = .ok r) : r = roundAt (c.lastPlace q) q := by
  unfold round at rounded
  split at rounded
  · rename_i zero
    cases rounded
    rw [zero, roundAt_zero]
  split at rounded
  · cases rounded
  split at rounded
  · rename_i below
    split at rounded
    · cases rounded
    · cases rounded
      rw [lastPlace, if_pos below]
  · rename_i normal
    split at rounded
    · cases rounded
      rw [lastPlace, if_neg normal]
    · cases rounded

theorem round_zero (c : Context) : c.round 0 = .ok 0 := if_pos rfl

/-- In a context that reports what is too small, what is rounded is zero or not too small. -/
theorem least_le_of_round (refuses : c.refusesSubnormal = true) (rounded : c.round q = .ok r)
    (nonzero : q ≠ 0) : c.least ≤ Int.log 10 |q| := by
  by_contra small
  unfold round at rounded
  rw [if_neg nonzero, refuses] at rounded
  simp only [not_le.mp small, if_true] at rounded
  split at rounded <;> cases rounded

theorem round_ne_divisionByZero : c.round q ≠ .error .divisionByZero := by
  unfold round
  split
  · exact nofun
  split
  · exact nofun
  split
  · split <;> exact nofun
  · split <;> exact nofun

/-- Numbers that lie between the same two neighbouring halves of a place, below which none of their digits is
kept, are rounded to the same number. -/
theorem round_congr (place : ℤ) (precise : 0 < c.precision) (above : 10 ^ (place + c.precision) ≤ |r|)
    (beside : Beside (5 * 10 ^ place) q r) : c.round q = c.round r := by
  have unit : (0 : ℚ) < 5 * 10 ^ place := mul_pos (by norm_num) (pow_ten_pos place)
  have multiple {k : ℤ} (higher : place + 1 ≤ k) :
      ∃ half : ℤ, 0 < half ∧ (10 : ℚ) ^ k = 2 * half * (5 * 10 ^ place) := by
    obtain ⟨n, positive, same⟩ := exists_pow_eq_mul higher
    refine ⟨n, positive, ?_⟩
    rw [same, zpow_add₀ (by norm_num), zpow_one]
    ring
  have passes {k : ℤ} {x y : ℚ} (higher : place + 1 ≤ k) (alike : Beside (5 * 10 ^ place) x y)
      (high : 10 ^ k ≤ |x|) : 10 ^ k ≤ |y| := by
    obtain ⟨half, _, same⟩ := multiple higher
    have whole : ((2 * half : ℤ) : ℚ) * (5 * 10 ^ place) ≤ |x| := by
      push_cast
      rwa [← same]
    have carried := alike.le_abs_of_le_abs unit whole
    push_cast at carried
    rwa [← same] at carried
  have also : 10 ^ (place + c.precision) ≤ |q| := passes (by omega) beside.symm above
  have positive {x : ℚ} (high : 10 ^ (place + c.precision) ≤ |x|) : 0 < |x| :=
    (pow_ten_pos _).trans_le high
  have least {x : ℚ} (high : 10 ^ (place + c.precision) ≤ |x|) :
      place + c.precision ≤ Int.log 10 |x| :=
    (le_log_iff (positive high)).mpr high
  have longer := least above
  have first : Int.log 10 |q| = Int.log 10 |r| := by
    have lower := least also
    refine le_antisymm ?_ ?_
    · exact (le_log_iff (positive above)).mpr
        (passes (by omega) beside (pow_log_le (positive also)))
    · exact (le_log_iff (positive also)).mpr
        (passes (by omega) beside.symm (pow_log_le (positive above)))
  have kept {k : ℤ} (higher : place + 1 ≤ k) : roundAt k q = roundAt k r := by
    obtain ⟨half, _, same⟩ := multiple higher
    exact beside.roundAt_eq unit same
  unfold round
  rw [if_neg (abs_pos.mp (positive also)), if_neg (abs_pos.mp (positive above)), first]
  split
  · rfl
  · split
    · rename_i small
      rw [kept (by rw [tiniest]; omega)]
    · rw [kept (by omega)]

end Context

end Reckoner.Decimal

import Reckoner.Proofs.Decimal.Finish
import Mathlib.Tactic.LinearCombination

/-! The arithmetic of finite decimals is that of the rational numbers, rounded once. What an operation gives
depends on the numbers alone, and not on the coefficients and exponents that stand for them. -/

namespace Reckoner.Decimal.Context

open Reckoner.Numeral

variable {c : Context}

/-! ### Sums and products -/

section
variable (precise : 0 < c.precision)
include precise

/-- A summand far below the last digit that is kept moves a sum as one unit of a place below it does. -/
theorem round_add_far {whole : ℤ} {limit : ℤ} {size : ℚ} (t : Bool) (positive : 0 < size)
    (small : size ≤ 10 ^ limit) (long : 2 * 10 ^ (limit + c.precision) ≤ |(whole : ℚ) * 10 ^ (limit + 1)|) :
    c.round (whole * 10 ^ (limit + 1) + (if t then -1 else 1) * 10 ^ limit) =
      c.round (whole * 10 ^ (limit + 1) + (if t then -1 else 1) * size) := by
  have unit := pow_ten_pos limit
  have next : (10 : ℚ) ^ (limit + 1) = 2 * (5 * 10 ^ limit) := by
    rw [zpow_add_one₀ (by norm_num)]
    ring
  refine round_congr limit precise ?_ ?_
  · have least : (10 : ℚ) ^ limit ≤ 10 ^ (limit + c.precision) := zpow_le_zpow_right₀ (by norm_num) (by omega)
    have turned : |(if t then -1 else 1) * size| = size := by
      cases t <;> simp [abs_of_pos positive]
    have apart := abs_sub_abs_le_abs_add ((whole : ℚ) * 10 ^ (limit + 1)) ((if t then -1 else 1) * size)
    linarith
  · rw [next]
    cases t
    · refine ⟨2 * whole, ?_⟩
      push_cast
      refine ⟨⟨?_, ?_⟩, ?_, ?_⟩ <;> norm_num <;> linarith
    · refine ⟨2 * whole - 1, ?_⟩
      push_cast
      refine ⟨⟨?_, ?_⟩, ?_, ?_⟩ <;> norm_num <;> linarith

/-- Of a summand below a place that is not kept it is enough to know whether it is zero. -/
theorem round_add_min_one (s : Bool) {m : Nat} {e : Int} (t : Bool) {n : Nat} {f limit : Int} (nonzero : m ≠ 0)
    (below : limit ≤ e - 1) (high : limit + c.precision + 1 ≤ leading m e) (small : leading n f < limit) :
    c.round (signed s m * 10 ^ e + signed t (min n 1) * 10 ^ limit) =
      c.round (signed s m * 10 ^ e + signed t n * 10 ^ f) := by
  by_cases none : n = 0
  · rw [none, Nat.zero_min, signed_zero, Int.cast_zero, zero_mul, zero_mul]
  have one : min n 1 = 1 := by omega
  have turned (k : Nat) : (signed t k : ℚ) = (if t then -1 else 1) * k := by
    cases t <;> simp [signed]
  have multiple : (signed s m : ℚ) * 10 ^ e =
      ((signed s m * 10 ^ (e - (limit + 1)).toNat : ℤ) : ℚ) * 10 ^ (limit + 1) := by
    push_cast
    rw [mul_assoc, ← zpow_natCast, ← zpow_add₀ (by norm_num), Int.toNat_of_nonneg (by omega)]
    congr 2
    omega
  have positive : (0 : ℚ) < n * 10 ^ f :=
    mul_pos (by exact_mod_cast Nat.pos_of_ne_zero none) (pow_ten_pos f)
  have size : (n : ℚ) * 10 ^ f ≤ 10 ^ limit :=
    (lt_pow_leading n f).le.trans (zpow_le_zpow_right₀ (by norm_num) (by omega))
  have long : 2 * 10 ^ (limit + c.precision) ≤ |(signed s m : ℚ) * 10 ^ e| := by
    have power : (10 : ℚ) ^ (limit + c.precision + 1) ≤ 10 ^ leading m e :=
      zpow_le_zpow_right₀ (by norm_num) high
    rw [zpow_add_one₀ (by norm_num)] at power
    have room := pow_ten_pos (limit + c.precision)
    rw [abs_mul, abs_signed, abs_of_pos (pow_ten_pos e)]
    linarith [pow_leading_le nonzero e]
  rw [one, turned, turned, Nat.cast_one, mul_one, mul_assoc _ (n : ℚ), multiple]
  rw [multiple] at long
  exact round_add_far precise t positive size long

theorem sumAligned_gives (s : Bool) (m : Nat) {e : Int} (t : Bool) (n : Nat) {f : Int} (aligned : f ≤ e) :
    c.Gives (signed s m * 10 ^ e + signed t n * 10 ^ f) (c.sumAligned s m e t n f) := by
  have shifted {k : Int} (above : k ≤ e) :
      (signed s (if m = 0 then 0 else m * 10 ^ (e - k).toNat) : ℚ) * 10 ^ k = signed s m * 10 ^ e := by
    by_cases zero : m = 0
    · rw [if_pos zero, zero, signed_zero, Int.cast_zero, zero_mul, zero_mul]
    · have moved := mul_pow_mul_zpow above m
      rw [if_neg zero, signed_eq, signed_eq]
      cases s
      · simpa using moved
      · simpa using moved
  unfold sumAligned
  dsimp only
  generalize place : (e - 1 + if c.precision < digitCount m then 0 else (digitCount m : Int) - c.precision - 1) =
    limit
  have below : limit ≤ e - 1 := by
    rw [← place]
    split <;> omega
  by_cases apart : m ≠ 0 ∧ leading n f < limit
  · obtain ⟨nonzero, small⟩ := apart
    simp only [if_pos (And.intro nonzero small)]
    have high : limit + c.precision + 1 ≤ leading m e := by
      have digits := digitCount_pos m
      rw [leading, ← place]
      split <;> omega
    refine finishFinite_natAbs_gives precise ?_
    push_cast
    rw [add_mul, shifted (k := limit) (by omega)]
    exact round_add_min_one precise s t nonzero below high small
  · simp only [if_neg apart]
    refine finishFinite_natAbs_gives precise ?_
    push_cast
    rw [add_mul, shifted aligned]

variable {x y : Decimal} (first : x.isFinite = true)

theorem sumFinite_gives (s : Bool) (m : Nat) (e : Int) (t : Bool) (n : Nat) (f : Int) :
    c.Gives (signed s m * 10 ^ e + signed t n * 10 ^ f) (c.sumFinite s m e t n f) := by
  refine .ite (fun aligned => sumAligned_gives precise s m t n aligned) ?_
  intro crossed
  rw [add_comm]
  exact sumAligned_gives precise t n s m (by omega)

include first in
theorem add_gives (second : y.isFinite = true) : c.Gives (x.value + y.value) (c.add x y) := by
  obtain ⟨s, m, e, rfl⟩ := isFinite_iff.mp first
  obtain ⟨t, n, f, rfl⟩ := isFinite_iff.mp second
  rw [value_finite, value_finite]
  rw [add, sum, Bool.bne_false]
  exact sumFinite_gives precise s m e t n f

include first in
theorem sub_gives (second : y.isFinite = true) : c.Gives (x.value - y.value) (c.sub x y) := by
  obtain ⟨s, m, e, rfl⟩ := isFinite_iff.mp first
  obtain ⟨t, n, f, rfl⟩ := isFinite_iff.mp second
  have summed := sumFinite_gives precise s m e (t != true) n f
  have turned : (signed (t != true) n : ℚ) = -signed t n := by
    cases t <;> simp [signed]
  rwa [turned, neg_mul, ← sub_eq_add_neg, ← value_finite, ← value_finite] at summed

include first in
theorem mul_gives (second : y.isFinite = true) : c.Gives (x.value * y.value) (c.mul x y) := by
  obtain ⟨s, m, e, rfl⟩ := isFinite_iff.mp first
  obtain ⟨t, n, f, rfl⟩ := isFinite_iff.mp second
  refine finishFinite_gives precise (congrArg c.round ?_)
  rw [value_finite, value_finite, zpow_add₀ (by norm_num)]
  cases s <;> cases t <;> simp [signed] <;> ring

include first in
theorem neg_gives : c.Gives (-x.value) (c.neg x) := by
  obtain ⟨s, m, e, rfl⟩ := isFinite_iff.mp first
  refine finishFinite_gives precise (congrArg c.round ?_)
  rw [value_finite]
  by_cases zero : m = 0
  · simp [zero, signed_zero]
  · cases s <;> simp [signed, zero]

include first in
theorem plus_gives : c.Gives x.value (c.plus x) := by
  obtain ⟨s, m, e, rfl⟩ := isFinite_iff.mp first
  refine finishFinite_gives precise (congrArg c.round ?_)
  rw [value_finite]
  by_cases zero : m = 0
  · simp [zero, signed_zero]
  · cases s <;> simp [signed, zero]

include first in
theorem abs_gives : c.Gives |x.value| (c.abs x) := by
  unfold Context.abs
  obtain ⟨s, m, e, rfl⟩ := isFinite_iff.mp first
  have size := (pow_ten_pos e).le
  refine .ite ?_ ?_
  · intro negative
    have sign : s = true := negative
    have same : |(finite s m e).value| = -(finite s m e).value := by
      rw [value_finite, sign, signed_eq, if_pos rfl]
      exact abs_of_nonpos (mul_nonpos_of_nonpos_of_nonneg (by simp) size)
    rw [same]
    exact neg_gives precise first
  · intro positive
    have sign : s = false := by simpa [isNegative] using positive
    have same : |(finite s m e).value| = (finite s m e).value := by
      rw [value_finite, sign, signed_eq, if_neg (by decide)]
      exact abs_of_nonneg (mul_nonneg (by simp) size)
    rw [same]
    exact plus_gives precise first

include first in
theorem scale_gives {power : Int} (near : (power.natAbs : Int) ≤ 2 * (c.greatest + c.precision)) :
    c.Gives (x.value * 10 ^ power) (c.scale x power) := by
  obtain ⟨s, m, e, rfl⟩ := isFinite_iff.mp first
  unfold scale
  dsimp only
  rw [if_neg (not_lt.mpr near)]
  refine finishFinite_gives precise (congrArg c.round ?_)
  rw [value_finite, zpow_add₀ (by norm_num), mul_assoc]

/-! ### Outcomes of sums and products -/

include first

theorem neg_reaches : Reaches (c.IsRounding (-x.value)) (c.neg x) := (neg_gives precise first).reaches

theorem plus_reaches : Reaches (c.IsRounding x.value) (c.plus x) := (plus_gives precise first).reaches

theorem abs_reaches : Reaches (c.IsRounding |x.value|) (c.abs x) := (abs_gives precise first).reaches

theorem scale_reaches (power : Int) : Reaches (c.IsRounding (x.value * 10 ^ power)) (c.scale x power) := by
  by_cases near : (power.natAbs : Int) ≤ 2 * (c.greatest + c.precision)
  · exact (scale_gives precise first near).reaches
  · obtain ⟨s, m, e, rfl⟩ := isFinite_iff.mp first
    unfold scale
    dsimp only
    rw [if_pos (not_le.mp near)]
    exact .error nofun

variable (second : y.isFinite = true)
include second

theorem add_reaches : Reaches (c.IsRounding (x.value + y.value)) (c.add x y) :=
  (add_gives precise first second).reaches

theorem sub_reaches : Reaches (c.IsRounding (x.value - y.value)) (c.sub x y) :=
  (sub_gives precise first second).reaches

theorem mul_reaches : Reaches (c.IsRounding (x.value * y.value)) (c.mul x y) :=
  (mul_gives precise first second).reaches

end

/-! ### Comparison -/

theorem isZero_iff {x : Decimal} (given : x.isFinite = true) : x.isZero = true ↔ x.value = 0 := by
  obtain ⟨s, m, e, rfl⟩ := isFinite_iff.mp given
  have unit := (pow_ten_pos e).ne'
  rw [value_finite, mul_eq_zero, or_iff_left unit, isZero, beq_iff_eq]
  cases s <;> simp [signed]

theorem compareMagnitude_eq (m : Nat) (e : Int) (n : Nat) (f : Int) :
    compareMagnitude m e n f = compare ((m : ℚ) * 10 ^ e) ((n : ℚ) * 10 ^ f) := by
  have cast (a b : Nat) (k : Int) : compare a b = compare ((a : ℚ) * 10 ^ k) ((b : ℚ) * 10 ^ k) := by
    rcases lt_trichotomy a b with less | rfl | more
    · rw [compare_lt_iff_lt.mpr less, eq_comm, compare_lt_iff_lt]
      exact mul_lt_mul_of_pos_right (by exact_mod_cast less) (pow_ten_pos k)
    · rw [compare_eq_iff_eq.mpr rfl, eq_comm, compare_eq_iff_eq]
    · rw [compare_gt_iff_gt.mpr more, eq_comm, compare_gt_iff_gt]
      exact mul_lt_mul_of_pos_right (by exact_mod_cast more) (pow_ten_pos k)
  have positive {k : Nat} (nonzero : k ≠ 0) (g : Int) : (0 : ℚ) < k * 10 ^ g :=
    mul_pos (by exact_mod_cast Nat.pos_of_ne_zero nonzero) (pow_ten_pos g)
  have apart {a b : Nat} {g h : Int} (nonzero : b ≠ 0) (less : leading a g < leading b h) :
      (a : ℚ) * 10 ^ g < b * 10 ^ h :=
    (lt_pow_leading a g).trans_le
      ((zpow_le_zpow_right₀ (by norm_num) (by omega)).trans (pow_leading_le nonzero h))
  unfold compareMagnitude
  by_cases first : m = 0
  · rw [if_pos first, first, Nat.cast_zero, zero_mul]
    by_cases second : n = 0
    · rw [if_pos second, second, Nat.cast_zero, zero_mul, compare_eq_iff_eq.mpr rfl]
    · rw [if_neg second, compare_lt_iff_lt.mpr (positive second f)]
  rw [if_neg first]
  by_cases second : n = 0
  · rw [if_pos second, second, Nat.cast_zero, zero_mul, compare_gt_iff_gt.mpr (positive first e)]
  rw [if_neg second]
  rcases lt_trichotomy (leading m e) (leading n f) with less | same | more
  · rw [compare_lt_iff_lt.mpr less, compare_lt_iff_lt.mpr (apart second less)]
  · rw [compare_eq_iff_eq.mpr same]
    dsimp only
    split
    · rename_i aligned
      rw [cast _ _ f, mul_pow_mul_zpow aligned]
    · rename_i crossed
      rw [cast _ _ e, mul_pow_mul_zpow (by omega)]
  · rw [compare_gt_iff_gt.mpr more, compare_gt_iff_gt.mpr (apart first more)]

variable {x y : Decimal} (first : x.isFinite = true) (second : y.isFinite = true)
include first second

theorem order_eq : order x y = compare x.value y.value := by
  obtain ⟨s, m, e, rfl⟩ := isFinite_iff.mp first
  obtain ⟨t, n, f, rfl⟩ := isFinite_iff.mp second
  have positive {k : Nat} (nonzero : k ≠ 0) (g : Int) : (0 : ℚ) < k * 10 ^ g :=
    mul_pos (by exact_mod_cast Nat.pos_of_ne_zero nonzero) (pow_ten_pos g)
  rw [value_finite, value_finite, signed_eq, signed_eq]
  unfold order
  dsimp only
  by_cases left : m = 0
  · by_cases right : n = 0
    · simp [left, right]
    · have above := positive right f
      rw [if_neg (fun both => right both.2), if_pos left, left]
      cases t <;> simp only [Bool.false_eq_true, if_true, if_false, Nat.cast_zero, neg_zero, ite_self, zero_mul,
        neg_mul]
      · exact (compare_lt_iff_lt.mpr above).symm
      · exact (compare_gt_iff_gt.mpr (neg_lt_zero.mpr above)).symm
  · have above := positive left e
    by_cases right : n = 0
    · rw [if_neg (fun both => left both.1), if_neg left, if_pos right, right]
      cases s <;> simp only [Bool.false_eq_true, if_true, if_false, Nat.cast_zero, neg_zero, ite_self, zero_mul,
        neg_mul]
      · exact (compare_gt_iff_gt.mpr above).symm
      · exact (compare_lt_iff_lt.mpr (neg_lt_zero.mpr above)).symm
    · have below := positive right f
      rw [if_neg (fun both => left both.1), if_neg left, if_neg right]
      cases s <;> cases t <;> simp only [Bool.false_eq_true, if_true, if_false, compareMagnitude_eq, neg_mul]
      · exact (compare_gt_iff_gt.mpr (by linarith)).symm
      · exact (compare_lt_iff_lt.mpr (by linarith)).symm
      · rcases lt_trichotomy ((m : ℚ) * 10 ^ e) (n * 10 ^ f) with less | same | more
        · rw [compare_gt_iff_gt.mpr less, compare_gt_iff_gt.mpr (neg_lt_neg less)]
        · rw [same, compare_eq_iff_eq.mpr rfl, compare_eq_iff_eq.mpr rfl]
        · rw [compare_lt_iff_lt.mpr more, compare_lt_iff_lt.mpr (neg_lt_neg more)]

theorem compareOrdered_eq : compareOrdered x y = .ok (compare x.value y.value) := by
  obtain ⟨s, m, e, rfl⟩ := isFinite_iff.mp first
  obtain ⟨t, n, f, rfl⟩ := isFinite_iff.mp second
  rw [← order_eq rfl rfl]
  rfl

theorem isLess_eq : isLess x y = .ok (decide (x.value < y.value)) := by
  rw [isLess, compareOrdered_eq first second]
  refine congrArg Except.ok (Bool.eq_iff_iff.mpr ?_)
  rw [beq_iff_eq, compare_lt_iff_lt, decide_eq_true_iff]

theorem isAtMost_eq : isAtMost x y = .ok (decide (x.value ≤ y.value)) := by
  rw [isAtMost, compareOrdered_eq first second]
  refine congrArg Except.ok (Bool.eq_iff_iff.mpr ?_)
  rw [bne_iff_ne, compare_le_iff_le, decide_eq_true_iff]

theorem isEqual_eq : isEqual x y = .ok (decide (x.value = y.value)) := by
  have ordered := order_eq first second
  obtain ⟨s, m, e, rfl⟩ := isFinite_iff.mp first
  obtain ⟨t, n, f, rfl⟩ := isFinite_iff.mp second
  refine congrArg Except.ok (Bool.eq_iff_iff.mpr ?_)
  rw [ordered, decide_eq_true_iff]
  exact (beq_iff_eq (a := compare _ _)).trans compare_eq_iff_eq

end Reckoner.Decimal.Context

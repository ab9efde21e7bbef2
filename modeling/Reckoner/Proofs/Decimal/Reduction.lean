import Reckoner.Proofs.Decimal.Signs

/-! Where the reductions of arguments lead. The angle of an inverse tangent is halved two times at most, and what is
left of an argument of the exponential function is next to zero, as near as its digits allow. -/

namespace Reckoner.Decimal.Context

/-! ### Halvings of an angle -/

/-- A number is above the tangent of half an angle if the tangent of its double is above that of the angle. -/
theorem halfTangent_le {x t : ℝ} (nonneg : 0 ≤ x) (positive : 0 < t) (double : x * (1 - t ^ 2) ≤ 2 * t) :
    halfTangent x ≤ t := by
  have root := one_le_sqrt x
  have square : √(1 + x ^ 2) ^ 2 = 1 + x ^ 2 := Real.sq_sqrt (by positivity)
  rw [halfTangent, div_le_iff₀ (by linarith)]
  by_contra above
  -- Then the root is below `x / t - 1`, and the double of the number below the tangent.
  have less : t * √(1 + x ^ 2) < x - t := by linarith
  have squares : (t * √(1 + x ^ 2)) ^ 2 < (x - t) ^ 2 := pow_lt_pow_left₀ less (by positivity) two_ne_zero
  rw [mul_pow, square] at squares
  nlinarith

/-- What the tangent of an angle of at most 45 degrees is at most after so many halvings. -/
def halvedTangent : Nat → ℚ
  | 0 => 1
  | 1 => 415 / 1000
  | _ => 1999 / 10000

theorem halvedTangent_le_one (count : Nat) : halvedTangent count ≤ 1 := by
  unfold halvedTangent
  split <;> norm_num

theorem halfTangent_le_halvedTangent {count : Nat} (few : count < 2) {x : ℝ} (nonneg : 0 ≤ x)
    (most : x ≤ halvedTangent count) : halfTangent x + 1 / 10 ^ 5 ≤ halvedTangent (count + 1) := by
  rcases (by omega : count = 0 ∨ count = 1) with rfl | rfl
  · norm_num [halvedTangent] at most ⊢
    linarith [halfTangent_le nonneg (t := 4149 / 10000) (by norm_num) (by linarith)]
  · norm_num [halvedTangent] at most ⊢
    linarith [halfTangent_le nonneg (t := 1998 / 10000) (by norm_num) (by linarith)]

variable {c : Context}

theorem Working.halveAngle_few (working : c.Working) (fuel : Nat) {count : Nat} {x : Decimal}
    (given : x.isFinite = true) (nonneg : 0 ≤ x.value) (most : x.value ≤ halvedTangent count) (few : count ≤ 2)
    (all : count + fuel = halvingBound) :
    Reaches (fun made => made.1 ≤ 2 ∧ made.2.isFinite = true ∧ |made.2.value| ≤ 1 / 5)
      (c.halveAngle fuel count x) := by
  have fine := working.fine_real
  induction fuel generalizing count x with
  | zero =>
    have last : count = 8 := all
    omega
  | succ fuel ih =>
    unfold halveAngle
    have limit : atanLimit.value = 1 / 5 := by
      rw [atanLimit, value_finite]
      norm_num [signed]
    rw [isLess_eq rfl given, limit]
    refine .ite ?_ fun small => .ok ⟨few, given, ?_⟩
    · intro large
      have large : 1 / 5 < x.value := by simpa using large
      have fewer : count < 2 := by
        by_contra many
        obtain rfl : count = 2 := by omega
        norm_num [halvedTangent] at most
        linarith
      have step : Reaches (fun made : Nat × Decimal => made.1 ≤ 2 ∧ made.2.isFinite = true ∧ |made.2.value| ≤ 1 / 5)
          ((do c.div x (← c.add one (← c.sqrt (← c.add one (← c.mul x x))))) >>= c.halveAngle fuel (count + 1)) := by
        apply (working.halfTangent_reaches given nonneg (most.trans (halvedTangent_le_one count))).andThen
        rintro z ⟨sound, above, near⟩
        refine ih sound above ?_ (by omega) (by omega)
        have half := halfTangent_le_halvedTangent fewer (Rat.cast_nonneg.mpr nonneg) (Rat.cast_le.mpr most)
        exact (Rat.cast_le (K := ℝ)).mp (by linarith [(abs_le.mp near).2])
      simpa only [bind_assoc] using step
    · rw [abs_of_nonneg nonneg]
      simpa using small

/-! ### What a multiple of a logarithm leaves -/

/-- What is left of an argument of moderate size is never large, though with few digits its multiple is far off. -/
theorem rest_le (working : c.Working) (refuses : c.refusesSubnormal = true) {k : Constants}
    (natural : k.Natural c.precision) {x q m rest : Decimal} (moderate : |x.value| ≤ 2400000)
    (divided : c.IsRounding (x.value / k.lnTwo.value) q)
    (multiplied : c.IsRounding (nearestEven q.value * k.lnTwo.value) m)
    (subtracted : c.IsRounding (x.value - m.value) rest) : |rest.value| ≤ 25 := by
  have tiny := c.grain_pos
  have fine := working.fine
  obtain ⟨low, high⟩ := lnTwo_bounds working natural
  have positive : 0 < k.lnTwo.value := by linarith
  have ratio : |x.value / k.lnTwo.value| ≤ 3478261 := by
    rw [abs_div, abs_of_pos positive, div_le_iff₀ positive]
    linarith
  have first := (normal_of_round refuses divided.rounded).within divided
  have second := (normal_of_round refuses multiplied.rounded).within multiplied
  have third := ((normal_of_round refuses subtracted.rounded).within subtracted).abs.bounds (abs_nonneg _)
  rw [Within] at first second
  have near := nearestEven_near q.value
  rw [abs_sub_comm] at near
  generalize nearestEven q.value = n at near second
  have apart : |n - x.value / k.lnTwo.value| ≤ 1 / 2 + 17391305 * c.grain :=
    (abs_sub_le _ q.value _).trans (by nlinarith)
  have multiple : |n * k.lnTwo.value - x.value| ≤ 7 / 10 * (1 / 2 + 17391305 * c.grain) := by
    have split : n * k.lnTwo.value - x.value = k.lnTwo.value * (n - x.value / k.lnTwo.value) := by
      field_simp
    rw [split, abs_mul, abs_of_pos positive]
    exact mul_le_mul high apart (abs_nonneg _) (by norm_num)
  have size : |n * k.lnTwo.value| ≤ 2400013 := by
    linarith [abs_sub_abs_le_abs_sub (n * k.lnTwo.value) x.value]
  have left : |x.value - m.value| ≤ 35 / 100 + 24174000 * c.grain := by
    rw [abs_sub_comm]
    exact (abs_sub_le _ (n * k.lnTwo.value) _).trans (by nlinarith)
  nlinarith [third.2]

end Reckoner.Decimal.Context

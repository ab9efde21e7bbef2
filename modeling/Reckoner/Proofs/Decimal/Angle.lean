import Reckoner.Proofs.Decimal.Circle

/-! Angles and their sines and cosines. An angle in degrees is brought below a full turn, to radians and
between `-π` and `π`, where the series of the sine and the cosine are; all this moves the result by less than
one unit of the digits that a result keeps. -/

namespace Reckoner.Decimal

/-! ### Remainders -/

theorem abs_sub_truncated_lt (q : ℚ) : |q - truncated q| < 1 := by
  unfold truncated
  split
  · rw [abs_of_nonneg (by linarith [Int.floor_le q])]
    linarith [Int.lt_floor_add_one q]
  · rw [abs_of_nonpos (by linarith [Int.le_ceil q])]
    linarith [Int.ceil_lt_add_one q]

theorem abs_truncated_le_one {q : ℚ} (small : |q| < 2) : |truncated q| ≤ 1 := by
  obtain ⟨low, high⟩ := abs_lt.mp small
  unfold truncated
  split
  · rename_i positive
    have least : 0 ≤ ⌊q⌋ := Int.floor_nonneg.mpr positive
    have most : ⌊q⌋ < 2 := Int.floor_lt.mpr (by exact_mod_cast high)
    rw [abs_le]
    omega
  · rename_i negative
    have most : ⌈q⌉ ≤ 0 := Int.ceil_le.mpr (by push_cast; linarith)
    have least : -2 < ⌈q⌉ := Int.lt_ceil.mpr (by push_cast; linarith)
    rw [abs_le]
    omega

theorem abs_remainder_lt {d : ℚ} (nonzero : d ≠ 0) (q : ℚ) : |remainder q d| < |d| := by
  have split : remainder q d = d * (q / d - truncated (q / d)) := by
    rw [remainder, mul_sub, mul_div_cancel₀ _ nonzero]
  rw [split, abs_mul]
  exact mul_lt_of_lt_one_right (abs_pos.mpr nonzero) (abs_sub_truncated_lt _)

namespace Context

variable {c : Context} {k : Constants}

/-- Whether constants are finite and the circle constants good to the digits of a context. -/
structure Suits (c : Context) (k : Constants) : Prop where
  finite : k.AllFinite
  circular : k.Circular c.precision

/-- An angle in degrees, between `-π` and `π` in radians. -/
def directed (c : Context) (k : Constants) (x : Decimal) : Except Signal Decimal := do
  c.reduceAngle k (← c.radians k (← c.rem x (ofInt 360)))

/-- Taking a few turns off an angle moves it as the number for a turn is off. -/
theorem turns_near {x r z turn first second third : ℝ} {n : ℤ} (turns : ℤ) (few : |turns| ≤ 1)
    (near : |r - (x - n * (2 * Real.pi))| ≤ first) (moved : |z - (r - turn * turns)| ≤ second)
    (circle : |turn - 2 * Real.pi| ≤ third) :
    |z - (x - ((n + turns : ℤ) : ℝ) * (2 * Real.pi))| ≤ first + second + third := by
  have unit : |(turns : ℝ)| ≤ 1 := by exact_mod_cast few
  have drift : |turns * (turn - 2 * Real.pi)| ≤ 1 * third := by
    rw [abs_mul]
    exact mul_le_mul unit circle (abs_nonneg _) zero_le_one
  have split : z - (x - ((n + turns : ℤ) : ℝ) * (2 * Real.pi)) =
      (r - (x - n * (2 * Real.pi))) + (z - (r - turn * turns)) + -(turns * (turn - 2 * Real.pi)) := by
    push_cast
    ring
  rw [split]
  refine (abs_add_three _ _ _).trans ?_
  rw [abs_neg]
  linarith

namespace Suits

variable (suits : c.Suits k)
include suits

theorem pi_near : |(k.pi.value : ℝ) - Real.pi| ≤ 10 * c.grain := by
  rw [grain]
  push_cast
  exact suits.circular.pi

theorem twoPi_near : |(k.twoPi.value : ℝ) - 2 * Real.pi| ≤ 10 * c.grain := by
  rw [grain]
  push_cast
  exact suits.circular.twoPi

variable (working : c.Working)
include working

theorem pi_bounds : 314 / 100 ≤ k.pi.value ∧ k.pi.value ≤ 315 / 100 := by
  have fine := working.fine_real
  have bounds := abs_le.mp suits.pi_near
  have low := Real.pi_gt_d4
  have high := Real.pi_lt_d4
  have least : ((314 / 100 : ℚ) : ℝ) ≤ k.pi.value := by
    push_cast
    linarith
  have most : (k.pi.value : ℝ) ≤ ((315 / 100 : ℚ) : ℝ) := by
    push_cast
    linarith
  exact ⟨Rat.cast_le.mp least, Rat.cast_le.mp most⟩

theorem twoPi_bounds : 628 / 100 ≤ k.twoPi.value ∧ k.twoPi.value ≤ 629 / 100 := by
  have fine := working.fine_real
  have bounds := abs_le.mp suits.twoPi_near
  have low := Real.pi_gt_d4
  have high := Real.pi_lt_d4
  have least : ((628 / 100 : ℚ) : ℝ) ≤ k.twoPi.value := by
    push_cast
    linarith
  have most : (k.twoPi.value : ℝ) ≤ ((629 / 100 : ℚ) : ℝ) := by
    push_cast
    linarith
  exact ⟨Rat.cast_le.mp least, Rat.cast_le.mp most⟩

theorem radians_reaches {x : Decimal} (given : x.isFinite = true) (small : |x.value| ≤ 361) :
    Reaches (fun z => z.isFinite = true ∧ |z.value| ≤ 632 / 100 ∧
      |(z.value : ℝ) - x.value * Real.pi / 180| ≤ 60 * c.grain) (c.radians k x) := by
  have fine := working.fine
  have tiny : (0 : ℝ) < c.grain := Rat.cast_pos.mpr c.grain_pos
  have near := suits.pi_near
  obtain ⟨low, high⟩ := suits.pi_bounds working
  have product : |x.value * k.pi.value| ≤ 361 * (315 / 100) := by
    rw [abs_mul, abs_of_nonneg (by linarith : 0 ≤ k.pi.value)]
    exact mul_le_mul small high (by linarith) (by norm_num)
  apply (mul_reaches working.precise given suits.finite.pi).andThen
  intro turned multiplied
  have first := working.near multiplied 4 (by linarith)
  have error := multiplied.near working.deep 4 (by linarith)
  have turned_le : |turned.value| ≤ 361 * (315 / 100) + 1 / 100 := by
    linarith [abs_sub_abs_le_abs_sub turned.value (x.value * k.pi.value)]
  have quotient : |turned.value / 180| ≤ 6319 / 1000 := by
    rw [abs_div, abs_of_pos (by norm_num : (0 : ℚ) < 180), div_le_iff₀ (by norm_num)]
    linarith
  have nonzero : (ofInt 180).value ≠ 0 := by
    rw [value_ofInt]
    norm_num
  apply (div_reaches working.precise multiplied.isFinite rfl nonzero).mono
  intro z divided
  rw [value_ofInt, Int.cast_ofNat] at divided
  have second := working.near divided 1 (by linarith)
  have last := divided.near working.deep 1 (by linarith)
  push_cast at first second
  refine ⟨divided.isFinite, ?_, ?_⟩
  · linarith [abs_sub_abs_le_abs_sub z.value (turned.value / 180)]
  · have size : |(x.value : ℝ)| ≤ 361 := by exact_mod_cast small
    have circle : |(x.value : ℝ) * (k.pi.value - Real.pi)| ≤ 361 * (10 * c.grain) := by
      rw [abs_mul]
      exact mul_le_mul size near (abs_nonneg _) (by norm_num)
    have scaled : |((turned.value : ℝ) - x.value * Real.pi) / 180| ≤ 8610 * c.grain / 180 := by
      have split : (turned.value : ℝ) - x.value * Real.pi =
          (turned.value - x.value * k.pi.value) + x.value * (k.pi.value - Real.pi) := by ring
      rw [abs_div, abs_of_pos (by norm_num : (0 : ℝ) < 180), split]
      exact div_le_div_of_nonneg_right ((abs_add_le _ _).trans (by linarith)) (by norm_num)
    have split : (z.value : ℝ) - x.value * Real.pi / 180 =
        (z.value - turned.value / 180) + (turned.value - x.value * Real.pi) / 180 := by ring
    rw [split]
    exact (abs_add_le _ _).trans (by linarith)

/-- An angle of any size is brought between `-π` and `π` by a remainder and a full turn at most. -/
theorem reduceAngle_turned {x : Decimal} (given : x.isFinite = true) :
    Reaches (fun z => z.isFinite = true ∧ |z.value| ≤ 16 / 5 ∧
      ∃ r : Decimal, c.IsRounding (remainder x.value k.twoPi.value) r ∧
        ∃ turns : ℤ, |turns| ≤ 1 ∧ |z.value - (r.value - k.twoPi.value * turns)| ≤ 5 * c.grain)
      (c.reduceAngle k x) := by
  have precise := working.precise
  have deep := working.deep
  have fine := working.fine
  have tiny := c.grain_pos
  obtain ⟨low, high⟩ := suits.pi_bounds working
  obtain ⟨least, most⟩ := suits.twoPi_bounds working
  have rest := abs_remainder_lt (show k.twoPi.value ≠ 0 by linarith) x.value
  rw [abs_of_pos (by linarith : 0 < k.twoPi.value)] at rest
  apply (rem_reaches precise given suits.finite.twoPi).andThen
  intro r divided
  have error := abs_le.mp (divided.near deep 1 (by linarith))
  have bounds := abs_lt.mp rest
  rw [isLess_eq suits.finite.pi divided.isFinite]
  refine .ite ?_ ?_
  · intro above
    have above : k.pi.value < r.value := of_decide_eq_true above
    apply (sub_reaches precise divided.isFinite suits.finite.twoPi).mono
    intro z turned
    have rounded := turned.near deep 1 (abs_lt.mpr (by constructor <;> linarith))
    have moved := abs_le.mp rounded
    refine ⟨turned.isFinite, abs_le.mpr ⟨by linarith, by linarith⟩, r, divided, 1, by decide, ?_⟩
    rw [Int.cast_one, mul_one]
    linarith
  intro within
  apply (neg_reaches precise suits.finite.pi).andThen
  intro opposite negated
  have mirrored := abs_le.mp (negated.near deep 1 (by rw [abs_neg, abs_of_pos] <;> linarith))
  rw [isLess_eq divided.isFinite negated.isFinite]
  refine .ite ?_ ?_
  · intro below
    have below : r.value < opposite.value := of_decide_eq_true below
    apply (add_reaches precise divided.isFinite suits.finite.twoPi).mono
    intro z turned
    have rounded := turned.near deep 1 (abs_lt.mpr (by constructor <;> linarith))
    have moved := abs_le.mp rounded
    refine ⟨turned.isFinite, abs_le.mpr ⟨by linarith, by linarith⟩, r, divided, -1, by decide, ?_⟩
    rw [Int.cast_neg, Int.cast_one, mul_neg_one, sub_neg_eq_add]
    linarith
  · intro inside
    have right : r.value ≤ k.pi.value := by simpa using within
    have left : opposite.value ≤ r.value := by simpa using inside
    refine .ok ⟨divided.isFinite, abs_le.mpr ⟨by linarith, by linarith⟩, r, divided, 0, by decide, ?_⟩
    rw [Int.cast_zero, mul_zero, sub_zero, sub_self, abs_zero]
    linarith

/-- An angle of about a turn is moved by full turns only, up to a few roundings. -/
theorem reduceAngle_reaches {x : Decimal} (given : x.isFinite = true) (small : |x.value| ≤ 632 / 100) :
    Reaches (fun z => z.isFinite = true ∧ |z.value| ≤ 16 / 5 ∧
      ∃ turns : ℤ, |(z.value : ℝ) - (x.value - turns * (2 * Real.pi))| ≤ 40 * c.grain)
      (c.reduceAngle k x) := by
  have tiny : (0 : ℝ) < c.grain := Rat.cast_pos.mpr c.grain_pos
  have near := suits.twoPi_near
  obtain ⟨least, most⟩ := suits.twoPi_bounds working
  have positive : 0 < k.twoPi.value := by linarith
  have rest := abs_remainder_lt positive.ne' x.value
  rw [abs_of_pos positive] at rest
  have few : |truncated (x.value / k.twoPi.value)| ≤ 1 := by
    refine abs_truncated_le_one ?_
    rw [abs_div, abs_of_pos positive, div_lt_iff₀ positive]
    linarith
  generalize whole : truncated (x.value / k.twoPi.value) = n at few
  apply (suits.reduceAngle_turned working given).mono
  rintro z ⟨sound, less, r, divided, turns, once, moved⟩
  refine ⟨sound, less, n + turns, ?_⟩
  have rounded := working.near divided 1 (by linarith)
  rw [remainder, whole] at rounded
  push_cast at rounded
  have start : |(x.value : ℝ) - (x.value - ((0 : ℤ) : ℝ) * (2 * Real.pi))| ≤ 0 := by simp
  have first := turns_near n few start rounded near
  have moved : |(z.value : ℝ) - (r.value - k.twoPi.value * turns)| ≤ 5 * c.grain := by exact_mod_cast moved
  have second := turns_near turns once first moved near
  rw [zero_add] at second
  linarith

/-! ### The sine and the cosine of an angle in degrees -/

theorem directed_reaches {x : Decimal} (given : x.isFinite = true) :
    Reaches (fun z => z.isFinite = true ∧ |z.value| ≤ 16 / 5 ∧
      ∃ turns : ℤ, |(z.value : ℝ) - (x.value * Real.pi / 180 - turns * (2 * Real.pi))| ≤ 120 * c.grain)
      (c.directed k x) := by
  have fine := working.fine
  have tiny : (0 : ℝ) < c.grain := Rat.cast_pos.mpr c.grain_pos
  have nonzero : (ofInt 360).value ≠ 0 := by
    rw [value_ofInt]
    norm_num
  have rest := abs_remainder_lt nonzero x.value
  rw [value_ofInt, Int.cast_ofNat, abs_of_pos (by norm_num : (0 : ℚ) < 360)] at rest
  apply (rem_reaches working.precise given rfl).andThen
  intro r divided
  rw [value_ofInt, Int.cast_ofNat] at divided
  have error := divided.near working.deep 3 (by linarith)
  have rounded := working.near divided 3 (by linarith)
  have small : |r.value| ≤ 361 := by linarith [abs_sub_abs_le_abs_sub r.value (remainder x.value 360)]
  apply (suits.radians_reaches working divided.isFinite small).andThen
  rintro y ⟨finite', less, near⟩
  apply (suits.reduceAngle_reaches working finite' less).mono
  rintro z ⟨finite', less, turns, close⟩
  refine ⟨finite', less, turns + truncated (x.value / 360), ?_⟩
  have angle : |((r.value : ℝ) - (remainder x.value 360 : ℚ)) * (Real.pi / 180)| ≤ 12 * c.grain := by
    have turn : Real.pi / 180 ≤ 4 / 180 := div_le_div_of_nonneg_right Real.pi_le_four (by norm_num)
    have positive : 0 < Real.pi / 180 := div_pos Real.pi_pos (by norm_num)
    rw [abs_mul, abs_of_pos positive]
    calc |(r.value : ℝ) - (remainder x.value 360 : ℚ)| * (Real.pi / 180)
        ≤ 10 ^ 3 / 2 * c.grain * (4 / 180) := mul_le_mul rounded turn positive.le (by positivity)
      _ ≤ 12 * c.grain := by linarith
  have split : (z.value : ℝ) - (x.value * Real.pi / 180 -
      ((turns + truncated (x.value / 360) : ℤ) : ℝ) * (2 * Real.pi)) =
      (z.value - (y.value - turns * (2 * Real.pi))) + (y.value - r.value * Real.pi / 180) +
        ((r.value : ℝ) - (remainder x.value 360 : ℚ)) * (Real.pi / 180) := by
    rw [remainder]
    push_cast
    ring
  rw [split]
  refine (abs_add_three _ _ _).trans ?_
  linarith

/-- A series that is near a function of turns, whose slope is one at most, is near it for an angle in degrees. -/
theorem series_reaches {series : Decimal → Except Signal PartialSum} {f : ℝ → ℝ}
    (slope : ∀ a b, |f a - f b| ≤ |a - b|) (turn : ∀ a (n : ℤ), f (a - n * (2 * Real.pi)) = f a)
    (near : ∀ {a : Decimal}, a.isFinite = true → |a.value| ≤ 16 / 5 → Reaches (fun sum =>
      sum.total.isFinite = true ∧ |(sum.total.value : ℝ) - f a.value| ≤ 68003 * c.grain) (series a))
    {x : Decimal} (given : x.isFinite = true) :
    Reaches (fun z => z.isFinite = true ∧ |(z.value : ℝ) - f (x.value * Real.pi / 180)| ≤ 70000 * c.grain)
      (do return (← series (← c.directed k x)).total) := by
  have tiny : (0 : ℝ) < c.grain := Rat.cast_pos.mpr c.grain_pos
  apply (suits.directed_reaches working given).andThen
  rintro a ⟨sound, less, turns, close⟩
  apply (near sound less).andThen
  rintro sum ⟨summed, found⟩
  refine .ok ⟨summed, ?_⟩
  have moved := slope a.value (x.value * Real.pi / 180 - turns * (2 * Real.pi))
  rw [turn] at moved
  exact (abs_sub_le _ (f a.value) _).trans (by linarith)

theorem cosReduced_reaches {x : Decimal} (given : x.isFinite = true) :
    Reaches (fun z => z.isFinite = true ∧ |(z.value : ℝ) - Real.cos (x.value * Real.pi / 180)| ≤ 70000 * c.grain)
      (do c.cosReduced k (← c.radians k (← c.rem x (ofInt 360)))) := by
  have step := suits.series_reaches working Real.abs_cos_sub_cos_le Real.cos_sub_int_mul_two_pi
    working.cosSeries_reaches given
  simpa only [directed, cosReduced, bind_assoc] using step

theorem sinReduced_reaches {x : Decimal} (given : x.isFinite = true) :
    Reaches (fun z => z.isFinite = true ∧ |(z.value : ℝ) - Real.sin (x.value * Real.pi / 180)| ≤ 70000 * c.grain)
      (do c.sinReduced k (← c.radians k (← c.rem x (ofInt 360)))) := by
  have step := suits.series_reaches working Real.abs_sin_sub_sin_le Real.sin_sub_int_mul_two_pi
    working.sinSeries_reaches given
  simpa only [directed, sinReduced, bind_assoc] using step

end Suits

end Context

end Reckoner.Decimal

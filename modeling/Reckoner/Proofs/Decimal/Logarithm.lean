import Reckoner.Proofs.Decimal.Elementary
import Reckoner.Proofs.Decimal.NaturalConstants
import Reckoner.Proofs.Decimal.Range

/-! The logarithm. A number is brought below ten and then near one, which takes multiples of the logarithms of ten and
two off its logarithm; what is left is twice an inverse hyperbolic tangent. The result is near the logarithm by the
digits of the context, and has its sign if the number is not too near one. -/

namespace Reckoner.Decimal

/-- Numbers that differ by a part of themselves have logarithms that differ by little more. -/
theorem Within.log {error x y : ℝ} (within : Within error x y) (positive : 0 < y) (small : error ≤ 1 / 100) :
    |Real.log x - Real.log y| ≤ 102 / 100 * error := by
  have nonneg : 0 ≤ error := by
    have size : 0 ≤ error * |y| := (abs_nonneg _).trans within
    exact nonneg_of_mul_nonneg_left size (abs_pos.mpr positive.ne')
  have least := (within.bounds positive.le).1
  have low : 0 < (1 - error) * y := mul_pos (by linarith) positive
  have slope := abs_log_sub_le low least (show (1 - error) * y ≤ y by nlinarith)
  refine slope.trans ?_
  rw [div_le_iff₀ low]
  rw [Within, abs_of_pos positive] at within
  calc |x - y| ≤ error * y * 1 := by rwa [mul_one]
    _ ≤ error * y * (102 / 100 * (1 - error)) := mul_le_mul_of_nonneg_left (by linarith) (by positivity)
    _ = 102 / 100 * error * ((1 - error) * y) := by ring

theorem two_mul_artanh {x : ℝ} (positive : 0 < x) : 2 * Real.artanh ((x - 1) / (x + 1)) = Real.log x := by
  have above : 0 < x + 1 := by linarith
  have inside : (x - 1) / (x + 1) ∈ Set.Icc (-1 : ℝ) 1 := by
    constructor
    · rw [le_div_iff₀ above]
      linarith
    · rw [div_le_one above]
      linarith
  have ratio : (1 + (x - 1) / (x + 1)) / (1 - (x - 1) / (x + 1)) = x := by
    field_simp
    ring
  rw [Real.artanh_eq_half_log inside, ratio]
  ring

namespace Context

section
variable {c : Context} (working : c.Working) (refuses : c.refusesSubnormal = true) {k : Constants}
  (natural : k.Natural c.precision) (finite : k.AllFinite)
include working refuses natural finite

omit working refuses natural finite in
/-- Whether so many halvings lead from a number to another one near one. -/
structure NearOne (c : Context) (target : ℝ) (made : Nat × Decimal) : Prop where
  isFinite : made.2.isFinite = true
  few : made.1 ≤ 3
  low : 7 / 10 ≤ made.2.value
  high : made.2.value ≤ 1415 / 1000
  near : |Real.log made.2.value + made.1 * Real.log 2 - target| ≤ 6 * c.grain * made.1

theorem halveToRoot_yields (fuel : Nat) {count : Nat} {m : Decimal} {target : ℝ} (given : m.isFinite = true)
    (low : 7 / 10 ≤ m.value) (high : m.value * 2 ^ count ≤ 10 + (count + 1) / 100)
    (near : |Real.log m.value + count * Real.log 2 - target| ≤ 6 * c.grain * count)
    (all : count + fuel = halvingBound) : Yields (c.NearOne target) (c.halveToRoot k fuel count m) := by
  have precise := working.precise
  have fine := working.fine
  have tiny := c.grain_pos
  induction fuel generalizing count m with
  | zero =>
    have last : count = 8 := all
    subst last
    norm_num at high
    linarith
  | succ fuel ih =>
    unfold halveToRoot
    rw [isLess_eq finite.rootTwo given]
    obtain ⟨above, below⟩ := rootTwo_bounds working natural
    refine .bind ?_
    intro big found
    obtain rfl := Except.ok.inj found
    have bound : halvingBound = 8 := rfl
    have few : (count : ℚ) ≤ 8 := by exact_mod_cast (show count ≤ 8 by omega)
    split
    · rename_i large
      have large : k.rootTwo.value < m.value := of_decide_eq_true large
      refine (div_reaches precise given rfl (by rw [value_ofInt]; norm_num)).yields.andThen ?_
      intro z divided
      rw [value_ofInt, Int.cast_ofNat] at divided
      have within := (normal_of_round refuses divided.rounded).within divided
      have half : 0 < m.value / 2 := by linarith
      obtain ⟨least, most⟩ := within.bounds half.le
      have power : (0 : ℚ) < 2 ^ count := by positivity
      refine ih divided.isFinite (by nlinarith) ?_ ?_ (by omega)
      · rw [pow_succ]
        push_cast
        have scaled := mul_le_mul_of_nonneg_right most power.le
        have drift : 5 * c.grain * (m.value * 2 ^ count) ≤ 5 * (1 / 10 ^ 6) * (10 + (count + 1) / 100) := by gcongr
        linarith
      · have moved := within.cast.log (by exact_mod_cast half) (by push_cast; linarith [working.fine_real])
        push_cast at moved ⊢
        rw [Real.log_div (by exact_mod_cast (show m.value ≠ 0 by linarith)) (by norm_num)] at moved
        obtain ⟨left, right⟩ := abs_le.mp near
        obtain ⟨left', right'⟩ := abs_le.mp moved
        have room : (0 : ℝ) < c.grain := Rat.cast_pos.mpr tiny
        exact abs_le.mpr ⟨by linarith, by linarith⟩
    · rename_i small
      have small : m.value ≤ k.rootTwo.value := by simpa using small
      refine .ok ⟨given, ?_, low, by linarith, near⟩
      by_contra many
      have power : (2 : ℚ) ^ 4 ≤ 2 ^ count := pow_le_pow_right₀ (by norm_num) (by omega)
      have product := mul_le_mul_of_nonneg_left power (show 0 ≤ m.value by linarith)
      linarith

omit refuses natural finite in
/-- The argument of the inverse hyperbolic tangent is found within a rounding and a half. -/
theorem logRatio_reaches {m : Decimal} (given : m.isFinite = true) (low : 7 / 10 ≤ m.value)
    (high : m.value ≤ 1415 / 1000) :
    Reaches (fun z => z.isFinite = true ∧ |z.value| ≤ 1 / 5 ∧
        |z.value - (m.value - 1) / (m.value + 1)| ≤ 3 / 2 * c.grain)
      (do c.div (← c.sub m one) (← c.add m one)) := by
  have precise := working.precise
  have deep := working.deep
  have fine := working.fine
  have tiny := c.grain_pos
  apply (sub_reaches precise given (y := one) rfl).andThen
  intro a subtracted
  apply (add_reaches precise given (y := one) rfl).andThen
  intro b added
  rw [value_one] at subtracted added
  have first := subtracted.near deep 0 (by rw [abs_lt]; constructor <;> linarith)
  have second := added.near deep 1 (by rw [abs_lt]; constructor <;> linarith)
  rw [pow_zero] at first
  rw [pow_one] at second
  obtain ⟨left, right⟩ := abs_le.mp second
  have below : 169 / 100 ≤ b.value := by linarith
  have divides : 0 < b.value := by linarith
  have ratio : |(m.value - 1) / (m.value + 1)| ≤ 18 / 100 := by
    rw [abs_div, abs_of_pos (by linarith : 0 < m.value + 1), div_le_iff₀ (by linarith), abs_le]
    constructor <;> linarith
  have near : |a.value / b.value - (m.value - 1) / (m.value + 1)| ≤ 9 / 10 * c.grain := by
    have split : a.value / b.value - (m.value - 1) / (m.value + 1) =
        ((a.value - (m.value - 1)) - (m.value - 1) / (m.value + 1) * (b.value - (m.value + 1))) / b.value := by
      have other : m.value + 1 ≠ 0 := by linarith
      field_simp
      ring
    have product := mul_le_mul ratio second (abs_nonneg _) (by norm_num)
    rw [← abs_mul] at product
    rw [split, abs_div, abs_of_pos divides, div_le_iff₀ divides]
    refine (abs_sub _ _).trans ?_
    nlinarith
  have size := abs_sub_abs_le_abs_sub (a.value / b.value) ((m.value - 1) / (m.value + 1))
  apply (div_reaches precise subtracted.isFinite added.isFinite divides.ne').mono
  intro z divided
  have last := divided.near deep 0 (by rw [pow_zero]; linarith)
  rw [pow_zero] at last
  have apart := abs_sub_abs_le_abs_sub z.value (a.value / b.value)
  exact ⟨divided.isFinite, by linarith, (abs_sub_le _ (a.value / b.value) _).trans (by linarith)⟩

omit refuses natural finite in
theorem nearLog_reaches {m : Decimal} (given : m.isFinite = true) (low : 7 / 10 ≤ m.value)
    (high : m.value ≤ 1415 / 1000) :
    Reaches (fun z => z.isFinite = true ∧ |z.value| ≤ 1 ∧ |(z.value : ℝ) - Real.log m.value| ≤ 520 * c.grain)
      ((do c.div (← c.sub m one) (← c.add m one)) >>= fun ratio => do
        c.mul (ofInt 2) (← c.atanhSeries ratio).total) := by
  have fine := working.fine_real
  have tiny : (0 : ℝ) < c.grain := Rat.cast_pos.mpr c.grain_pos
  apply (logRatio_reaches working given low high).andThen
  rintro ratio ⟨found, small, near⟩
  apply (working.atanhSeries_reaches found small).andThen
  rintro sum ⟨summed, close⟩
  refine (mul_reaches working.precise (x := ofInt 2) rfl summed).mono ?_
  intro z doubled
  rw [value_ofInt] at doubled
  have size : |(ratio.value : ℝ)| ≤ 1 / 5 := (abs_cast_le small).trans_eq (by norm_num)
  have near : |(ratio.value : ℝ) - (m.value - 1) / (m.value + 1)| ≤ 3 / 2 * c.grain := by
    have cast := (Rat.cast_le (K := ℝ)).mpr near
    push_cast at cast
    exact cast
  have low : (7 / 10 : ℝ) ≤ m.value := le_of_eq_of_le (by norm_num) ((Rat.cast_le (K := ℝ)).mpr low)
  have high : (m.value : ℝ) ≤ 1415 / 1000 := ((Rat.cast_le (K := ℝ)).mpr high).trans_eq (by norm_num)
  have part : |((m.value : ℝ) - 1) / (m.value + 1)| ≤ 1 / 5 := by
    rw [abs_div, abs_of_pos (by linarith : (0 : ℝ) < m.value + 1), div_le_iff₀ (by linarith), abs_le]
    constructor <;> linarith
  rw [← two_mul_artanh (by linarith)]
  generalize ((m.value : ℝ) - 1) / (m.value + 1) = exact at near part ⊢
  have bounded := abs_artanh_sub_le part (show |(0 : ℝ)| ≤ 1 / 5 by simp)
  rw [Real.artanh_zero, sub_zero, sub_zero] at bounded
  have total : |(sum.total.value : ℝ) - Real.artanh exact| ≤ 256 * c.grain :=
    (artanh_near size part near close).trans (by linarith)
  have double := working.multiple_near (n := 2) doubled total (by push_cast; linarith)
  push_cast at double
  refine ⟨doubled.isFinite, (Rat.cast_le (K := ℝ)).mp ?_, by linarith⟩
  push_cast
  have apart := abs_sub_abs_le_abs_sub (z.value : ℝ) (2 * Real.artanh exact)
  rw [abs_mul, abs_of_pos (by norm_num : (0 : ℝ) < 2)] at apart
  linarith

omit working refuses natural finite in
/-- The place of a number tells which multiples of the logarithm of ten its logarithm is between. -/
theorem log_place_bounds {q : ℚ} (positive : 0 < q) :
    Int.log 10 q * Real.log 10 ≤ Real.log q ∧ Real.log q ≤ (Int.log 10 q + 1) * Real.log 10 := by
  have least := (Rat.cast_le (K := ℝ)).mpr (pow_log_le positive)
  have most := (Rat.cast_le (K := ℝ)).mpr ((log_lt_iff positive).mp (show _ < Int.log 10 q + 1 by omega)).le
  push_cast at least most
  have power := Real.log_zpow 10 (Int.log 10 q + 1)
  push_cast at power
  rw [← Real.log_zpow, ← power]
  exact ⟨Real.log_le_log (by positivity) least, Real.log_le_log (by exact_mod_cast positive) most⟩

omit working refuses natural finite in
/-- The logarithm of what is left of a number when its place is taken off. -/
theorem tenths_bounds {q : ℚ} (positive : 0 < q) {tens : ℤ} (first : 10 ^ tens ≤ q) (last : q < 10 ^ (tens + 1)) :
    1 ≤ q * 10 ^ (-tens) ∧ q * 10 ^ (-tens) ≤ 10 ∧
      Real.log (q * 10 ^ (-tens) : ℚ) = Real.log q - tens * Real.log 10 := by
  have unit := pow_ten_pos tens
  rw [zpow_add_one₀ (by norm_num)] at last
  rw [zpow_neg, ← div_eq_mul_inv]
  refine ⟨(one_le_div₀ unit).mpr first, (div_le_iff₀ unit).mpr (by linarith), ?_⟩
  push_cast
  rw [Real.log_div (by exact_mod_cast positive.ne') (by positivity), Real.log_zpow]

omit natural finite in
/-- A positive number without its power of ten is between one and ten, up to a rounding. -/
theorem tenths_yields {x : Decimal} (given : x.isFinite = true) (positive : 0 < x.value) :
    Yields (fun z => z.isFinite = true ∧ 7 / 10 ≤ z.value ∧ z.value ≤ 10 + 1 / 100 ∧
      |Real.log z.value + x.adjusted * Real.log 10 - Real.log x.value| ≤ 6 * c.grain) (c.scale x (-x.adjusted)) := by
  have fine := working.fine
  have place := adjusted_eq given positive.ne'
  rw [abs_of_pos positive] at place
  have first := pow_log_le positive
  have last := (log_lt_iff positive).mp (show _ < Int.log 10 x.value + 1 by omega)
  rw [place]
  intro z found
  have moved := (scale_reaches working.precise given _).yields z found
  obtain ⟨least, most, exact⟩ := tenths_bounds positive first last
  have within := (normal_of_round refuses moved.rounded).within moved
  obtain ⟨low, high⟩ := within.bounds (by linarith)
  have near := within.cast.log (by exact_mod_cast lt_of_lt_of_le one_pos least) (by
    push_cast
    linarith [working.fine_real])
  rw [exact, sub_sub_eq_add_sub] at near
  have tiny : (0 : ℝ) < c.grain := Rat.cast_pos.mpr c.grain_pos
  exact ⟨moved.isFinite, by nlinarith, by nlinarith, near.trans (by push_cast; linarith)⟩

omit refuses in
theorem addTwos_yields {near : Decimal} (given : near.isFinite = true) (less : |near.value| ≤ 1) {count : Nat}
    (few : count ≤ 3) :
    Yields (fun z => z.isFinite = true ∧ |z.value| ≤ 33 / 10 ∧
        |(z.value : ℝ) - (near.value + count * Real.log 2)| ≤ 11 * c.grain)
      (c.mul (ofInt count) k.lnTwo >>= c.add near) := by
  have fine := working.fine
  have two := lnTwo_near natural
  obtain ⟨low, high⟩ := lnTwo_bounds working natural
  refine (mul_reaches working.precise (x := ofInt count) rfl finite.lnTwo).yields.andThen ?_
  intro twos multiplied
  refine ((add_reaches working.precise given multiplied.isFinite).mono ?_).yields
  intro z added
  rw [value_ofInt, Int.cast_natCast] at multiplied
  have product : |(count : ℚ) * k.lnTwo.value| ≤ 3 * (7 / 10) := by
    rw [abs_mul, abs_of_pos (by linarith : 0 < k.lnTwo.value), Nat.abs_cast]
    exact mul_le_mul (by exact_mod_cast few) high (by linarith) (by norm_num)
  have first := working.near multiplied 1 (by linarith)
  have error := multiplied.near working.deep 1 (by linarith)
  have apart := abs_sub_abs_le_abs_sub twos.value ((count : ℚ) * k.lnTwo.value)
  have both : |near.value + twos.value| ≤ 32 / 10 := by
    linarith [abs_add_le near.value twos.value]
  have second := working.near added 1 (by linarith)
  have rounded := added.near working.deep 1 (by linarith)
  have before := abs_sub_abs_le_abs_sub z.value (near.value + twos.value)
  have drift : |(count : ℝ) * (k.lnTwo.value - Real.log 2)| ≤ 3 * (1 / 50 * c.grain) := by
    rw [abs_mul, Nat.abs_cast]
    exact mul_le_mul (by exact_mod_cast few) two (abs_nonneg _) (by norm_num)
  refine ⟨added.isFinite, by linarith, ?_⟩
  have tiny : (0 : ℝ) < c.grain := Rat.cast_pos.mpr c.grain_pos
  push_cast at first second
  obtain ⟨low₁, high₁⟩ := abs_le.mp first
  obtain ⟨low₂, high₂⟩ := abs_le.mp second
  obtain ⟨low₃, high₃⟩ := abs_le.mp drift
  refine abs_le.mpr ⟨?_, ?_⟩
  · linarith only [tiny, low₁, low₂, low₃]
  · linarith only [tiny, high₁, high₂, high₃]

/-- A multiple of the logarithm of ten is added within parts of it and of the sum. -/
theorem addTens_yields {sum : Decimal} (given : sum.isFinite = true) (less : |sum.value| ≤ 33 / 10) (tens : Int) :
    Yields (fun z => z.isFinite = true ∧
        |(z.value : ℝ) - (sum.value + tens * Real.log 10)| ≤ (17 + 30 * |(tens : ℝ)|) * c.grain)
      (c.mul (ofInt tens) k.lnTen >>= c.add sum) := by
  have fine := working.fine
  have unit := c.grain_pos
  obtain ⟨low, high⟩ := lnTen_bounds working natural
  refine (mul_reaches working.precise (x := ofInt tens) rfl finite.lnTen).yields.andThen ?_
  intro ten multiplied
  refine ((add_reaches working.precise given multiplied.isFinite).mono ?_).yields
  intro z added
  rw [value_ofInt] at multiplied
  have size : |(tens : ℚ) * k.lnTen.value| ≤ 24 / 10 * |(tens : ℚ)| := by
    rw [abs_mul, abs_of_pos (by linarith : 0 < k.lnTen.value), mul_comm]
    exact mul_le_mul_of_nonneg_right (by linarith) (abs_nonneg _)
  have first : |ten.value - tens * k.lnTen.value| ≤ 5 * c.grain * (24 / 10 * |(tens : ℚ)|) :=
    le_trans ((normal_of_round refuses multiplied.rounded).within multiplied)
      (mul_le_mul_of_nonneg_left size (by linarith))
  have far : |sum.value + ten.value| ≤ 33 / 10 + 25 / 10 * |(tens : ℚ)| := by
    have after := abs_sub_abs_le_abs_sub ten.value (tens * k.lnTen.value)
    have room := mul_le_mul_of_nonneg_right fine (abs_nonneg (tens : ℚ))
    exact (abs_add_le _ _).trans (by linarith [abs_nonneg (tens : ℚ)])
  have second : |z.value - (sum.value + ten.value)| ≤ 5 * c.grain * (33 / 10 + 25 / 10 * |(tens : ℚ)|) :=
    le_trans ((normal_of_round refuses added.rounded).within added) (mul_le_mul_of_nonneg_left far (by linarith))
  have drift : |(tens : ℝ) * (k.lnTen.value - Real.log 10)| ≤ |(tens : ℝ)| * (2 * c.grain) := by
    rw [abs_mul]
    exact mul_le_mul_of_nonneg_left (lnTen_near natural) (abs_nonneg _)
  refine ⟨added.isFinite, ?_⟩
  have tiny : (0 : ℝ) < c.grain := Rat.cast_pos.mpr unit
  have sizes := mul_nonneg (abs_nonneg (tens : ℝ)) tiny.le
  have first := (Rat.cast_le (K := ℝ)).mpr first
  have second := (Rat.cast_le (K := ℝ)).mpr second
  push_cast at first second
  obtain ⟨low₁, high₁⟩ := abs_le.mp first
  obtain ⟨low₂, high₂⟩ := abs_le.mp second
  obtain ⟨low₃, high₃⟩ := abs_le.mp drift
  refine abs_le.mpr ⟨?_, ?_⟩
  · linarith only [tiny, sizes, low₁, low₂, low₃]
  · linarith only [tiny, sizes, high₁, high₂, high₃]

/-- The logarithm is found within an error for what is left of the number and one for its place. -/
theorem lnWork_near {x : Decimal} (given : x.isFinite = true) (positive : 0 < x.value) :
    Yields (fun z => z.isFinite = true ∧
        |(z.value : ℝ) - Real.log x.value| ≤ (600 + 30 * |((Int.log 10 x.value : ℤ) : ℝ)|) * c.grain)
            (c.lnWork k x) := by
  have tiny : (0 : ℝ) < c.grain := Rat.cast_pos.mpr c.grain_pos
  have place := adjusted_eq given positive.ne'
  rw [abs_of_pos positive] at place
  rw [← place]
  unfold lnWork
  rw [isAtMost_eq given rfl, value_zero, decide_eq_false (not_le.mpr positive)]
  refine (lift_yields (tenths_yields working refuses given positive)).andThen ?_
  rintro y ⟨scaled, low, high, start⟩
  have exactly : |Real.log y.value + (0 : Nat) * Real.log 2 - Real.log y.value| ≤ 6 * c.grain * (0 : Nat) := by
    simp
  refine (lift_yields (halveToRoot_yields working refuses natural finite halvingBound scaled low
    (by norm_num at high ⊢; exact high) exactly (Nat.zero_add _))).andThen ?_
  intro made halved
  have step : Yields (fun z => z.isFinite = true ∧
        |(z.value : ℝ) - Real.log x.value| ≤ (600 + 30 * |(x.adjusted : ℝ)|) * c.grain)
      ((liftM ((do c.div (← c.sub made.2 one) (← c.add made.2 one)) >>= fun ratio => do
        c.mul (ofInt 2) (← c.atanhSeries ratio).total) : Computed Decimal) >>= fun near =>
          liftM (c.mul (ofInt made.1) k.lnTwo >>= c.add near) >>= fun sum =>
            liftM (c.mul (ofInt x.adjusted) k.lnTen >>= c.add sum)) := by
    refine (lift_yields (nearLog_reaches working halved.isFinite halved.low halved.high).yields).andThen ?_
    rintro near ⟨sound, less, close⟩
    refine (lift_yields (addTwos_yields working natural finite sound less halved.few)).andThen ?_
    rintro sum ⟨summed, size, twos⟩
    intro z found
    have added := lift_yields (addTens_yields working refuses natural finite summed size x.adjusted)
    obtain ⟨result, total⟩ := added z found
    refine ⟨result, ?_⟩
    have few : (made.1 : ℝ) * c.grain ≤ 3 * c.grain :=
      mul_le_mul_of_nonneg_right (by exact_mod_cast halved.few) tiny.le
    obtain ⟨low₁, high₁⟩ := abs_le.mp total
    obtain ⟨low₂, high₂⟩ := abs_le.mp twos
    obtain ⟨low₃, high₃⟩ := abs_le.mp close
    obtain ⟨low₄, high₄⟩ := abs_le.mp halved.near
    obtain ⟨low₅, high₅⟩ := abs_le.mp start
    refine abs_le.mpr ⟨?_, ?_⟩
    · linarith only [tiny, few, low₁, low₂, low₃, low₄, low₅]
    · linarith only [tiny, few, high₁, high₂, high₃, high₄, high₅]
  simpa only [liftM_bind_eq, bind_assoc] using step

end

end Context

end Reckoner.Decimal

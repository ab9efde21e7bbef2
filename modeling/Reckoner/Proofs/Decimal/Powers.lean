import Reckoner.Proofs.Decimal.Range
import Reckoner.Decimal.Power
import Mathlib.Algebra.Order.Ring.Pow

/-! Whole powers of small numbers. Squaring and multiplying along the bits of the exponent makes as many rounding
errors as the exponent counts, in a context with so many digits more; the power is within six units behind the
last digit, and it is found if it is inside the range. -/

namespace Reckoner.Decimal

/-! ### Roundings in a row -/

/-- Whether a number is another one up to so many relative errors in a row. -/
def Drifted (error : ℚ) (count : Nat) (x y : ℚ) : Prop :=
  (1 - error) ^ count * y ≤ x ∧ x ≤ (1 + error) ^ count * y

section
variable {error : ℚ} (nonneg : 0 ≤ error) (small : error ≤ 1 / 10)
include nonneg small

omit nonneg in
theorem Drifted.pos {count : Nat} {x y : ℚ} (drifted : Drifted error count x y) (positive : 0 < y) : 0 < x :=
  lt_of_lt_of_le (mul_pos (pow_pos (by linarith) count) positive) drifted.1

theorem Drifted.mul {i j : Nat} {x y a b : ℚ} (first : Drifted error i x y) (second : Drifted error j a b)
    (left : 0 < y) (right : 0 < b) : Drifted error (i + j) (x * a) (y * b) := by
  have positive := first.pos small left
  have other := second.pos small right
  have low : 0 < (1 - error) ^ j := pow_pos (by linarith) j
  constructor
  · calc (1 - error) ^ (i + j) * (y * b) = ((1 - error) ^ i * y) * ((1 - error) ^ j * b) := by rw [pow_add]; ring
      _ ≤ x * a := mul_le_mul first.1 second.1 (by positivity) positive.le
  · calc x * a ≤ ((1 + error) ^ i * y) * ((1 + error) ^ j * b) := mul_le_mul first.2 second.2 other.le (by positivity)
      _ = (1 + error) ^ (i + j) * (y * b) := by rw [pow_add]; ring

omit nonneg small in
theorem Drifted.of_within {x y : ℚ} (within : Within error x y) (positive : 0 ≤ y) : Drifted error 1 x y := by
  rw [Drifted, pow_one, pow_one]
  exact within.bounds positive

theorem Drifted.round {count : Nat} {x y z : ℚ} (drifted : Drifted error count x y) (within : Within error z x)
    (positive : 0 < y) : Drifted error (count + 1) z y := by
  obtain ⟨low, high⟩ := within.bounds (drifted.pos small positive).le
  constructor
  · calc (1 - error) ^ (count + 1) * y = (1 - error) * ((1 - error) ^ count * y) := by ring
      _ ≤ (1 - error) * x := mul_le_mul_of_nonneg_left drifted.1 (by linarith)
      _ ≤ z := low
  · calc z ≤ (1 + error) * x := high
      _ ≤ (1 + error) * ((1 + error) ^ count * y) := mul_le_mul_of_nonneg_left drifted.2 (by linarith)
      _ = (1 + error) ^ (count + 1) * y := by ring

/-- A few small errors in a row are about as large as all of them together. -/
theorem Drifted.within {count : Nat} {x y : ℚ} (drifted : Drifted error count x y) (few : count * error ≤ 1 / 4)
    (positive : 0 < y) : Within (2 * (count * error)) x y := by
  have least : 1 - count * error ≤ (1 - error) ^ count := by
    have steps := one_add_mul_le_pow (show -2 ≤ -error by linarith) count
    rw [← sub_eq_add_neg] at steps
    linarith
  have most : (1 + error) ^ count ≤ 1 + 2 * (count * error) := by
    have product : (1 - error) ^ count * (1 + error) ^ count ≤ 1 := by
      rw [← mul_pow]
      exact pow_le_one₀ (mul_nonneg (by linarith) (by linarith)) (by nlinarith)
    have power : 0 ≤ (1 + error) ^ count := by positivity
    have total : 0 ≤ count * error := by positivity
    nlinarith
  have total : 0 ≤ count * error := by positivity
  obtain ⟨low, high⟩ := drifted
  rw [Within, abs_of_pos positive, abs_le]
  constructor
  · nlinarith
  · nlinarith

end

namespace Context

open Reckoner.Numeral

/-! ### The bits of an exponent -/

/-- A number with one more bit at its end. -/
def withBit (n : Nat) (bit : Bool) : Nat := 2 * n + bit.toNat

theorem le_foldl_withBit (bits : List Bool) (n : Nat) : n ≤ bits.foldl withBit n := by
  induction bits generalizing n with
  | nil => exact le_rfl
  | cons bit bits ih =>
    refine le_trans ?_ (ih (withBit n bit))
    rw [withBit]
    omega

theorem foldl_lowerBits {n : Nat} (positive : n ≠ 0) : (lowerBits n).foldl withBit 1 = n := by
  have read (places : Nat) :
      ((List.range places).map fun place => n.testBit place).reverse.foldl withBit (n / 2 ^ places) = n := by
    induction places with
    | zero => simp
    | succ places ih =>
      have next : withBit (n / 2 ^ (places + 1)) (n.testBit places) = n / 2 ^ places := by
        rw [withBit, Nat.testBit_eq_decide_div_mod_eq, pow_succ, ← Nat.div_div_eq_div_mul]
        rcases Nat.mod_two_eq_zero_or_one (n / 2 ^ places) with even | odd
        · simp only [even]
          simp
          omega
        · simp only [odd]
          simp
          omega
      rw [List.range_succ, List.map_append, List.reverse_append]
      simpa only [List.map_cons, List.map_nil, List.reverse_singleton, List.singleton_append, List.foldl_cons,
        next] using ih
  have top : n / 2 ^ n.log2 = 1 := by
    have low := Nat.log2_self_le positive
    have high := Nat.lt_log2_self (n := n)
    rw [pow_succ] at high
    exact Nat.div_eq_of_lt_le (by omega) (by omega)
  rw [lowerBits, ← top]
  exact read n.log2

/-! ### Squaring and multiplying -/

/-- The next power: a square, times the base for a set bit. -/
def powerStep (c : Context) (base power : Decimal) (bit : Bool) : Except Signal Decimal := do
  let square ← c.mul power power
  if bit then c.mul square base else pure square

theorem powerBits_cons (c : Context) (base : Decimal) (bit : Bool) (bits : List Bool) (power : Decimal) :
    c.powerBits base (bit :: bits) power = (do
      let next ← c.powerStep base power bit
      if next.isZero then return next else c.powerBits base bits next) := by
  unfold powerStep
  rw [powerBits, bind_assoc]
  cases bit <;> rfl

theorem powerBits_concludes {c : Context} {granted : Signal → Prop} {holds : Nat → Decimal → Prop} {base : Decimal}
    {n : Nat} (step : ∀ m bit power, withBit m bit ≤ n → holds m power →
      Concludes granted (fun next => next.isZero = false ∧ holds (withBit m bit) next) (c.powerStep base power bit))
    (bits : List Bool) {m : Nat} {power : Decimal} (held : holds m power) (within : bits.foldl withBit m ≤ n) :
    Concludes granted (holds (bits.foldl withBit m)) (c.powerBits base bits power) := by
  induction bits generalizing m power with
  | nil => exact .ok held
  | cons bit bits ih =>
    rw [powerBits_cons]
    apply (step m bit power ((le_foldl_withBit bits _).trans within) held).andThen
    rintro next ⟨nonzero, held⟩
    rw [nonzero]
    exact ih held within

/-- Whether a decimal is near a power: fewer than three roundings for each factor have moved it. -/
structure Powered (error q : ℚ) (n : Nat) (power : Decimal) : Prop where
  isFinite : power.isFinite = true
  drifted : ∃ count, count + 2 ≤ 3 * n ∧ Drifted error count power.value (q ^ n)

section
variable {c : Context} (precise : 0 < c.precision) (refuses : c.refusesSubnormal = true)
  {granted : Signal → Prop} {q : ℚ} (positive : 0 < q) {n : Nat} (few : 3 * n * (5 * c.grain) ≤ 1 / 4)
  (grants : ∀ m ≤ n, ∀ x, 1 / 2 * q ^ m ≤ x → x ≤ 3 / 2 * q ^ m → ∀ signal, c.round x = .error signal → granted signal)
include precise refuses positive few grants

theorem product_concludes {x y : Decimal} (first : x.isFinite = true) (second : y.isFinite = true) {m count : Nat}
    (within : m ≤ n) (counted : count + 3 ≤ 3 * m)
    (drifted : Drifted (5 * c.grain) count (x.value * y.value) (q ^ m)) :
    Concludes granted (fun z => z.isFinite = true ∧ z.isZero = false ∧
        Drifted (5 * c.grain) (count + 1) z.value (q ^ m))
      (c.mul x y) := by
  have unit := c.grain_pos
  have power : 0 < q ^ m := pow_pos positive m
  have least : (1 : ℚ) ≤ n := by exact_mod_cast (show 1 ≤ n by omega)
  have small : 5 * c.grain ≤ 1 / 10 := by nlinarith
  have all : (count : ℚ) * (5 * c.grain) ≤ 1 / 4 := by
    have cast : (count : ℚ) ≤ 3 * n := by exact_mod_cast (show count ≤ 3 * n by omega)
    nlinarith
  obtain ⟨low, high⟩ := (drifted.within (by linarith) small all power).bounds power.le
  have allowed := grants m within (x.value * y.value) (by nlinarith) (by nlinarith)
  apply ((mul_gives precise first second).concludes allowed).mono
  intro z rounding
  have next := drifted.round (by linarith) small ((normal_of_round refuses rounding.rounded).within rounding) power
  refine ⟨rounding.isFinite, ?_, next⟩
  have nonzero : ¬ z.isZero = true := fun zero =>
    (next.pos small power).ne' ((isZero_iff rounding.isFinite).mp zero)
  simpa using nonzero

theorem powerStep_concludes {base : Decimal} (based : base.isFinite = true)
    (near : Drifted (5 * c.grain) 1 base.value q) (m : Nat) (bit : Bool) (power : Decimal) (within : withBit m bit ≤ n)
    (held : Powered (5 * c.grain) q m power) :
    Concludes granted (fun next => next.isZero = false ∧ Powered (5 * c.grain) q (withBit m bit) next)
      (c.powerStep base power bit) := by
  obtain ⟨finite, count, counted, drifted⟩ := held
  have unit := c.grain_pos
  have least : (1 : ℚ) ≤ n := by
    rw [withBit] at within
    exact_mod_cast (show 1 ≤ n by omega)
  have small : 5 * c.grain ≤ 1 / 10 := by nlinarith
  have size : 0 < q ^ m := pow_pos positive m
  have squares := drifted.mul (by linarith) small drifted size size
  rw [← pow_add, ← two_mul, ← two_mul] at squares
  rw [withBit] at within
  apply (product_concludes precise refuses positive few grants finite finite (by omega) (by omega) squares).andThen
  rintro square ⟨kept, nonzero, squared⟩
  cases bit with
  | false => exact .ok ⟨nonzero, kept, _, by rw [withBit]; simp; omega, squared⟩
  | true =>
    have products := squared.mul (by linarith) small near (pow_pos positive _) positive
    rw [← pow_succ] at products
    apply (product_concludes precise refuses positive few grants kept based within (by simp; omega) products).mono
    rintro next ⟨kept, nonzero, multiplied⟩
    refine ⟨nonzero, kept, _, ?_, multiplied⟩
    rw [withBit]
    simp
    omega

end

/-! ### Powers of small numbers -/

theorem finish_gives {c : Context} (precise : 0 < c.precision) {x : Decimal} (given : x.isFinite = true) :
    c.Gives x.value (c.finish x) := by
  obtain ⟨s, m, e, rfl⟩ := isFinite_iff.mp given
  exact finishFinite_gives precise (congrArg c.round (value_finite s m e).symm)

theorem withSign_false {x : Decimal} (given : x.isFinite = true) (positive : 0 < x.value) : x.withSign false = x := by
  obtain ⟨s, m, e, rfl⟩ := isFinite_iff.mp given
  cases s with
  | false => rfl
  | true =>
    rw [value_finite, signed_eq, if_pos rfl, neg_mul] at positive
    exact absurd positive (not_lt.mpr (neg_nonpos.mpr (mul_nonneg m.cast_nonneg (pow_ten_pos e).le)))

/-- Whether the range has room for so many digits before and behind the point. -/
structure Room (c : Context) (n : Nat) : Prop where
  above : (n : ℤ) < c.greatest
  below : (n : ℤ) < -c.least

section
variable {c : Context} (precise : 0 < c.precision) {q : ℚ} (low : 1 / 10 ≤ q) (high : q ≤ 10) {n : Nat}
include low high

/-- So many factors stay inside the range if there is room for as many digits. -/
theorem Room.spans (room : c.Room n) {m : Nat} (le : m ≤ n) {x : ℚ} (least : 1 / 2 * q ^ m ≤ x)
    (most : x ≤ 3 / 2 * q ^ m) : c.Spans x := by
  have small : (10 : ℚ) ^ (-(n : ℤ)) ≤ q ^ m := by
    calc (10 : ℚ) ^ (-(n : ℤ)) = (1 / 10) ^ n := by rw [zpow_neg, zpow_natCast, one_div, inv_pow]
      _ ≤ (1 / 10) ^ m := pow_le_pow_of_le_one (by norm_num) (by norm_num) le
      _ ≤ q ^ m := pow_le_pow_left₀ (by norm_num) low m
  have large : q ^ m ≤ 10 ^ (n : ℤ) := by
    calc q ^ m ≤ 10 ^ m := pow_le_pow_left₀ (by linarith) high m
      _ ≤ 10 ^ n := pow_le_pow_right₀ (by norm_num) le
      _ = 10 ^ (n : ℤ) := (zpow_natCast _ _).symm
  have positive : 0 < x := by linarith [pow_ten_pos (-(n : ℤ))]
  have above := room.above
  have below := room.below
  refine spans_of_le (show c.least ≤ -(n : ℤ) - 1 by omega) (show (n : ℤ) + 1 ≤ c.greatest by omega) ?_ ?_
  · rw [zpow_sub_one₀ (by norm_num), abs_of_pos positive]
    linarith [pow_ten_pos (-(n : ℤ))]
  · rw [zpow_add_one₀ (by norm_num), abs_of_pos positive]
    linarith

include precise

theorem Room.not_of_error {m : Nat} (le : m ≤ n) {x : ℚ} (least : 1 / 2 * q ^ m ≤ x) (most : x ≤ 3 / 2 * q ^ m)
    {signal : Signal} (failed : c.round x = .error signal) : ¬ c.Room n := by
  intro room
  obtain ⟨r, rounded⟩ := (room.spans low high le least most).fits precise
  rw [rounded] at failed
  cases failed

variable (refuses : c.refusesSubnormal = true)
include refuses

/-- The base is found within a rounding, turned around for a negative exponent. -/
theorem base_concludes {base : Decimal} (given : base.isFinite = true) (nonzero : base.value ≠ 0) {below : Bool}
    (based : q = if below then 1 / base.value else base.value) (some : 1 ≤ n) :
    Concludes (fun _ => ¬ c.Room n) (fun z => z.isFinite = true ∧ Drifted (5 * c.grain) 1 z.value q)
      (if below then c.div one base else pure base) := by
  have positive : 0 < q := by linarith
  have unit := c.grain_pos
  cases below with
  | false =>
    refine .ok ⟨given, .of_within ?_ positive.le⟩
    rw [based]
    exact .refl (by linarith) _
  | true =>
    have quotient := div_gives precise (x := one) rfl given nonzero
    rw [value_one, ← (show q = 1 / base.value from based)] at quotient
    refine (quotient.concludes ?_).mono fun z rounding => ⟨rounding.isFinite, ?_⟩
    · intro signal failed
      exact Room.not_of_error precise low high some (by linarith) (by linarith) failed
    · exact .of_within ((normal_of_round refuses rounding.rounded).within rounding) positive.le

omit precise low high refuses in
theorem wholePower_eq (c : Context) (negative : Bool) (base : Decimal) (below : Bool) (exponent length : Nat) :
    c.wholePower negative base below exponent length =
      let wide := c.widen (length + 2 + if below then 1 else 0)
      (if below then wide.div one base else pure base) >>= (fun base => do
        let power ← wide.powerBits base (lowerBits exponent) base
        c.finish (power.withSign negative)) := by
  cases below <;> rfl

omit precise low high refuses in
/-- Two digits more than those of the exponent hold the errors of all factors. -/
theorem wide_error_le {length digits : Nat} (counted : n < 10 ^ length) (more : length + 2 ≤ digits) :
    3 * n * (5 * (c.widen digits).grain) ≤ 3 / 20 * c.grain := by
  have power : (100 : ℚ) * n ≤ 10 ^ digits := by
    have enough : 10 ^ length * 100 ≤ 10 ^ digits := by
      rw [show 100 = 10 ^ 2 from rfl, ← Nat.pow_add]
      exact Nat.pow_le_pow_right (by decide) more
    exact_mod_cast (show 100 * n ≤ 10 ^ digits by omega)
  have large : (0 : ℚ) < 10 ^ digits := by positivity
  rw [grain_widen, ← mul_div_assoc, ← mul_div_assoc, div_le_iff₀ large]
  nlinarith [c.grain_pos]

/-- A few digits more for those of the exponent keep a power within six units behind the last digit. -/
theorem wholePower_concludes {base : Decimal} (given : base.isFinite = true) (nonzero : base.value ≠ 0) {below : Bool}
    (based : q = if below then 1 / base.value else base.value) (some : 1 ≤ n) {length : Nat}
    (counted : n < 10 ^ length) :
    Concludes (fun _ => ¬ c.Room n) (fun z => z.isFinite = true ∧ Within (6 * c.grain) z.value (q ^ n))
      (c.wholePower false base below n length) := by
  have positive : 0 < q := by linarith
  have size : 0 < q ^ n := pow_pos positive n
  have tiny := c.grain_pos
  have unit : c.grain ≤ 1 / 10 := (grain_le_of_le precise).trans_eq (by norm_num)
  have least : (1 : ℚ) ≤ n := by exact_mod_cast some
  rw [wholePower_eq]
  dsimp only
  generalize more : length + 2 + (if below = true then 1 else 0) = digits
  have fine := wide_error_le (c := c) counted (show length + 2 ≤ digits by omega)
  generalize widened : c.widen digits = w at fine
  have room : w.Room n ↔ c.Room n := by
    rw [← widened]
    exact ⟨fun room => ⟨room.above, room.below⟩, fun room => ⟨room.above, room.below⟩⟩
  have wide : 0 < w.precision := widened ▸ Nat.add_pos_left precise digits
  have refuses' : w.refusesSubnormal = true := widened ▸ refuses
  have narrow := w.grain_pos
  have few : 3 * n * (5 * w.grain) ≤ 1 / 4 := by linarith
  have grants (m : Nat) (le : m ≤ n) (x : ℚ) (above : 1 / 2 * q ^ m ≤ x) (beneath : x ≤ 3 / 2 * q ^ m)
      (signal : Signal) (failed : w.round x = .error signal) : ¬ c.Room n :=
    room.not.mp (Room.not_of_error wide low high le above beneath failed)
  have based' := (base_concludes wide low high refuses' given nonzero based some).grant fun _ => room.not.mp
  apply based'.andThen
  intro base' rounded
  obtain ⟨kept, near⟩ := rounded
  have steps := powerStep_concludes wide refuses' positive few grants kept near
  have started : Powered (5 * w.grain) q 1 base' := ⟨kept, 1, by omega, by rwa [pow_one]⟩
  have bits := foldl_lowerBits (n := n) (by omega)
  apply (powerBits_concludes steps (lowerBits n) started bits.le).andThen
  intro power powered
  rw [bits] at powered
  obtain ⟨finite, count, counted, drifted⟩ := powered
  have small : 5 * w.grain ≤ 1 / 10 := by nlinarith
  have part : (count : ℚ) * (5 * w.grain) ≤ 3 / 20 * c.grain := by
    have cast : (count : ℚ) ≤ 3 * n := by exact_mod_cast (show count ≤ 3 * n by omega)
    nlinarith
  have near := drifted.within (by linarith) small (by linarith) size
  obtain ⟨bottom, top⟩ := near.bounds size.le
  rw [withSign_false finite (drifted.pos small size)]
  refine ((finish_gives precise finite).concludes ?_).mono fun z rounding =>
    ⟨rounding.isFinite, ?_⟩
  · intro signal failed
    exact Room.not_of_error precise low high le_rfl (by nlinarith) (by nlinarith) failed
  · exact (((normal_of_round refuses rounding.rounded).within rounding).trans near (by linarith)).mono (by nlinarith)

end

/-- The first digit of the logarithm of a small number is not above the point. -/
theorem logarithmExponent_nonpos {b : Nat} (most : b ≤ 10) : logarithmExponent b 0 ≤ 0 := by
  interval_cases b <;> decide +kernel

theorem not_one {b : Nat} (least : 2 ≤ b) : compareMagnitude b 0 1 0 ≠ .eq := by
  rw [compareMagnitude_eq, Ne, compare_eq_iff_eq, zpow_zero, mul_one, mul_one]
  exact_mod_cast (show b ≠ 1 by omega)

theorem exists_finishFinite_tiniest {c : Context} (precise : 0 < c.precision) (refuses : c.refusesSubnormal = true) :
    ∃ signal, c.finishFinite false 1 (c.tiniest - 1) = .error signal := by
  have count : digitCount 1 = 1 := digitCount_pow 0
  have small : c.tiniest - 1 + (digitCount 1 : Int) - 1 < c.least := by
    rw [tiniest, count]
    omega
  unfold finishFinite
  dsimp only
  rw [if_neg one_ne_zero, if_pos small, refuses]
  split
  · exact ⟨_, rfl⟩
  · exact ⟨_, rfl⟩

theorem zpow_eq_pow_natAbs (q : ℚ) (k : Int) : q ^ k = (if k < 0 then 1 / q else q) ^ k.natAbs := by
  split
  · rw [one_div, inv_pow, ← zpow_natCast, ← zpow_neg]
    congr 1
    omega
  · rw [← zpow_natCast]
    congr 1
    omega

/-- A number between two and ten, or its reciprocal, by repeated squaring. -/
theorem squaring_concludes {c : Context} (precise : 0 < c.precision) (refuses : c.refusesSubnormal = true) {b : Nat}
    (least : 2 ≤ b) (most : b ≤ 10) {k : Int} (some : k.natAbs ≠ 0) :
    Concludes (fun _ => ¬ c.Room k.natAbs) (fun z => z.isFinite = true ∧ Within (6 * c.grain) z.value ((b : ℚ) ^ k))
      (c.wholePower false (finite false b 0) (decide (k < 0)) k.natAbs (digitCount k.natAbs)) := by
  have value : (finite false b 0).value = b := by simp [value_finite, signed]
  have low : (2 : ℚ) ≤ b := by exact_mod_cast least
  have high : (b : ℚ) ≤ 10 := by exact_mod_cast most
  rw [zpow_eq_pow_natAbs]
  generalize turned : (if k < 0 then 1 / (b : ℚ) else b) = q
  have bounds : 1 / 10 ≤ q ∧ q ≤ 10 := by
    rw [← turned]
    split
    · refine ⟨one_div_le_one_div_of_le (by linarith) high, ?_⟩
      rw [div_le_iff₀ (by linarith)]
      linarith
    · constructor <;> linarith
  refine wholePower_concludes precise bounds.1 bounds.2 refuses rfl (by rw [value]; linarith) ?_
    (Nat.one_le_iff_ne_zero.mpr some) (lt_pow_digitCount _)
  rw [value, ← turned]
  simp only [decide_eq_true_eq]

theorem power_concludes {c : Context} (precise : 0 < c.precision) (refuses : c.refusesSubnormal = true) {b : Nat}
    (least : 2 ≤ b) (most : b ≤ 10) (k : Int) :
    Concludes (fun _ => ¬ c.Room k.natAbs) (fun z => z.isFinite = true ∧ Within (6 * c.grain) z.value ((b : ℚ) ^ k))
      (c.power (ofInt b) (ofInt k)) := by
  have unit := c.grain_pos
  have base : ofInt b = finite false b 0 := by
    rw [ofInt]
    simp
  rw [base, show c.power (finite false b 0) (ofInt k) =
    c.powerFinite false b 0 (decide (k < 0)) k.natAbs 0 from rfl]
  unfold powerFinite
  dsimp only
  rw [if_neg (show b ≠ 0 by omega), if_neg (by simp), Bool.false_and]
  refine .ite ?_ ?_
  · intro zero
    have none : k = 0 := Int.natAbs_eq_zero.mp zero
    refine .ok ⟨rfl, ?_⟩
    rw [none, zpow_zero, value_finite, zpow_zero, mul_one]
    exact .refl (by linarith) _
  intro some
  rw [if_neg (not_one least)]
  unfold generalPower
  dsimp only
  have first := logarithmExponent_nonpos most
  have longer {n : Nat} (below : k.natAbs ≤ n) : (digitCount k.natAbs : Int) ≤ digitCount n := by
    exact_mod_cast (digitCount_le_iff (digitCount_pos n)).mpr (below.trans_lt (lt_pow_digitCount n))
  refine .ite (fun beyond => .error ?_) fun _ => .ite ?_ ?_
  · intro room
    have large := beyond.2
    have above := room.above
    have digits := longer (show k.natAbs ≤ c.greatest.natAbs by omega)
    rw [leading] at large
    omega
  · intro beyond
    have large := beyond.2
    obtain ⟨signal, failed⟩ := exists_finishFinite_tiniest precise refuses
    rw [failed]
    refine .error ?_
    intro room
    have below := room.below
    have digits := longer (show k.natAbs ≤ c.tiniest.natAbs by rw [tiniest]; omega)
    rw [leading] at large
    omega
  intro _
  have whole : (finite (decide (k < 0)) k.natAbs 0).isWhole = true := by simp [isWhole]
  have exponent : (finite false k.natAbs 0).toInt.toNat = k.natAbs := by
    rw [toInt]
    simp only [le_refl, if_true, Int.toNat_zero, pow_zero, Nat.mul_one, Bool.false_eq_true, if_false,
      Int.toNat_natCast]
  have length : ((digitCount k.natAbs : Int) + 0).toNat = digitCount k.natAbs := by omega
  rw [if_pos whole, exponent, length]
  exact squaring_concludes precise refuses least most some

end Context

end Reckoner.Decimal

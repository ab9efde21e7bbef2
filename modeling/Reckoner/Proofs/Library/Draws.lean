import Reckoner.Library.Functions
import Reckoner.Proofs.Binary64.Ratios
import Reckoner.Proofs.NumberSystem.IntegerUnbounded

/-! Drawn whole numbers. The double that a draw gives between two bounds is rounded faithfully, so it leaves neither,
and then it is truncated toward zero. So the greater bound is left out if it is positive and the double is below it, or
if the double is at most the whole number before it. -/

namespace Reckoner.Binary64

variable {draw span : Float} {low high width : Int}

theorem value_sub_ofInt (least : |low| ≤ 2 ^ 52) (greatest : |high| ≤ 2 ^ 52) :
    (ofInt high - ofInt low).isFinite = true ∧ value (ofInt high - ofInt low) = (high - low : ℤ) := by
  obtain ⟨leftFinite, left⟩ := value_ofInt (least.trans (by decide))
  obtain ⟨rightFinite, right⟩ := value_ofInt (greatest.trans (by decide))
  have short : |high - low| ≤ 2 ^ 53 := by
    rw [abs_le] at least greatest ⊢
    omega
  have difference := sub_represents rightFinite leftFinite
  rw [left, right, ← Int.cast_sub] at difference
  obtain ⟨finite, faithful⟩ := difference (inRange_of_short (by exact_mod_cast short))
  exact ⟨finite, faithful.eq_of_fits (fits_intCast short)⟩

/-- A part of a width is rounded to a double that is not above a whole number unless the exact one is. -/
theorem part_between (finite : draw.isFinite = true) (nonneg : 0 ≤ value draw) (below : value draw < 1)
    (spanFinite : span.isFinite = true) (exact : value span = width) (positive : 0 ≤ width) (short : width ≤ 2 ^ 53) :
    (draw * span).isFinite = true ∧ 0 ≤ value (draw * span) ∧
      ∀ bound : Int, 0 ≤ bound → bound ≤ width → value draw * width ≤ bound → value (draw * span) ≤ bound := by
  have wide : (0 : ℚ) ≤ width := by exact_mod_cast positive
  have first : 0 ≤ value draw * width := mul_nonneg nonneg wide
  have last : value draw * width ≤ 2 ^ 53 := (mul_le_of_le_one_left wide below.le).trans (by exact_mod_cast short)
  have product := mul_represents finite spanFinite
  rw [exact] at product
  obtain ⟨partFinite, part⟩ := product (inRange_of_short ((abs_of_nonneg first).trans_le last))
  have fits {n : Int} (nonneg : 0 ≤ n) (few : n ≤ width) : Fits n :=
    fits_intCast ((abs_of_nonneg nonneg).trans_le (few.trans short))
  refine ⟨partFinite, ?_, fun bound least most => part.le_of_le (fits least most)⟩
  exact_mod_cast part.ge_of_ge (fits le_rfl positive) (by exact_mod_cast first)

/-- What a draw gives is rounded to a double that is not above a whole number unless the exact one is. -/
theorem drawn_between (finite : draw.isFinite = true) (nonneg : 0 ≤ value draw) (below : value draw < 1)
    (ordered : low < high) (least : |low| ≤ 2 ^ 52) (greatest : |high| ≤ 2 ^ 52) :
    let number := ofInt low + draw * (ofInt high - ofInt low)
    number.isFinite = true ∧ low ≤ value number ∧
      ∀ bound : Int, low ≤ bound → bound ≤ high → value draw * (high - low) ≤ bound - low → value number ≤ bound := by
  intro number
  obtain ⟨lowFinite, exact⟩ := value_ofInt (least.trans (by decide))
  obtain ⟨spanFinite, span⟩ := value_sub_ofInt least greatest
  rw [abs_le] at least greatest
  obtain ⟨partFinite, above, under⟩ :=
    part_between finite nonneg below spanFinite span (by omega) (by omega)
  have wide : (0 : ℚ) ≤ (high - low : ℤ) := by exact_mod_cast (by omega : 0 ≤ high - low)
  have highest := under (high - low) (by omega) le_rfl (mul_le_of_le_one_left wide below.le)
  push_cast at highest under
  -- So the exact sum is between the bounds, which are doubles.
  obtain ⟨sumFinite, sum⟩ : Represents (low + value (draw * (ofInt high - ofInt low))) number := by
    have total := add_represents lowFinite partFinite
    rw [exact] at total
    have lowest : -(2 ^ 52 : ℚ) ≤ low := by exact_mod_cast least.1
    have most : (high : ℚ) ≤ 2 ^ 52 := by exact_mod_cast greatest.2
    exact total (inRange_of_short (abs_le.mpr ⟨by linarith, by linarith⟩))
  have near {n : ℤ} (first : low ≤ n) (last : n ≤ high) : Fits n :=
    fits_intCast (abs_le.mpr ⟨by omega, by omega⟩)
  refine ⟨sumFinite, sum.ge_of_ge (near le_rfl ordered.le) (by linarith), ?_⟩
  intro bound first last exact
  have most := under (bound - low) (by omega) (by omega) (by push_cast; linarith)
  push_cast at most
  exact sum.le_of_le (near first last) (by linarith)

end Reckoner.Binary64

namespace Reckoner.NumberSystem.Integer

open Reckoner.Library
open Binary64 (value)
open Decimal (truncated truncated_lt_iff)

variable {width : Width} {low high : Int} {draw : Float}

/-- Between two whole numbers a draw gives the truncated number between them. It is never beyond them, but it is the
greater one if it comes that near to it, and with a greater bound up to zero already if it is less than one away. -/
theorem random_between (zero one : Int) (least : width.admits low = true) (greatest : width.admits high = true)
    (ordered : low < high) (small : |low| ≤ 2 ^ 52) (moderate : |high| ≤ 2 ^ 52) (finite : draw.isFinite = true)
    (nonneg : 0 ≤ value draw) (below : value draw < 1) :
    let number := value (Binary64.ofInt low + draw * (Binary64.ofInt high - Binary64.ofInt low))
    ∃ result, (⟨system width, zero, one⟩ : Base Int).random draw [low, high] = .ok result ∧
      result = truncated number ∧ low ≤ result ∧ result ≤ high ∧
      (result < high ↔ if 0 < high then number < high else number ≤ high - 1) ∧
      (value draw * (high - low) ≤ high - low - 1 → result < high) := by
  intro number
  have double {n : Int} (small : |n| ≤ 2 ^ 52) : toDouble width n = .ok (Binary64.ofInt n) :=
    toDouble_of_abs_lt width (small.trans_lt (pow_lt_pow_right₀ (by decide) (by decide)))
  have forward : ¬ Binary64.ofInt high < Binary64.ofInt low := by
    intro backward
    obtain ⟨lowFinite, lowValue⟩ := Binary64.value_ofInt (small.trans (by norm_num))
    obtain ⟨highFinite, highValue⟩ := Binary64.value_ofInt (moderate.trans (by norm_num))
    have less := Binary64.value_lt_of_lt highFinite lowFinite backward
    rw [lowValue, highValue] at less
    exact absurd (Int.cast_lt.mp less) (not_lt.mpr ordered.le)
  obtain ⟨numberFinite, first, last⟩ := Binary64.drawn_between finite nonneg below ordered small moderate
  have upper : number ≤ high := last high ordered.le le_rfl <|
    mul_le_of_le_one_left (sub_nonneg.mpr (Int.cast_le.mpr ordered.le)) below.le
  obtain ⟨down, up⟩ := Rounding.whole_bounds .truncate number
  have above : low ≤ truncated number := (Int.le_floor.mpr first).trans down
  have under : truncated number ≤ high := up.trans (Int.ceil_le.mpr upper)
  refine ⟨truncated number, ?_, rfl, above, under, truncated_lt_iff, ?_⟩
  · have left : (system width).toFloat low = .ok (Binary64.ofInt low) := double small
    have right : (system width).toFloat high = .ok (Binary64.ofInt high) := double moderate
    have drawn : (⟨system width, zero, one⟩ : Base Int).random draw [low, high] =
        ofDouble width (Binary64.ofInt low + draw * (Binary64.ofInt high - Binary64.ofInt low)) := by
      rw [Base.random]
      simp only [left, right, bind, Except.bind, pure, Except.pure, if_neg forward]
      rfl
    rw [drawn, ofDouble, if_pos numberFinite, Binary64.toInt_eq _ numberFinite]
    exact if_pos (Width.admits_between least greatest above under)
  · intro exact
    have less := last (high - 1) (by omega) (by omega) (by push_cast; linarith)
    exact Int.lt_of_le_sub_one (up.trans (Int.ceil_le.mpr less))

theorem value_half : value 0.5 = 1 / 2 := by
  have parts : (0.5 : Float).toModel.unpack = .finite .positive (2 ^ 52) (-53) (by decide) := rfl
  rw [value, parts, Binary64.unpackedValue]
  norm_num [Float.Model.UnpackedFloat.Sign.apply]

/-- In the middle of a draw the greater bound is far enough away, whatever the sign of the lesser one. -/
theorem random_between_sample :
    let width : Width := ⟨some 8⟩
    width.admits (-3) = true ∧ width.admits 4 = true ∧ (0.5 : Float).isFinite = true ∧
      0 ≤ value 0.5 ∧ value 0.5 < 1 ∧
      ∃ result, (⟨system width, 0, 1⟩ : Base Int).random 0.5 [-3, 4] = .ok result ∧ -3 ≤ result ∧ result < 4 := by
  intro width
  have nonneg : 0 ≤ value 0.5 := by
    rw [value_half]
    norm_num
  have below : value 0.5 < 1 := by
    rw [value_half]
    norm_num
  have least : width.admits (-3) = true := by decide
  have greatest : width.admits 4 = true := by decide
  obtain ⟨result, found, -, first, -, -, less⟩ :=
    random_between 0 1 least greatest (by decide) (by decide) (by decide) rfl nonneg below
  refine ⟨least, greatest, rfl, nonneg, below, result, found, first, less ?_⟩
  rw [value_half]
  norm_num

/-- In the middle between two negative neighbours the greater one is drawn. -/
theorem random_reaches_bound :
    let width : Width := ⟨some 64⟩
    width.admits (-2) = true ∧ width.admits (-1) = true ∧ (0.5 : Float).isFinite = true ∧
      0 ≤ value 0.5 ∧ value 0.5 < 1 ∧ (⟨system width, 0, 1⟩ : Base Int).random 0.5 [-2, -1] = .ok (-1) := by
  refine ⟨by decide, by decide, rfl, ?_, ?_, rfl⟩
  · rw [value_half]
    norm_num
  · rw [value_half]
    norm_num

end Reckoner.NumberSystem.Integer

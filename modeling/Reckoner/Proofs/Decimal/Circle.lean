import Reckoner.Proofs.Decimal.Arctangent
import Reckoner.Proofs.Decimal.Series

/-! The circle constants. Those that are computed for a working precision are near `π` and its double, and so
are those that are kept to forty digits, which are compared with computed ones. -/

namespace Reckoner.Decimal

namespace Context

/-! ### Series without a division by zero -/

section
variable {c : Context} (precise : 0 < c.precision)
include precise

variable {next : Nat → Decimal → Except Signal (Decimal × Decimal)}

theorem addTerms_reaches (terms : ∀ index factor, 1 ≤ index → factor.isFinite = true →
      Reaches (fun made => made.1.isFinite = true ∧ made.2.isFinite = true) (next index factor))
    {epsilon : Decimal} (known : epsilon.isFinite = true) (fuel : Nat) {index : Nat} (counted : 1 ≤ index)
    {factor total : Decimal} (carried : factor.isFinite = true) (summed : total.isFinite = true) :
    Reaches (·.total.isFinite = true) (c.addTerms epsilon next fuel index factor total) := by
  induction fuel generalizing index factor total with
  | zero => exact .ok summed
  | succ fuel ih =>
    unfold addTerms
    apply (terms index factor counted carried).andThen
    intro made continued
    obtain ⟨carried, term⟩ := continued
    apply (add_reaches precise summed term).andThen
    intro total summed
    apply (abs_reaches precise term).andThen
    intro size measured
    rw [isLess_eq measured.isFinite known]
    exact .ite (fun _ => .ok summed.isFinite) fun _ => ih (by omega) carried summed.isFinite

theorem sumSeries_reaches (terms : ∀ index factor, 1 ≤ index → factor.isFinite = true →
      Reaches (fun made => made.1.isFinite = true ∧ made.2.isFinite = true) (next index factor))
    {first : Decimal} (given : first.isFinite = true) :
    Reaches (·.total.isFinite = true) (c.sumSeries first next) := by
  apply (scale_reaches precise rfl _).andThen
  intro _ small
  exact addTerms_reaches precise terms small.isFinite _ le_rfl given given

theorem expSeries_reaches {x : Decimal} (given : x.isFinite = true) :
    Reaches (·.total.isFinite = true) (c.expSeries x) := by
  refine sumSeries_reaches precise ?_ rfl
  intro index term counted kept
  apply (mul_reaches precise kept given).andThen
  intro product multiplied
  have nonzero : (ofInt index).value ≠ 0 := by
    rw [value_ofInt]
    exact_mod_cast (Nat.pos_iff_ne_zero.mp counted)
  apply (div_reaches precise multiplied.isFinite rfl nonzero).andThen
  intro term divided
  exact .ok ⟨divided.isFinite, divided.isFinite⟩

theorem atanhSeries_reaches {y : Decimal} (given : y.isFinite = true) :
    Reaches (·.total.isFinite = true) (c.atanhSeries y) := by
  apply (mul_reaches precise given given).andThen
  intro square squared
  refine sumSeries_reaches precise ?_ given
  intro index power counted kept
  apply (mul_reaches precise kept squared.isFinite).andThen
  intro power multiplied
  have nonzero : (ofInt (2 * index + 1)).value ≠ 0 := by
    rw [value_ofInt]
    exact_mod_cast (2 * index).succ_ne_zero
  apply (div_reaches precise multiplied.isFinite rfl nonzero).andThen
  intro term divided
  exact .ok ⟨multiplied.isFinite, divided.isFinite⟩

end

/-- A small multiple of a number that is off by a little is off by as many times that, and a rounding. -/
theorem Working.multiple_near {c : Context} (working : c.Working) {n : Nat} {x z : Decimal} {exact error : ℝ}
    (rounding : c.IsRounding ((n : ℤ) * x.value) z) (near : |(x.value : ℝ) - exact| ≤ error)
    (fits : n * (|exact| + error) < 10) : |(z.value : ℝ) - n * exact| ≤ 5 * c.grain + n * error := by
  have count : (0 : ℝ) ≤ n := n.cast_nonneg
  have size : |(n : ℝ) * x.value| < 10 := by
    have width : |(x.value : ℝ)| ≤ |exact| + error := by linarith [abs_sub_abs_le_abs_sub (x.value : ℝ) exact]
    rw [abs_mul, abs_of_nonneg count]
    exact (mul_le_mul_of_nonneg_left width count).trans_lt fits
  have rounded := working.near rounding 1 (by rw [pow_one]; exact_mod_cast size)
  push_cast at rounded
  have moved : |(n : ℝ) * x.value - n * exact| ≤ n * error := by
    rw [← mul_sub, abs_mul, abs_of_nonneg count]
    exact mul_le_mul_of_nonneg_left near count
  exact (abs_sub_le _ ((n : ℝ) * x.value) _).trans (by linarith)

end Context

namespace Constants

open Context

/-- Whether the circle constants are within ten units of so many digits. -/
structure Circular (digits : Nat) (k : Constants) : Prop where
  pi : |(k.pi.value : ℝ) - Real.pi| ≤ 10 * 10 ^ (-(digits : ℤ))
  twoPi : |(k.twoPi.value : ℝ) - 2 * Real.pi| ≤ 10 * 10 ^ (-(digits : ℤ))

theorem wideRange_working {precision : Nat} (least : 6 ≤ precision) (most : precision ≤ 110) :
    (wideRange precision).Working :=
  ⟨least, most, show (-999999 : Int) < 0 by decide⟩

theorem wideRange_grain (precision : Nat) :
    ((wideRange (precision + 5)).grain : ℝ) = 10 ^ (-(precision : ℤ)) / 10 ^ 5 := by
  rw [show wideRange (precision + 5) = (wideRange precision).widen 5 from rfl, grain_widen, Context.grain]
  push_cast
  rfl

theorem derive_reaches {precision : Nat} (least : 6 ≤ precision) (most : precision ≤ 105) :
    Reaches (Circular precision) (derive precision) := by
  have working := wideRange_working (show 6 ≤ precision + 5 by omega) (by omega)
  have precise := working.precise
  have grain := wideRange_grain precision
  have unit : (0 : ℝ) < 10 ^ (-(precision : ℤ)) := by positivity
  have small : (10 : ℝ) ^ (-(precision : ℤ)) ≤ 1 / 10 ^ 6 := by
    have power : (10 : ℝ) ^ (-(precision : ℤ)) ≤ 10 ^ (-6 : ℤ) := zpow_le_zpow_right₀ (by norm_num) (by omega)
    exact power.trans_eq (by norm_num)
  apply (Context.sqrt_reaches precise rfl).andThen
  intro rootTwo root
  obtain ⟨q, step, rooted, positive, many, _⟩ := root
  apply working.atanReduced_reaches.andThen
  intro quarter reduced
  obtain ⟨kept, angle⟩ := reduced
  apply (mul_reaches precise rfl kept).andThen
  intro pi circle
  have near : |(pi.value : ℝ) - Real.pi| ≤ 3 * 10 ^ (-(precision : ℤ)) := by
    rw [value_ofInt] at circle
    have fourfold := working.multiple_near (n := 4) circle angle (by
      rw [abs_of_pos (by linarith [Real.pi_pos])]
      push_cast
      linarith [Real.pi_lt_d2])
    push_cast at fourfold
    rw [mul_div_cancel₀ _ (by norm_num : (4 : ℝ) ≠ 0)] at fourfold
    linarith
  apply (sub_reaches precise rooted.isFinite rfl).andThen
  intro numerator above
  apply (add_reaches precise rooted.isFinite rfl).andThen
  intro denominator below
  have root : 0 ≤ rootTwo.value := rooted.nonneg ((mul_nonneg positive (by positivity)).trans many)
  have nonzero : denominator.value ≠ 0 := by
    have large : (10 : ℚ) ^ (0 : ℤ) ≤ |rootTwo.value + one.value| := by
      rw [value_one, abs_of_nonneg (by linarith), zpow_zero]
      linarith
    have deep := working.deep
    have one := le_abs_round precise (by rw [tiniest]; omega) large below.rounded
    rw [zpow_zero] at one
    exact abs_pos.mp (by linarith)
  apply (div_reaches precise above.isFinite below.isFinite nonzero).andThen
  intro ratio divided
  apply (atanhSeries_reaches precise divided.isFinite).andThen
  intro sum two
  apply (mul_reaches precise rfl two).andThen
  intro lnTwo two
  apply (div_reaches precise rfl rfl (by rw [value_ofInt]; norm_num)).andThen
  intro ninth ninths
  apply (mul_reaches precise rfl two.isFinite).andThen
  intro thrice tripled
  apply (atanhSeries_reaches precise ninths.isFinite).andThen
  intro sum ten
  apply (mul_reaches precise rfl ten).andThen
  intro twice doubled
  apply (add_reaches precise tripled.isFinite doubled.isFinite).andThen
  intro lnTen tens
  apply (expSeries_reaches precise rfl).andThen
  intro e base
  apply (div_reaches precise circle.isFinite rfl (by rw [value_ofInt]; norm_num)).andThen
  intro halfPi half
  apply (mul_reaches precise rfl circle.isFinite).andThen
  intro twoPi double
  refine .ok ⟨by linarith, ?_⟩
  rw [value_ofInt] at double
  have twofold := working.multiple_near (n := 2) double near (by
    rw [abs_of_pos Real.pi_pos]
    push_cast
    linarith [Real.pi_lt_d2])
  push_cast at twofold
  linarith

theorem atanReduced_fortySix : (wideRange 46).atanReduced one =
    .ok (finite false 7853981633974483096156608458198757210492923500 (-46)) :=
  eq_ok_of_toOption (by decide +kernel)

theorem fortyDigits_near : |(fortyDigits.pi.value : ℝ) - Real.pi| ≤ 2 * 10 ^ (-40 : ℤ) := by
  have working : (wideRange 46).Working := wideRange_working (by decide) (by decide)
  have angle := (working.atanReduced_reaches.yields _ atanReduced_fortySix).2
  have grain : ((wideRange 46).grain : ℝ) = 10 ^ (-46 : ℤ) := by
    rw [Context.grain]
    push_cast
    rfl
  have kept : fortyDigits.pi.value = 3141592653589793238462643383279502884197 * 10 ^ (-39 : ℤ) := by
    rw [fortyDigits, value_finite]
    rfl
  rw [grain, value_finite] at angle
  rw [kept]
  have bounds := abs_le.mp angle
  rw [abs_le]
  norm_num [signed] at bounds ⊢
  constructor <;> linarith

theorem fortyDigits_circular {precision : Nat} (few : precision ≤ 40) : fortyDigits.Circular precision := by
  have coarse : (10 : ℝ) ^ (-40 : ℤ) ≤ 10 ^ (-(precision : ℤ)) := zpow_le_zpow_right₀ (by norm_num) (by omega)
  have unit : (0 : ℝ) < 10 ^ (-40 : ℤ) := by positivity
  have near := fortyDigits_near
  have double : fortyDigits.twoPi.value = 2 * fortyDigits.pi.value := by
    rw [fortyDigits, value_finite, value_finite]
    norm_num [signed]
  refine ⟨by linarith, ?_⟩
  have twofold : |2 * (fortyDigits.pi.value : ℝ) - 2 * Real.pi| = 2 * |(fortyDigits.pi.value : ℝ) - Real.pi| := by
    rw [← mul_sub, abs_mul, abs_of_pos (by norm_num : (0 : ℝ) < 2)]
  rw [double, Rat.cast_mul, Rat.cast_ofNat, twofold]
  linarith

theorem ofPrecision_reaches {precision : Nat} (least : 6 ≤ precision) (most : precision ≤ 105) :
    Reaches (Circular precision) (ofPrecision precision) :=
  .ite (fun few => .ok (fortyDigits_circular few)) fun _ => derive_reaches least most

end Constants

end Reckoner.Decimal

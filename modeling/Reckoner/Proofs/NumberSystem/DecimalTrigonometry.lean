import Reckoner.Proofs.Decimal.Degrees
import Reckoner.Proofs.NumberSystem.DecimalRange

/-! The sine, the cosine and the tangent of decimals in degrees: sines and cosines stay between minus one and
one, where their inverses are defined, and the cosine is zero where it should be as long as a quarter turn can
be taken off an angle without loss. -/

namespace Reckoner.Decimal.Context

open Reckoner.NumberSystem.Decimals

/-! ### Work with guard digits -/

/-- Whether a context has the digits that constants are computed for, and room for what is small. -/
structure Guarded (c : Context) : Prop where
  positive : 0 < c.precision
  most : c.precision ≤ 100
  deep : c.least < 0
  refuses : c.refusesSubnormal = true

/-- Whether a quarter turn less than an angle of these digits is rounded to a multiple of 180, though the angle
is too large to keep a quarter turn apart. -/
def QuarterLost (c : Context) (q : ℚ) : Prop :=
  10 ^ (c.precision + 6) ≤ |q| ∧ ∃ j : ℤ, (c.widen guardDigits).round (q - 90) = .ok (180 * j)

theorem guarded_of_context? {precision range : Int} {c : Context} (given : context? precision range = some c)
    (wide : 0 < range) : c.Guarded := by
  have bounds : precision ≤ maxPrecision := by
    unfold context? at given
    split at given
    · rename_i bounds
      exact bounds.2.1
    · cases given
  obtain ⟨positive, rfl⟩ := context?_eq_some given
  refine ⟨?_, ?_, ?_, rfl⟩
  · show 0 < precision.toNat
    omega
  · show precision.toNat ≤ 100
    have most : (maxPrecision : Int) = 100 := rfl
    omega
  · show -range < 0
    omega

theorem liftM_eq_ok {β : Type} {result : Except Signal β} {x : β} :
    (liftM result : Computed β) = .ok x ↔ result = .ok x := by
  cases result with
  | ok y =>
    constructor <;> intro same
    · exact congrArg Except.ok (Except.ok.inj same)
    · exact congrArg Except.ok (Except.ok.inj same)
  | error signal => exact ⟨nofun, nofun⟩

theorem lift_isSignal {β : Type} (result : Except Signal β) :
    Fails (fun failure => ∀ domain, failure ≠ .outside domain) (liftM result : Computed β) := by
  have any : Fails (fun _ => True) result := fun _ _ => trivial
  exact any.mapError fun _ _ => nofun

theorem lift_fails {β : Type} {result : Except Signal β} (fails : Fails (· ≠ .divisionByZero) result) :
    Fails (· ≠ .signal .divisionByZero) (liftM result : Computed β) :=
  fails.mapError fun _ other same => other (Failure.signal.inj same)

namespace Guarded

variable {c : Context} (guarded : c.Guarded)
include guarded

theorem working : (c.widen guardDigits).Working := by
  have positive := guarded.positive
  have most := guarded.most
  refine ⟨?_, ?_, guarded.deep⟩
  · show 6 ≤ c.precision + 5
    omega
  · show c.precision + 5 ≤ 110
    omega

theorem constants_reaches :
    Reaches (c.widen guardDigits).Suits (Constants.ofPrecision (c.widen guardDigits).precision) := by
  have most := guarded.most
  have circular := Constants.ofPrecision_reaches guarded.working.least (show c.precision + 5 ≤ 105 by omega)
  exact ⟨fun k found => ⟨Constants.ofPrecision_allFinite _ k found, circular.yields k found⟩, circular.fails⟩

theorem yields {holds : Decimal → Prop} {kept : Decimal → Prop} {compute : Context → Constants → Computed Decimal}
    (works : ∀ k, (c.widen guardDigits).Suits k → Yields kept (compute (c.widen guardDigits) k))
    (finish : ∀ z, kept z → Yields holds (c.plus z)) : Yields holds (c.guarded compute) := by
  refine (lift_yields guarded.constants_reaches.yields).andThen ?_
  intro k suits
  exact (works k suits).andThen fun z held => lift_yields (finish z held)

theorem fails {compute : Context → Constants → Computed Decimal}
    (works : ∀ k, (c.widen guardDigits).Suits k → Yields (·.isFinite = true) (compute (c.widen guardDigits) k) ∧
      Fails (· ≠ .signal .divisionByZero) (compute (c.widen guardDigits) k)) :
    Fails (· ≠ .signal .divisionByZero) (c.guarded compute) := by
  have constants := guarded.constants_reaches
  refine .bind (lift_fails constants.fails) ?_
  intro k found
  have suits := lift_yields constants.yields k found
  obtain ⟨yields, fails⟩ := works k suits
  exact .bind fails fun z found => lift_fails (plus_reaches guarded.positive (yields z found)).fails

/-- A number that passes one by less than half of a last digit is rounded to one at most. -/
theorem plus_yields {z : Decimal} (given : z.isFinite = true) (small : |z.value| ≤ 1 + c.grain) :
    Yields (fun v => v.isFinite = true ∧ |v.value| ≤ 1) (c.plus z) := by
  have positive := guarded.positive
  have deep := guarded.deep
  intro v found
  obtain ⟨sound, rounded⟩ := (plus_reaches positive given).yields v found
  refine ⟨sound, ?_⟩
  rcases le_or_gt |z.value| 1 with within | beyond
  · have least := abs_round_le positive (k := 0) (by rw [tiniest]; omega) (by rwa [zpow_zero]) rounded
    rwa [zpow_zero] at least
  have room := c.grain_pos
  have fine : c.grain ≤ 1 / 10 := (grain_le_of_le positive).trans_eq (by norm_num)
  have first : Int.log 10 |z.value| = 0 := by
    refine log_eq ?_ ?_
    · rw [zpow_zero]
      exact beyond.le
    · norm_num
      linarith
  have last : c.lastPlace z.value = 1 - c.precision := by
    rw [lastPlace, first, if_neg (by omega)]
    ring
  have most := abs_roundAt_le_of_near (q := z.value) (k := 0) (show 1 - (c.precision : ℤ) ≤ 0 by omega) (by
    rw [pow_sub_precision, zpow_one, zpow_zero]
    linarith)
  rwa [← last, ← eq_roundAt_of_round rounded, zpow_zero] at most

/-! ### Sines and cosines between minus one and one -/

omit guarded in
theorem widen_grain : ((c.widen guardDigits).grain : ℝ) = c.grain / 10 ^ 5 := by
  exact_mod_cast congrArg (Rat.cast (K := ℝ)) (grain_widen c guardDigits)

omit guarded in
/-- What is near a number between minus one and one passes them by little. -/
theorem abs_le_of_near {v : ℚ} {exact : ℝ} (near : |(v : ℝ) - exact| ≤ 70000 * (c.widen guardDigits).grain)
    (bounded : |exact| ≤ 1) : |v| ≤ 1 + c.grain := by
  have room : (0 : ℝ) < c.grain := Rat.cast_pos.mpr c.grain_pos
  have size : |(v : ℝ)| ≤ ((1 + c.grain : ℚ) : ℝ) := by
    rw [widen_grain] at near
    have apart := abs_sub_abs_le_abs_sub (v : ℝ) exact
    push_cast
    linarith
  exact_mod_cast size

variable {x : Decimal} (given : x.isFinite = true)
include given

theorem sin_le_one : Yields (fun v => v.isFinite = true ∧ |v.value| ≤ 1) (c.sin true x) := by
  have room := c.grain_pos
  refine guarded.yields (fun k suits => lift_yields
    (sinWork_reaches guarded.working guarded.refuses suits given).yields) ?_
  rintro z ⟨sound, near⟩
  refine guarded.plus_yields sound ?_
  rcases near with ⟨_, zero⟩ | ⟨_, near⟩
  · rw [zero, abs_zero]
    linarith
  · exact abs_le_of_near near (Real.abs_sin_le_one _)

theorem cos_le_one : Yields (fun v => v.isFinite = true ∧ |v.value| ≤ 1) (c.cos true x) := by
  have room := c.grain_pos
  refine guarded.yields (fun k suits => lift_yields
    (cosWork_reaches guarded.working guarded.refuses suits given).yields) ?_
  rintro z ⟨sound, shifted, _, near⟩
  refine guarded.plus_yields sound ?_
  rcases near with ⟨_, zero⟩ | ⟨_, near⟩
  · rw [zero, abs_zero]
    linarith
  · exact abs_le_of_near near (Real.abs_cos_le_one _)

theorem asinWork_fails (k : Constants) (small : |x.value| ≤ 1) :
    Fails (fun failure => ∀ domain, failure ≠ .outside domain) ((c.widen guardDigits).asinWork k x) := by
  have working := guarded.working
  have deep := working.deep
  refine .bind (lift_isSignal _) ?_
  intro size measured
  refine .bind (lift_isSignal _) ?_
  intro outside compared
  have rounding := (abs_reaches working.precise given).yields size (liftM_eq_ok.mp measured)
  have within : size.value ≤ 1 := by
    have least := abs_round_le working.precise (k := 0) (by rw [tiniest]; omega)
      (by rwa [abs_abs, zpow_zero]) rounding.rounded
    rw [zpow_zero] at least
    exact (le_abs_self _).trans least
  have inside : outside = false := by
    have known := liftM_eq_ok.mp compared
    rw [isLess_eq rfl rounding.isFinite, value_one] at known
    rw [← Except.ok.inj known, decide_eq_false_iff_not]
    exact not_lt.mpr within
  rw [inside]
  refine .bind (lift_isSignal _) ?_
  intro size _
  refine .bind (lift_isSignal _) ?_
  intro edge _
  refine .ite (.ok _) ?_
  refine .bind (lift_isSignal _) ?_
  intro square _
  refine .bind (lift_isSignal _) ?_
  intro rest _
  refine .bind (lift_isSignal _) ?_
  intro root _
  refine .bind (lift_isSignal _) ?_
  intro ratio _
  exact lift_isSignal _

theorem asin_fails (small : |x.value| ≤ 1) (inDegrees : Bool) :
    Fails (fun failure => ∀ domain, failure ≠ .outside domain) (c.asin inDegrees x) := by
  refine .bind (lift_isSignal _) ?_
  intro k _
  refine .bind (.bind (guarded.asinWork_fails given k small) fun _ _ => lift_isSignal _) ?_
  intro _ _
  exact lift_isSignal _

theorem acos_fails (small : |x.value| ≤ 1) (inDegrees : Bool) :
    Fails (fun failure => ∀ domain, failure ≠ .outside domain) (c.acos inDegrees x) := by
  refine .bind (lift_isSignal _) ?_
  intro k _
  refine .bind (.bind (guarded.asinWork_fails given k small)
    fun _ _ => .bind (lift_isSignal _) fun _ _ => lift_isSignal _) ?_
  intro _ _
  exact lift_isSignal _

/-! ### Zeros of the cosine -/

variable {k : Constants} (suits : (c.widen guardDigits).Suits k) (short : Short c.precision x.value)
include suits short

/-- Of an angle of few digits, the cosine is found to be zero where it is or where a quarter turn is lost. -/
theorem cosWork_eq_zero_iff :
    Reaches (fun z => z.isFinite = true ∧ (z.value = 0 ↔ OddRightAngle x.value ∨ c.QuarterLost x.value))
      ((c.widen guardDigits).cosWork k true x) := by
  have working := guarded.working
  apply (cosWork_reaches working guarded.refuses suits given).mono
  rintro z ⟨sound, shifted, rounded, found⟩
  refine ⟨sound, ?_⟩
  have known : (∃ j : ℤ, shifted = 180 * j) ↔ OddRightAngle x.value ∨ c.QuarterLost x.value := by
    constructor
    · rintro ⟨j, rfl⟩
      rcases lt_or_ge |x.value| (10 ^ (c.precision + 6)) with small | large
      · exact .inl (short.oddRightAngle_of_shifted_eq working rfl rounded guarded.positive small rfl)
      · exact .inr ⟨large, j, rounded⟩
    · rintro (odd | ⟨_, j, lost⟩)
      · exact short.shifted_eq_of_oddRightAngle working rfl rounded odd
      · exact ⟨j, Except.ok.inj (rounded.symm.trans lost)⟩
  rcases found with ⟨multiple, zero⟩ | ⟨other, near⟩
  · exact ⟨fun _ => known.mp multiple, fun _ => zero⟩
  refine ⟨?_, fun multiple => absurd (known.mpr multiple) other⟩
  -- The cosine of any other angle is too large to be found to be zero.
  intro zero
  have apart : ¬ OddRightAngle x.value := fun odd => other (known.mpr (.inl odd))
  have large := short.le_abs_cos guarded.positive apart
  have room : (0 : ℝ) < c.grain := Rat.cast_pos.mpr c.grain_pos
  have unit : (10 : ℝ) ^ (2 - (c.precision : ℤ)) = 100 * c.grain := by
    have place := congrArg (Rat.cast (K := ℝ)) (c.pow_sub_precision 2)
    push_cast at place
    exact place.trans (by norm_num)
  rw [zero, Rat.cast_zero, zero_sub, abs_neg, widen_grain] at near
  rw [unit] at large
  linarith

omit suits in
theorem cos_isZero_iff :
    Yields (fun v => v.isZero = true ↔ OddRightAngle x.value ∨ c.QuarterLost x.value) (c.cos true x) := by
  refine guarded.yields (fun k suits => lift_yields (guarded.cosWork_eq_zero_iff given suits short).yields) ?_
  rintro z ⟨sound, zero⟩ v found
  obtain ⟨sound, rounded⟩ := (plus_reaches guarded.positive sound).yields v found
  rw [← zero, ← round_eq_zero_iff guarded.positive guarded.refuses rounded]
  exact isZero_iff sound

omit suits in
/-- The tangent divides by zero only where the cosine is found to be zero. -/
theorem tan_fails (other : ¬ (OddRightAngle x.value ∨ c.QuarterLost x.value)) :
    Fails (· ≠ .signal .divisionByZero) (c.tan true x) := by
  refine guarded.fails ?_
  intro k suits
  have sine := sinWork_reaches guarded.working guarded.refuses suits given
  have cosine := guarded.cosWork_eq_zero_iff given suits short
  have quotient {s z : Decimal} (first : s.isFinite = true) (second : z.isFinite = true ∧
      (z.value = 0 ↔ OddRightAngle x.value ∨ c.QuarterLost x.value)) :=
    div_reaches guarded.working.precise first second.1 fun zero => other (second.2.mp zero)
  constructor
  · refine (lift_yields sine.yields).andThen ?_
    intro s first
    refine (lift_yields cosine.yields).andThen ?_
    intro z second
    exact lift_yields fun v found => ((quotient first.1 second).yields v found).isFinite
  · refine .bind (lift_fails sine.fails) ?_
    intro s found
    refine .bind (lift_fails cosine.fails) ?_
    intro z known
    exact lift_fails (quotient (lift_yields sine.yields s found).1 (lift_yields cosine.yields z known)).fails

end Guarded

end Reckoner.Decimal.Context

namespace Reckoner.NumberSystem.Decimals

open Reckoner.Decimal

/-- Sines and cosines of angles in degrees are numbers between minus one and one, and so their inverse sines and
cosines are defined. -/
theorem sine_cosine_in_domain {precision range : Int} {c : Decimal.Context}
    (given : context? precision range = some c) (wide : 0 < range) {x v : Decimal} (finite : x.isFinite = true)
    (computed : c.sin true x = .ok v ∨ c.cos true x = .ok v) :
    (∃ q, v.rational? = some q ∧ -1 ≤ q ∧ q ≤ 1) ∧
      ∀ inDegrees domain, c.asin inDegrees v ≠ .error (.outside domain) ∧
        c.acos inDegrees v ≠ .error (.outside domain) := by
  have guarded := Context.guarded_of_context? given wide
  obtain ⟨sound, small⟩ : v.isFinite = true ∧ |v.value| ≤ 1 := by
    rcases computed with sine | cosine
    · exact guarded.sin_le_one finite v sine
    · exact guarded.cos_le_one finite v cosine
  refine ⟨?_, fun inDegrees domain => ⟨?_, ?_⟩⟩
  · obtain ⟨s, m, e, rfl⟩ := isFinite_iff.mp sound
    obtain ⟨low, high⟩ := abs_le.mp small
    exact ⟨_, rfl, low, high⟩
  · intro failed
    exact guarded.asin_fails sound small inDegrees _ failed domain rfl
  · intro failed
    exact guarded.acos_fails sound small inDegrees _ failed domain rfl

/-- At six digits the sine of 30 degrees. -/
theorem sine_cosine_in_domain_sample : context? 6 defaultRange = some ⟨6, -999999, 999999, true⟩ ∧
    0 < defaultRange ∧ (Decimal.ofInt 30).isFinite = true ∧
    ∃ v, Decimal.Context.sin ⟨6, -999999, 999999, true⟩ true (.ofInt 30) = .ok v ∧
      ∃ q, v.rational? = some q ∧ -1 ≤ q ∧ q ≤ 1 := by
  have given : context? 6 defaultRange = some ⟨6, -999999, 999999, true⟩ := rfl
  have computed : Decimal.Context.sin ⟨6, -999999, 999999, true⟩ true (.ofInt 30) = .ok (.finite false 500000 (-6)) :=
    eq_ok_of_toOption (by with_unfolding_all decide)
  exact ⟨given, by decide, rfl, _, computed, (sine_cosine_in_domain given (by decide) rfl (.inl computed)).1⟩

/-- Of an angle of at most as many digits as the precision, the cosine in degrees is zero exactly for the odd
multiples of 90, but for angles that are too large to keep a quarter turn apart: there it is zero exactly if a
quarter turn less is rounded to a multiple of 180. The tangent divides by zero for such angles only. -/
theorem cosine_vanishes {precision range : Int} {c : Decimal.Context} (given : context? precision range = some c)
    (wide : 0 < range) {coefficient : Nat} (significant : Significant c.precision coefficient) (negative : Bool)
    (exponent : Int) :
    (∀ v, c.cos true (.finite negative coefficient exponent) = .ok v →
      (v.isZero = true ↔ OddRightAngle (Decimal.finite negative coefficient exponent).value ∨
        c.QuarterLost (Decimal.finite negative coefficient exponent).value)) ∧
      (c.tan true (.finite negative coefficient exponent) = .error (.signal .divisionByZero) →
        OddRightAngle (Decimal.finite negative coefficient exponent).value ∨
          c.QuarterLost (Decimal.finite negative coefficient exponent).value) := by
  have guarded := Context.guarded_of_context? given wide
  have short := short_of_significant guarded.positive significant negative exponent
  refine ⟨guarded.cos_isZero_iff rfl short, ?_⟩
  intro failed
  by_contra other
  exact guarded.tan_fails rfl short other _ failed rfl

/-- At six digits the cosine of 60 degrees. -/
theorem cosine_vanishes_sample : context? 6 defaultRange = some ⟨6, -999999, 999999, true⟩ ∧ 0 < defaultRange ∧
    Significant 6 60 ∧ ∃ v, Decimal.Context.cos ⟨6, -999999, 999999, true⟩ true (.finite false 60 0) = .ok v ∧
      v.isZero = false ∧ ¬ OddRightAngle (Decimal.finite false 60 0).value := by
  have given : context? 6 defaultRange = some ⟨6, -999999, 999999, true⟩ := rfl
  have significant : Significant 6 60 := ⟨60, 0, rfl, (Numeral.digitCount_le_iff (by decide)).mpr (by decide)⟩
  have computed : Decimal.Context.cos ⟨6, -999999, 999999, true⟩ true (.finite false 60 0) =
      .ok (.finite false 500000 (-6)) := eq_ok_of_toOption (by decide +kernel)
  have vanishes := (cosine_vanishes given (by decide) significant false 0).1 _ computed
  exact ⟨given, by decide, significant, _, computed, rfl, fun odd => absurd (vanishes.mpr (.inl odd)) (by decide)⟩

/-- At 28 digits the cosine of `1E+35` degrees is found to be zero, which is no odd multiple of 90: the angle has
eight digits more than the work, and a quarter turn less is rounded to another multiple of 180. -/
theorem cosine_of_lost_quarter : context? 28 defaultRange = some ⟨28, -999999, 999999, true⟩ ∧
    Significant 28 1 ∧ ¬ OddRightAngle (Decimal.finite false 1 35).value ∧
    Decimal.Context.cos ⟨28, -999999, 999999, true⟩ true (.finite false 1 35) = .ok .zero := by
  refine ⟨rfl, ⟨1, 0, rfl, (Numeral.digitCount_le_iff (by decide)).mpr (by decide)⟩, ?_,
    eq_ok_of_toOption (by with_unfolding_all decide)⟩
  rintro ⟨j, same⟩
  rw [Context.value_finite] at same
  norm_num [Context.signed] at same
  have whole : 100000000000000000000000000000000000 = 90 * (2 * j + 1) := by exact_mod_cast same
  omega

end Reckoner.NumberSystem.Decimals

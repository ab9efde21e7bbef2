import Reckoner.Proofs.Decimal.Derivation
import Reckoner.Proofs.Decimal.Elementary
import Reckoner.Proofs.Decimal.Mirror

/-! Odd functions of decimals. Sines are odd as their series and the reduction of the angle are; the inverse functions
and roots work with the magnitude and turn the sign at the end. What would set the sides of zero apart is a negated
constant, which is rounded where the constant itself is not. -/

namespace Reckoner.Decimal.Context

/-! ### Opposite decimals -/

section
variable {x : Decimal} (given : x.isFinite = true)
include given

theorem abs_opposite (c : Context) : c.abs x.opposite = c.abs x := by
  obtain ⟨s, m, e, rfl⟩ := isFinite_iff.mp given
  cases s <;> simp [opposite, withSign, isNegative, Context.abs, neg, plus]

theorem mul_self_opposite (c : Context) : c.mul x.opposite x.opposite = c.mul x x := by
  obtain ⟨s, m, e, rfl⟩ := isFinite_iff.mp given
  simp [opposite, withSign, isNegative, mul]

theorem mirror_copySign {z : Decimal} (finite : z.isFinite = true) :
    Mirror (-1) (z.copySign x) (z.copySign x.opposite) := by
  obtain ⟨s, m, e, rfl⟩ := isFinite_iff.mp given
  obtain ⟨t, n, f, rfl⟩ := isFinite_iff.mp finite
  refine ⟨rfl, rfl, ?_⟩
  simp only [copySign, opposite, withSign, isNegative, value_finite]
  cases s <;> simp [signed]

end

theorem finishFinite_opposite (c : Context) (negative : Bool) (coefficient : Nat) (exponent : Int) :
    c.finishFinite (!negative) coefficient exponent = (c.finishFinite negative coefficient exponent).map opposite := by
  unfold finishFinite
  dsimp only
  split
  · rfl
  split
  · rfl
  split
  · split
    · rfl
    · split <;> rfl
  split
  · rfl
  split
  · rfl
  · split <;> rfl

theorem quotientFinite_opposite (c : Context) (negative : Bool) (m n : Nat) (exponent : Int) :
    c.quotientFinite (!negative) m n exponent = (c.quotientFinite negative m n exponent).map opposite := by
  unfold quotientFinite
  dsimp only
  split <;> exact c.finishFinite_opposite _ _ _

theorem div_opposite (c : Context) {x y : Decimal} (first : x.isFinite = true) (second : y.isFinite = true) :
    c.div x.opposite y = (c.div x y).map opposite := by
  obtain ⟨s, m, e, rfl⟩ := isFinite_iff.mp first
  obtain ⟨t, n, f, rfl⟩ := isFinite_iff.mp second
  have sign : ((!s) != t) = !(s != t) := by cases s <;> cases t <;> rfl
  simp only [opposite, withSign, isNegative, div, sign]
  split
  · split <;> rfl
  split
  · exact c.finishFinite_opposite _ _ _
  · exact c.quotientFinite_opposite _ _ _ _

/-! ### Numbers that are kept -/

variable {c : Context} {k : Constants}

namespace Admits

variable {z : Decimal} (admitted : c.Admits z) (precise : 0 < c.precision)
include admitted precise

theorem isRounding : c.IsRounding z.value z := by
  obtain ⟨normal, below⟩ := admitted.bounds
  obtain ⟨r, fits⟩ := normal.fits_of_short precise admitted.short below
  refine ⟨admitted.isFinite, ?_⟩
  rw [fits, eq_roundAt_of_round fits, normal.roundAt_eq admitted.short]

theorem gives : c.Gives z.value (.ok z) :=
  ⟨.ok admitted.isFinite, (admitted.isRounding precise).rounded.symm⟩

theorem matched_neg : Matched (Mirror (-1)) (.ok z) (c.neg z) :=
  (admitted.gives precise).matched (neg_gives precise admitted.isFinite) (by simp)

theorem neg_matched : Matched (Mirror (-1)) (c.neg z) (.ok z) :=
  (neg_gives precise admitted.isFinite).matched (admitted.gives precise) (by simp)

end Admits

/-! ### Inverse functions and roots -/

theorem isLess_opposite {x : Decimal} (given : x.isFinite = true) (nonzero : x.value ≠ 0) :
    Matched (fun below below' => below' = !below) (isLess x zero) (isLess x.opposite zero) := by
  have mirror := mirror_opposite given
  rw [isLess_eq given rfl, isLess_eq mirror.second rfl, value_zero]
  have turned : x.opposite.value < 0 ↔ 0 < x.value := by rw [mirror.value_neg, neg_lt_zero]
  refine .value ?_
  rcases lt_or_gt_of_ne nonzero with below | above
  · rw [decide_eq_true below, decide_eq_false (mt turned.mp (lt_asymm below))]
    rfl
  · rw [decide_eq_false (lt_asymm above), decide_eq_true (turned.mpr above)]
    rfl

theorem isEqual_opposite {x : Decimal} (given : x.isFinite = true) : isEqual x.opposite zero = isEqual x zero := by
  have mirror := mirror_opposite given
  rw [isEqual_eq given rfl, isEqual_eq mirror.second rfl, value_zero]
  exact congrArg Except.ok (decide_eq_decide.mpr mirror.zero_iff)

section
variable (precise : 0 < c.precision) (refuses : c.refusesSubnormal = true) (least : c.least ≤ 0)
    (greatest : 0 ≤ c.greatest)
  (constants : k.AllFinite) {x : Decimal} (given : x.isFinite = true)
include precise refuses least greatest constants given

/-- The inverse tangent is found for the magnitude, and the sign is turned where nothing is left to round. -/
theorem atanWork_matched : Matched (Mirror (-1)) (c.atanWork k x) (c.atanWork k x.opposite) := by
  have rounds := rounds_isFinite c
  have keeps := rounds_admits refuses precise least greatest
  unfold atanWork
  rw [isEqual_opposite given, abs_opposite given c]
  refine .bind ?_
  intro isZero found
  refine .ite (fun _ => .value ⟨rfl, rfl, by simp [value_zero]⟩) ?_
  intro other
  have nonzero : x.value ≠ 0 := by
    rw [isEqual_eq given rfl, value_zero] at found
    cases found
    simpa using other
  refine (isLess_opposite given nonzero).andThen ?_
  intro negative negative' turned
  refine .ofYields (rounds.abs given) ?_
  intro size sized
  refine .bind ?_
  intro inverted _
  refine .iteThen (rounds.div rfl sized) (.ok sized) ?_
  intro reduced finite
  have atanReduced : Yields c.Admits (c.atanReduced reduced) := by
    refine (c.halveAngle_isFinite _ _ finite).andThen ?_
    intro halved finite
    refine (c.atanSeries_isFinite finite).andThen ?_
    intro sum summed
    exact keeps.mul summed rfl
  refine .ofYields atanReduced ?_
  intro angle kept
  refine .iteThen (keeps.sub constants.halfPi kept.isFinite) (.ok kept) ?_
  intro angle kept
  rw [turned]
  cases negative with
  | false => exact kept.matched_neg precise
  | true => exact kept.neg_matched precise

theorem asinWork_matched : Matched (Mirror (-1)) (c.asinWork k x) (c.asinWork k x.opposite) := by
  have rounds := rounds_isFinite c
  unfold asinWork
  rw [abs_opposite given c, mul_self_opposite given c]
  refine .bind ?_
  intro size _
  refine .bind ?_
  intro outside _
  refine .ite (fun _ => .failure _) ?_
  intro _
  refine .bind ?_
  intro size _
  refine .bind ?_
  intro isOne _
  refine .ite (fun _ => .value (mirror_copySign given constants.halfPi)) ?_
  intro _
  refine .ofYields (lift_yields (rounds.mul given given)) ?_
  intro square squared
  refine .ofYields (lift_yields (rounds.sub rfl squared)) ?_
  intro rest kept
  refine .ofYields (lift_yields (rounds.sqrt kept)) ?_
  intro root rooted
  rw [c.div_opposite given rooted]
  cases divided : c.div x root with
  | error signal => exact .failure _
  | ok tangent =>
    have finite := rounds.div given rooted tangent divided
    exact (atanWork_matched precise refuses least greatest constants finite).lift

omit refuses least greatest constants precise in
theorem cubeRootWork_matched : Matched (Mirror (-1)) (c.cubeRootWork x) (c.cubeRootWork x.opposite) := by
  have rounds := rounds_isFinite c
  unfold cubeRootWork
  rw [isEqual_opposite given, abs_opposite given c]
  refine .bind ?_
  intro isZero _
  refine .ite (fun _ => .value ⟨rfl, rfl, by simp [value_zero]⟩) ?_
  intro _
  refine .ofYields (rounds.abs given) ?_
  intro size sized
  refine .ofYields (rounds.power rfl rfl fun zero => absurd zero (by decide)) ?_
  intro start started
  refine .bind ?_
  intro epsilon _
  refine .ofYields (cubeRootSteps_isFinite epsilon sized _ started) ?_
  intro root rooted
  exact .value (mirror_copySign given rooted)

end

/-! ### Sines -/

/-- Whether what is left of an angle after full turns is what `π` is rounded up to, or its opposite. The constant is
less than that and the negated constant is not, so the angle is turned once more on one side of zero only. -/
def AtHalfTurn (c : Context) (k : Constants) (x : Decimal) : Prop :=
  ∃ r, c.rem x k.twoPi = .ok r ∧ k.pi.value < |r.value| ∧ c.round k.pi.value = .ok |r.value|

theorem Suits.round_pi_near (suits : c.Suits k) (working : c.Working) {turn : ℚ}
    (rounded : c.round k.pi.value = .ok turn) :
    |turn - k.pi.value| ≤ 5 * c.grain := by
  have deep := working.deep
  obtain ⟨low, high⟩ := suits.pi_bounds working
  have near := round_near (k := 1) (by rw [tiniest]; omega) (by rw [abs_of_pos] <;> norm_num <;> linarith) rounded
  rw [pow_sub_precision, zpow_one] at near
  linarith

/-- What is rounded passes `π` as it passes the rounding of `π`, but for that rounding. -/
theorem Suits.pi_lt_iff (suits : c.Suits k) (working : c.Working) {r : Decimal}
    (admitted : c.Admits r) {turn : ℚ} (rounded : c.round k.pi.value = .ok turn)
    (apart : ¬ (k.pi.value < |r.value| ∧ turn = |r.value|)) : k.pi.value < |r.value| ↔ turn < |r.value| := by
  have fine := working.fine
  have deep := working.deep
  obtain ⟨low, high⟩ := suits.pi_bounds working
  have near := suits.round_pi_near working rounded
  obtain ⟨least, most⟩ := abs_le.mp near
  by_contra differ
  have between : 3 ≤ |r.value| ∧ |r.value| ≤ 4 := by
    rcases lt_or_ge k.pi.value |r.value| with above | below
    · have under : |r.value| ≤ turn := not_lt.mp fun beyond => differ (iff_of_true above beyond)
      exact ⟨by linarith, by linarith⟩
    · have beyond : turn < |r.value| := not_le.mp fun under =>
        differ (iff_of_false (not_lt.mpr below) (not_lt.mpr under))
      exact ⟨by linarith, by linarith⟩
  -- Both are rounded at the place of the last digit of `π`.
  have place {q : ℚ} (bounds : 3 ≤ |q| ∧ |q| ≤ 4) : c.lastPlace q = 1 - c.precision := by
    have first : Int.log 10 |q| = 0 := log_eq (by rw [zpow_zero]; linarith) (by norm_num; linarith)
    rw [lastPlace, first, if_neg (not_lt.mpr deep.le)]
    ring
  have multiple : MultipleOf (1 - (c.precision : ℤ)) |r.value| := by
    have whole : MultipleOf (1 - (c.precision : ℤ)) r.value := by
      rw [eq_roundAt_of_round (admitted.isRounding working.precise).rounded, place between]
      exact multipleOf_roundAt _ _
    rcases abs_choice r.value with same | turned
    · rwa [same]
    · rw [turned]
      exact whole.neg
  obtain ⟨n, exactly⟩ := multiple
  have found : turn = roundAt (1 - (c.precision : ℤ)) k.pi.value := by
    rw [eq_roundAt_of_round rounded, place (by rw [abs_of_pos (by linarith)]; constructor <;> linarith)]
  rcases lt_or_ge k.pi.value |r.value| with above | below
  · have under : |r.value| ≤ turn := not_lt.mp fun beyond => differ (iff_of_true above beyond)
    refine apart ⟨above, le_antisymm ?_ under⟩
    rw [found, exactly]
    exact roundAt_le (exactly ▸ above.le)
  · refine differ (iff_of_false (not_lt.mpr below) (not_lt.mpr ?_))
    rw [found, exactly]
    exact le_roundAt (exactly ▸ below)

section
variable (roomy : c.Roomy) (refuses : c.refusesSubnormal = true) (suits : c.Suits k) {x x' : Decimal}
include roomy refuses suits

omit refuses in
theorem neg_pi_settles : Settles (fun z => z.isFinite = true ∧ ∃ turn, c.round k.pi.value = .ok turn ∧ z.value = -turn)
    (c.neg k.pi) := by
  obtain ⟨low, high⟩ := suits.pi_bounds roomy.toWorking
  have fine := roomy.fine
  have spans : c.Spans (-k.pi.value) := by
    refine roomy.spans_of_grain ?_ ?_ <;> rw [abs_neg, abs_of_pos (by linarith)] <;> linarith
  apply ((neg_gives roomy.precise suits.finite.pi).settles_of_spans roomy.precise spans).mono
  intro z rounding
  refine ⟨rounding.isFinite, -z.value, ?_, by rw [neg_neg]⟩
  have turned := c.round_neg (-k.pi.value)
  rwa [neg_neg, rounding.rounded] at turned

omit roomy refuses in
/-- The last turn of a reduction, by the values of what is left of the angle and of zero less `π`. -/
theorem lastTurn_eq {r z : Decimal} (given : r.isFinite = true) (sound : z.isFinite = true)
    (negated : c.neg k.pi = .ok z) : (do
      if ← isLess k.pi r then c.sub r k.twoPi
      else if ← isLess r (← c.neg k.pi) then c.add r k.twoPi
      else return r : Except Signal Decimal) =
    if k.pi.value < r.value then c.sub r k.twoPi else if r.value < z.value then c.add r k.twoPi else .ok r := by
  rw [negated, isLess_eq suits.finite.pi given]
  by_cases above : k.pi.value < r.value
  · rw [decide_eq_true above, if_pos above]
    rfl
  · rw [decide_eq_false above, if_neg above]
    show (do if ← isLess r z then c.add r k.twoPi else return r : Except Signal Decimal) = _
    rw [isLess_eq given sound]
    by_cases below : r.value < z.value
    · rw [decide_eq_true below, if_pos below]
      rfl
    · rw [decide_eq_false below, if_neg below]
      rfl

theorem reduceAngle_matched (mirror : Mirror (-1) x x') (apart : ¬ c.AtHalfTurn k x) :
    Matched (Mirror (-1)) (c.reduceAngle k x) (c.reduceAngle k x') := by
  have precise := roomy.precise
  obtain ⟨low, high⟩ := suits.pi_bounds roomy.toWorking
  obtain ⟨least, _⟩ := suits.twoPi_bounds roomy.toWorking
  apply (rem_matched precise mirror suits.finite.twoPi (by linarith)).source.andThen
  rintro r r' ⟨left, rest⟩
  have below := roomy.below
  have above := roomy.above
  have admitted : c.Admits r := (rounds_admits refuses precise (by omega) (by omega)).rem mirror.first
    suits.finite.twoPi r left
  obtain ⟨z, negated, sound, turn, rounded, same⟩ := (neg_pi_settles roomy suits).exists_eq
  have balanced := suits.pi_lt_iff roomy.toWorking admitted rounded
    fun ⟨above, equal⟩ => apart ⟨r, left, above, equal ▸ rounded⟩
  have positive : 0 ≤ turn := round_nonneg (by linarith) rounded
  have value := rest.value_neg
  rw [lastTurn_eq suits rest.first sound negated, lastTurn_eq suits rest.second sound negated, same, value]
  rcases le_total 0 r.value with nonneg | nonpos
  · rw [abs_of_nonneg nonneg] at balanced
    have inside : ¬ r.value < -turn := by linarith
    have other : ¬ k.pi.value < -r.value := by linarith
    rw [if_neg inside, if_neg other]
    refine .iteOf (balanced.trans neg_lt_neg_iff.symm) ?_ ?_
    · intro beyond
      exact sub_matched_add precise rest suits.finite.twoPi rfl
    · intro within
      exact .value rest
  · rw [abs_of_nonpos nonpos] at balanced
    have inside : ¬ -r.value < -turn := by linarith
    have other : ¬ k.pi.value < r.value := by linarith
    rw [if_neg inside, if_neg other]
    refine .iteOf (lt_neg.trans balanced.symm) ?_ ?_
    · intro beyond
      exact add_matched_sub precise rest suits.finite.twoPi rfl
    · intro within
      exact .value rest

theorem sinReduced_matched (mirror : Mirror (-1) x x') (apart : ¬ c.AtHalfTurn k x) :
    Matched (Mirror (-1)) (c.sinReduced k x) (c.sinReduced k x') := by
  apply (reduceAngle_matched roomy refuses suits mirror apart).andThen
  intro _ _ reduced
  apply (sinSeries_matched roomy.precise reduced).andThen
  intro _ _ summed
  exact .value summed

end

theorem snap_matched (precise : 0 < c.precision) {sign : ℤˣ} {result result' angle angle' : Decimal}
    (found : Mirror sign result result') (given : Mirror sign angle angle') :
    Matched (Mirror sign) (c.snap result angle) (c.snap result' angle') := by
  refine .bind ?_
  intro epsilon made
  have small := ((scale_reaches precise rfl _).yields epsilon made).isFinite
  apply (abs_matched precise found).andThen
  intro size size' sized
  rw [isLess_mirror sized (.refl small)]
  refine .bind ?_
  intro below _
  refine .ite ?_ fun _ => .value found
  intro _
  apply (abs_matched precise given).andThen
  intro size size' sized
  rw [isAtMost_mirror (.refl small) sized]
  exact .bind fun counts _ => .ite (fun _ => .value ⟨rfl, rfl, by simp [value_zero]⟩) fun _ => .value found

/-! ### Work with guard digits -/

theorem guarded_matched (precise : 0 < c.precision) {sign : ℤˣ} {suits : Constants → Prop}
    {first second : Context → Constants → Computed Decimal}
    (constants : Yields suits (Constants.ofPrecision (c.widen guardDigits).precision))
    (works : ∀ k, suits k → Matched (Mirror sign) (first (c.widen guardDigits) k) (second (c.widen guardDigits) k)) :
    Matched (Mirror sign) (c.guarded first) (c.guarded second) := by
  refine .ofYields (lift_yields constants) ?_
  intro k held
  apply (works k held).andThen
  intro _ _ mirror
  exact (plus_matched precise mirror).lift

theorem inUnit_matched (precise : 0 < c.precision) (constants : k.AllFinite) (nonzero : k.pi.value ≠ 0)
    (inDegrees : Bool) {sign : ℤˣ} {x y : Decimal} (mirror : Mirror sign x y) :
    Matched (Mirror sign) (c.inUnit k inDegrees x) (c.inUnit k inDegrees y) := by
  refine .ite ?_ ?_
  · intro degrees
    apply (mul_matched precise mirror (.refl rfl)).andThen
    intro turned turned' multiplied
    exact div_matched precise multiplied constants.pi nonzero
  · intro radians
    exact .value mirror

end Reckoner.Decimal.Context

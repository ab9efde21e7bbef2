import Reckoner.Proofs.Decimal.Series

/-! Elementary functions of finite decimals. The work with guard digits stays finite, so its result is
rounded once more, to what the context has room for. -/

namespace Reckoner.Decimal.Context

variable {c : Context} {holds : Decimal → Prop} {k : Constants} {x y : Decimal}

/-! ### The work with guard digits -/

theorem isFinite_roundToWhole (mode : Rounding) (given : x.isFinite = true) :
    (x.roundToWhole mode).isFinite = true := by
  obtain ⟨s, m, e, rfl⟩ := isFinite_iff.mp given
  unfold roundToWhole
  dsimp only
  split <;> rfl

theorem isFinite_copySign (given : x.isFinite = true) (sign : Decimal) :
    (x.copySign sign).isFinite = true :=
  isFinite_withSign _ given

theorem expWork_isFinite (constants : k.AllFinite) (given : x.isFinite = true) :
    Yields (·.isFinite = true) (c.expWork k x) := by
  have rounds := rounds_isFinite c
  refine (lift_yields (rounds.div given constants.lnTwo)).andThen ?_
  intro quotient divided
  have twos := isFinite_roundToWhole .halfEven divided
  refine (lift_yields (rounds.mul twos constants.lnTwo)).andThen ?_
  intro whole kept
  refine (lift_yields (rounds.sub given kept)).andThen ?_
  intro rest small
  refine (lift_yields (c.expSeries_isFinite small)).andThen ?_
  intro sum summed
  refine (lift_yields (rounds.power rfl rfl fun zero => absurd zero (by decide))).andThen ?_
  exact fun power raised => lift_yields (rounds.mul summed raised)

theorem halveToRoot_isFinite (fuel count : Nat) (given : x.isFinite = true) :
    Yields (·.2.isFinite = true) (c.halveToRoot k fuel count x) := by
  induction fuel generalizing count x with
  | zero => exact .ok given
  | succ fuel ih =>
    unfold halveToRoot
    refine .bind ?_
    intro large _
    refine .ite ?_ (.ok given)
    refine ((rounds_isFinite c).div given rfl).andThen ?_
    intro half halved
    exact ih (count + 1) halved

theorem lnWork_isFinite (constants : k.AllFinite) (given : x.isFinite = true) :
    Yields (·.isFinite = true) (c.lnWork k x) := by
  have rounds := rounds_isFinite c
  refine .bind ?_
  intro outside _
  refine .ite (.throw _ _) ?_
  refine (lift_yields (rounds.scale given _)).andThen ?_
  intro scaled kept
  refine (lift_yields (halveToRoot_isFinite _ _ kept)).andThen ?_
  intro halved kept
  refine (lift_yields (rounds.sub kept rfl)).andThen ?_
  intro numerator above
  refine (lift_yields (rounds.add kept rfl)).andThen ?_
  intro denominator below
  refine (lift_yields (rounds.div above below)).andThen ?_
  intro ratio divided
  refine (lift_yields (c.atanhSeries_isFinite divided)).andThen ?_
  intro sum summed
  refine (lift_yields (rounds.mul rfl summed)).andThen ?_
  intro near doubled
  refine (lift_yields (rounds.mul rfl constants.lnTwo)).andThen ?_
  intro twos kept
  refine (lift_yields (rounds.add doubled kept)).andThen ?_
  intro sum summed
  refine (lift_yields (rounds.mul rfl constants.lnTen)).andThen ?_
  intro tens kept
  exact lift_yields (rounds.add summed kept)

theorem radians_isFinite (constants : k.AllFinite) (given : x.isFinite = true) :
    Yields (·.isFinite = true) (c.radians k x) :=
  ((rounds_isFinite c).mul given constants.pi).andThen fun _ kept => (rounds_isFinite c).div kept rfl

theorem degrees_isFinite (constants : k.AllFinite) (given : x.isFinite = true) :
    Yields (·.isFinite = true) (c.degrees k x) :=
  ((rounds_isFinite c).mul given rfl).andThen fun _ kept => (rounds_isFinite c).div kept constants.pi

theorem reduceAngle_isFinite (constants : k.AllFinite) (given : x.isFinite = true) :
    Yields (·.isFinite = true) (c.reduceAngle k x) := by
  have rounds := rounds_isFinite c
  refine (rounds.rem given constants.twoPi).andThen ?_
  intro rest kept
  refine .bind ?_
  intro high _
  refine .ite (rounds.sub kept constants.twoPi) ?_
  refine .bind ?_
  intro opposite _
  refine .bind ?_
  intro low _
  exact .ite (rounds.add kept constants.twoPi) (.ok kept)

theorem snap_isFinite (given : x.isFinite = true) (angle : Decimal) :
    Yields (·.isFinite = true) (c.snap x angle) := by
  refine .bind ?_
  intro epsilon _
  refine .bind ?_
  intro size _
  refine .bind ?_
  intro small _
  exact .ite (.bind fun size _ => .bind fun far _ => .ite (.ok rfl) (.ok given)) (.ok given)

theorem sinReduced_isFinite (constants : k.AllFinite) (given : x.isFinite = true) :
    Yields (·.isFinite = true) (c.sinReduced k x) := by
  refine (reduceAngle_isFinite constants given).andThen ?_
  intro angle kept
  exact (c.sinSeries_isFinite kept).andThen fun sum summed => .ok summed

theorem cosReduced_isFinite (constants : k.AllFinite) (given : x.isFinite = true) :
    Yields (·.isFinite = true) (c.cosReduced k x) := by
  refine (reduceAngle_isFinite constants given).andThen ?_
  intro angle kept
  exact (c.cosSeries_isFinite kept).andThen fun sum summed => .ok summed

theorem sinWork_isFinite (constants : k.AllFinite) (inDegrees : Bool) (given : x.isFinite = true) :
    Yields (·.isFinite = true) (c.sinWork k inDegrees x) := by
  have rounds := rounds_isFinite c
  refine .ite ?_ ?_
  · refine .bind ?_
    intro rest _
    refine .bind ?_
    intro isZero _
    refine .ite (.ok rfl) ?_
    refine (rounds.rem given rfl).andThen ?_
    intro rest kept
    refine (radians_isFinite constants kept).andThen ?_
    intro angle kept
    exact sinReduced_isFinite constants kept
  · refine (sinReduced_isFinite constants given).andThen ?_
    intro result kept
    exact snap_isFinite kept x

theorem cosWork_isFinite (constants : k.AllFinite) (inDegrees : Bool) (given : x.isFinite = true) :
    Yields (·.isFinite = true) (c.cosWork k inDegrees x) := by
  have rounds := rounds_isFinite c
  refine .ite ?_ ?_
  · refine .bind ?_
    intro turned _
    refine .bind ?_
    intro rest _
    refine .bind ?_
    intro isZero _
    refine .ite (.ok rfl) ?_
    refine (rounds.rem given rfl).andThen ?_
    intro rest kept
    refine (radians_isFinite constants kept).andThen ?_
    intro angle kept
    exact cosReduced_isFinite constants kept
  · refine (cosReduced_isFinite constants given).andThen ?_
    intro result kept
    exact snap_isFinite kept x

theorem atanWork_isFinite (constants : k.AllFinite) (given : x.isFinite = true) :
    Yields (·.isFinite = true) (c.atanWork k x) := by
  have rounds := rounds_isFinite c
  refine .bind ?_
  intro isZero _
  refine .ite (.ok rfl) (.bind ?_)
  intro negative _
  refine (rounds.abs given).andThen ?_
  intro size sized
  refine .bind ?_
  intro inverted _
  refine .iteThen (rounds.div rfl sized) (.ok sized) ?_
  intro reduced kept
  refine (c.atanReduced_isFinite kept).andThen ?_
  intro angle kept
  refine .iteThen (rounds.sub constants.halfPi kept) (.ok kept) ?_
  intro angle kept
  exact .ite (rounds.neg kept) (.ok kept)

theorem asinWork_isFinite (constants : k.AllFinite) (given : x.isFinite = true) :
    Yields (·.isFinite = true) (c.asinWork k x) := by
  have rounds := rounds_isFinite c
  refine .bind ?_
  intro size _
  refine .bind ?_
  intro outside _
  refine .ite (.throw _ _) ?_
  refine .bind ?_
  intro size _
  refine .bind ?_
  intro isOne _
  refine .ite (.ok (isFinite_copySign constants.halfPi x)) ?_
  refine (lift_yields (rounds.mul given given)).andThen ?_
  intro square squared
  refine (lift_yields (rounds.sub rfl squared)).andThen ?_
  intro rest kept
  refine (lift_yields (rounds.sqrt kept)).andThen ?_
  intro root rooted
  refine (lift_yields (rounds.div given rooted)).andThen ?_
  intro tangent kept
  exact lift_yields (atanWork_isFinite constants kept)

theorem inUnit_isFinite (constants : k.AllFinite) (inDegrees : Bool) (given : x.isFinite = true) :
    Yields (·.isFinite = true) (c.inUnit k inDegrees x) :=
  .ite (degrees_isFinite constants given) (.ok given)

theorem cubeRootSteps_isFinite (epsilon : Decimal) (given : x.isFinite = true) (fuel : Nat)
    (started : y.isFinite = true) :
    Yields (·.isFinite = true) (c.cubeRootSteps epsilon x fuel y) := by
  have rounds := rounds_isFinite c
  induction fuel generalizing y with
  | zero => exact .ok started
  | succ fuel ih =>
    unfold cubeRootSteps
    refine (rounds.mul rfl started).andThen ?_
    intro doubled twice
    refine (rounds.mul started started).andThen ?_
    intro square squared
    refine (rounds.div given squared).andThen ?_
    intro quotient divided
    refine (rounds.add twice divided).andThen ?_
    intro sum summed
    refine (rounds.div summed rfl).andThen ?_
    intro following kept
    refine .bind ?_
    intro apart _
    refine .bind ?_
    intro apart _
    refine .bind ?_
    intro bound _
    refine .bind ?_
    intro near _
    exact .ite (.ok kept) (ih kept)

theorem cubeRootWork_isFinite (given : x.isFinite = true) :
    Yields (·.isFinite = true) (c.cubeRootWork x) := by
  have rounds := rounds_isFinite c
  refine .bind ?_
  intro isZero _
  refine .ite (.ok rfl) ?_
  refine (rounds.abs given).andThen ?_
  intro size sized
  refine (rounds.power rfl rfl fun zero => absurd zero (by decide)).andThen ?_
  intro start started
  refine .bind ?_
  intro epsilon _
  refine (cubeRootSteps_isFinite epsilon sized _ started).andThen ?_
  intro root rooted
  exact .ok (isFinite_copySign rooted x)

theorem atan2Work_isFinite (constants : k.AllFinite) (first : y.isFinite = true)
    (second : x.isFinite = true) : Yields (·.isFinite = true) (c.atan2Work k y x) := by
  have rounds := rounds_isFinite c
  refine .bind ?_
  intro right _
  refine .ite ?_ (.bind fun left _ => .ite ?_ ?_)
  · refine (rounds.div first second).andThen ?_
    intro tangent kept
    exact atanWork_isFinite constants kept
  · refine (rounds.div first second).andThen ?_
    intro tangent kept
    refine (atanWork_isFinite constants kept).andThen ?_
    intro angle kept
    refine .bind ?_
    intro above _
    exact .iteThen (.ok constants.pi) (rounds.neg constants.pi) fun turn turned =>
      rounds.add kept turned
  · refine .bind ?_
    intro above _
    refine .ite (.ok constants.halfPi) (.bind ?_)
    intro below _
    exact .ite (rounds.neg constants.halfPi) (.ok rfl)

theorem tanhWork_isFinite (constants : k.AllFinite) (given : x.isFinite = true) :
    Yields (·.isFinite = true) (c.tanhWork k x) := by
  have rounds := rounds_isFinite c
  refine .bind ?_
  intro size _
  refine .bind ?_
  intro size _
  refine .bind ?_
  intro bound _
  refine .bind ?_
  intro large _
  refine .ite (.ok (isFinite_copySign rfl x)) ?_
  refine (lift_yields (rounds.mul rfl given)).andThen ?_
  intro doubled kept
  refine (expWork_isFinite constants kept).andThen ?_
  intro square kept
  refine (lift_yields (rounds.sub kept rfl)).andThen ?_
  intro numerator above
  refine (lift_yields (rounds.add kept rfl)).andThen ?_
  intro denominator below
  exact lift_yields (rounds.div above below)

/-! ### The functions -/

theorem Rounds.guarded (rounds : c.Rounds holds) {compute : Context → Constants → Computed Decimal}
    (works : ∀ work k, k.AllFinite → Yields (·.isFinite = true) (compute work k)) :
    Yields holds (c.guarded compute) := by
  refine (lift_yields (Constants.ofPrecision_allFinite _)).andThen ?_
  intro k constants
  refine (works _ k constants).andThen ?_
  intro result kept
  exact lift_yields (rounds.plus kept)

section
variable (rounds : c.Rounds holds)
include rounds

theorem piConstant_yields : Yields holds c.piConstant :=
  rounds.guarded fun _ _ constants => .ok constants.pi

theorem eConstant_yields : Yields holds c.eConstant :=
  rounds.guarded fun _ _ constants => .ok constants.e

variable (given : x.isFinite = true)
include given

theorem exp_yields : Yields holds (c.exp x) :=
  rounds.guarded fun _ _ constants => expWork_isFinite constants given

theorem ln_yields : Yields holds (c.ln x) :=
  rounds.guarded fun _ _ constants => lnWork_isFinite constants given

theorem log10_yields : Yields holds (c.log10 x) := by
  refine rounds.guarded ?_
  intro work _ constants
  refine (lnWork_isFinite constants given).andThen ?_
  intro _ kept
  exact lift_yields ((rounds_isFinite work).div kept constants.lnTen)

theorem cbrt_yields : Yields holds (c.cbrt x) :=
  rounds.guarded fun _ _ _ => lift_yields (cubeRootWork_isFinite given)

theorem sin_yields (inDegrees : Bool) : Yields holds (c.sin inDegrees x) :=
  rounds.guarded fun _ _ constants => lift_yields (sinWork_isFinite constants inDegrees given)

theorem cos_yields (inDegrees : Bool) : Yields holds (c.cos inDegrees x) :=
  rounds.guarded fun _ _ constants => lift_yields (cosWork_isFinite constants inDegrees given)

theorem tan_yields (inDegrees : Bool) : Yields holds (c.tan inDegrees x) := by
  refine rounds.guarded ?_
  intro work _ constants
  refine (lift_yields (sinWork_isFinite constants inDegrees given)).andThen ?_
  intro _ above
  refine (lift_yields (cosWork_isFinite constants inDegrees given)).andThen ?_
  intro _ below
  exact lift_yields ((rounds_isFinite work).div above below)

theorem asin_yields (inDegrees : Bool) : Yields holds (c.asin inDegrees x) := by
  refine rounds.guarded ?_
  intro _ _ constants
  refine (asinWork_isFinite constants given).andThen ?_
  intro _ kept
  exact lift_yields (inUnit_isFinite constants inDegrees kept)

theorem acos_yields (inDegrees : Bool) : Yields holds (c.acos inDegrees x) := by
  refine rounds.guarded ?_
  intro work _ constants
  refine (asinWork_isFinite constants given).andThen ?_
  intro _ kept
  refine (lift_yields ((rounds_isFinite work).sub constants.halfPi kept)).andThen ?_
  intro _ kept
  exact lift_yields (inUnit_isFinite constants inDegrees kept)

theorem atan_yields (inDegrees : Bool) : Yields holds (c.atan inDegrees x) := by
  refine rounds.guarded ?_
  intro _ _ constants
  refine (lift_yields (atanWork_isFinite constants given)).andThen ?_
  intro _ kept
  exact lift_yields (inUnit_isFinite constants inDegrees kept)

theorem sinh_yields : Yields holds (c.sinh x) := by
  refine rounds.guarded ?_
  intro work _ constants
  refine (expWork_isFinite constants given).andThen ?_
  intro _ raised
  refine (lift_yields ((rounds_isFinite work).div rfl raised)).andThen ?_
  intro _ inverse
  refine (lift_yields ((rounds_isFinite work).sub raised inverse)).andThen ?_
  intro _ kept
  exact lift_yields ((rounds_isFinite work).div kept rfl)

theorem cosh_yields : Yields holds (c.cosh x) := by
  refine rounds.guarded ?_
  intro work _ constants
  refine (expWork_isFinite constants given).andThen ?_
  intro _ raised
  refine (lift_yields ((rounds_isFinite work).div rfl raised)).andThen ?_
  intro _ inverse
  refine (lift_yields ((rounds_isFinite work).add raised inverse)).andThen ?_
  intro _ kept
  exact lift_yields ((rounds_isFinite work).div kept rfl)

theorem tanh_yields : Yields holds (c.tanh x) :=
  rounds.guarded fun _ _ constants => tanhWork_isFinite constants given

theorem asinh_yields : Yields holds (c.asinh x) := by
  refine rounds.guarded ?_
  intro work k constants
  have finite := rounds_isFinite work
  refine (lift_yields (finite.abs given)).andThen ?_
  intro size sized
  refine (lift_yields (finite.mul sized sized)).andThen ?_
  intro square squared
  refine (lift_yields (finite.add squared rfl)).andThen ?_
  intro sum summed
  refine (lift_yields (finite.sqrt summed)).andThen ?_
  intro root rooted
  refine (lift_yields (finite.add sized rooted)).andThen ?_
  intro sum summed
  refine (lnWork_isFinite constants summed).andThen ?_
  intro result kept
  exact .ok (isFinite_copySign kept x)

theorem acosh_yields : Yields holds (c.acosh x) := by
  refine rounds.guarded ?_
  intro work k constants
  have finite := rounds_isFinite work
  refine .bind ?_
  intro outside _
  refine .ite (.throw _ _) ?_
  refine (lift_yields (finite.mul given given)).andThen ?_
  intro square squared
  refine (lift_yields (finite.sub squared rfl)).andThen ?_
  intro rest kept
  refine (lift_yields (finite.sqrt kept)).andThen ?_
  intro root rooted
  refine (lift_yields (finite.add given rooted)).andThen ?_
  intro sum summed
  exact lnWork_isFinite constants summed

theorem atanh_yields : Yields holds (c.atanh x) := by
  refine rounds.guarded ?_
  intro work k constants
  have finite := rounds_isFinite work
  refine .bind ?_
  intro size _
  refine .bind ?_
  intro outside _
  refine .ite (.throw _ _) ?_
  refine (lift_yields (finite.add rfl given)).andThen ?_
  intro numerator above
  refine (lift_yields (finite.sub rfl given)).andThen ?_
  intro denominator below
  refine (lift_yields (finite.div above below)).andThen ?_
  intro ratio divided
  refine (lnWork_isFinite constants divided).andThen ?_
  intro result kept
  exact lift_yields (finite.div kept rfl)

theorem toRadians_yields : Yields holds (c.toRadians x) :=
  rounds.guarded fun _ _ constants => lift_yields (radians_isFinite constants given)

theorem toDegrees_yields : Yields holds (c.toDegrees x) :=
  rounds.guarded fun _ _ constants => lift_yields (degrees_isFinite constants given)

theorem atan2_yields (inDegrees : Bool) (other : y.isFinite = true) :
    Yields holds (c.atan2 inDegrees x y) := by
  refine rounds.guarded ?_
  intro _ _ constants
  refine (lift_yields (atan2Work_isFinite constants given other)).andThen ?_
  intro _ kept
  exact lift_yields (inUnit_isFinite constants inDegrees kept)

end

end Reckoner.Decimal.Context

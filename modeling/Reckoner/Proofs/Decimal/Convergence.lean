import Reckoner.Proofs.Decimal.Angle
import Reckoner.Proofs.Decimal.Fading
import Reckoner.Proofs.Decimal.Inspection
import Reckoner.Proofs.Decimal.Reduction

/-! Loops that end properly. Each function brings its argument where the series after it fades in time and where its
reductions are short, so a call that gives a result gives the same one under strict inspection. -/

namespace Reckoner.Decimal

/-! ### Results that are kept -/

/-- Whether the value of an outcome, if it has one, is that of another outcome too. -/
def Keeps {ε β : Type} (outcome inspected : Except ε β) : Prop := Yields (fun value => inspected = .ok value) outcome

namespace Keeps

variable {ε β γ : Type} {kept : γ → Prop}

theorem refl (outcome : Except ε β) : Keeps outcome outcome := fun _ found => found

theorem throw (fault : ε) (next : γ → Except ε β) (inspected : Except ε β) :
    Keeps ((MonadExcept.throw fault : Except ε γ) >>= next) inspected := Yields.throw fault next

theorem andThen {first second : Except ε γ} {next other : γ → Except ε β} (keeps : Keeps first second)
    (yields : Yields kept first) (later : ∀ x, kept x → Keeps (next x) (other x)) :
    Keeps (first >>= next) (second >>= other) := by
  intro value found
  obtain ⟨x, given, rest⟩ := bind_eq_ok.mp found
  exact bind_eq_ok.mpr ⟨x, keeps x given, later x (yields x given) value rest⟩

theorem followed {first second : Except ε γ} (keeps : Keeps first second) (next : γ → Except ε β) :
    Keeps (first >>= next) (second >>= next) := by
  intro value found
  obtain ⟨x, given, rest⟩ := bind_eq_ok.mp found
  exact bind_eq_ok.mpr ⟨x, keeps x given, rest⟩

theorem ofYields {first : Except ε γ} {next other : γ → Except ε β} (yields : Yields kept first)
    (later : ∀ x, kept x → Keeps (next x) (other x)) : Keeps (first >>= next) (first >>= other) :=
  (refl first).andThen yields later

theorem bind {first : Except ε γ} {next other : γ → Except ε β}
    (later : ∀ x, first = .ok x → Keeps (next x) (other x)) : Keeps (first >>= next) (first >>= other) :=
  ofYields (fun _ found => found) later

theorem bindLift {first : Except Signal γ} {next other : γ → Computed β}
    (later : ∀ x, first = .ok x → Keeps (next x) (other x)) :
    Keeps ((liftM first : Computed γ) >>= next) ((liftM first : Computed γ) >>= other) :=
  ofYields (lift_yields fun _ found => found) later

theorem ite {condition : Prop} [Decidable condition] {left right left' right' : Except ε β}
    (first : condition → Keeps left left') (second : ¬ condition → Keeps right right') :
    Keeps (if condition then left else right) (if condition then left' else right') := by
  split
  · exact first ‹_›
  · exact second ‹_›

theorem iteThen {condition : Prop} [Decidable condition] {left right : Except ε γ} {next other : γ → Except ε β}
    (first : condition → Yields kept left) (second : ¬ condition → Yields kept right)
    (later : ∀ x, kept x → Keeps (next x) (other x)) :
    Keeps (if condition then left >>= next else right >>= next)
      (if condition then left >>= other else right >>= other) := by
  apply Keeps.ite
  · intro held
    exact ofYields (first held) later
  · intro failed
    exact ofYields (second failed) later

theorem lift {outcome inspected : Except Signal β} (keeps : Keeps outcome inspected) :
    Keeps (liftM outcome : Computed β) (liftM inspected) := by
  apply lift_yields
  intro value found
  rw [keeps value found]
  rfl

theorem watch {i : Inspector} {ending : β → Ending} {loop : Except Signal β}
    (passes : Yields (fun made => i.passes (ending made) = true) loop) : Keeps loop (i.watch ending loop) := by
  rintro made rfl
  show (if i.passes (ending made) = true then _ else _) = _
  rw [if_pos (passes made rfl)]
  rfl

theorem series {sum : Except Signal PartialSum} (settled : Reaches (·.settled = true) sum) :
    Keeps sum (Inspector.strict.series sum) := .watch settled.yields

end Keeps

/-- Whether a context refuses what is too small, in the widest range, and constants are good to its digits. -/
structure Context.Equipped (c : Context) (k : Constants) : Prop extends c.Deep, c.Suits k where
  refuses : c.refusesSubnormal = true
  natural : k.Natural c.precision
  lowest : -999999 ≤ c.least
  highest : c.greatest ≤ 999999
  top : 0 ≤ c.greatest

namespace Inspector

open Context

variable {c : Context}

/-! ### Constants -/

theorem atanReduced_keeps (deep : c.Deep) {x : Decimal} (given : x.isFinite = true) (nonneg : 0 ≤ x.value)
    (most : x.value ≤ 1) : Keeps (c.atanReduced x) (strict.atanReduced c x) := by
  have start : x.value ≤ halvedTangent 0 := most
  have few := (deep.halveAngle_few halvingBound given nonneg start (Nat.zero_le 2) (Nat.zero_add _)).yields
  have passes : Yields (fun made => strict.passes (.doublings made.1) = true) (c.halveAngle halvingBound 0 x) := by
    intro made found
    exact decide_eq_true (few made found).1
  apply (Keeps.watch passes).andThen few
  rintro made ⟨_, sound, small⟩
  have settled := deep.atanSeries_settled sound small
  exact (Keeps.series settled).followed _

theorem wideRange_deep {precision : Nat} (least : 6 ≤ precision) (most : precision ≤ 105) :
    (Constants.wideRange (precision + 5)).Deep := by
  constructor
  · exact Constants.wideRange_working (by omega) (by omega)
  · show (-999999 : Int) ≤ -700
    decide

theorem ninth_small (deep : c.Deep) {ninth : Decimal} (divided : c.IsRounding (one.value / (ofInt 9).value) ninth) :
    |ninth.value| ≤ 1 / 5 := by
  have fine := deep.fine
  rw [value_one, value_ofInt] at divided
  have near := divided.near deep.deep 0 (by norm_num)
  rw [pow_zero] at near
  push_cast at near
  obtain ⟨low, high⟩ := abs_le.mp near
  apply abs_le.mpr
  constructor <;> linarith

theorem derive_keeps {precision : Nat} (least : 6 ≤ precision) (most : precision ≤ 105) :
    Keeps (Constants.derive precision) (strict.derive precision) := by
  have deep := wideRange_deep least most
  have precise := deep.precise
  have two : |((ofInt 2).value : ℝ) - 2| ≤ 10 * (Constants.wideRange (precision + 5)).grain := by
    have tiny : (0 : ℝ) < (Constants.wideRange (precision + 5)).grain := Rat.cast_pos.mpr (grain_pos _)
    rw [value_ofInt, Int.cast_ofNat, Rat.cast_ofNat, sub_self, abs_zero]
    linarith
  have rootTwo_near := deep.sqrt_reaches (x := ofInt 2) rfl (by norm_num) le_rfl two
  apply Keeps.ofYields rootTwo_near.yields
  rintro rootTwo ⟨rooted, root⟩
  have nonneg : 0 ≤ one.value := by
    rw [value_one]
    norm_num
  have quarter_keeps := atanReduced_keeps deep (x := one) rfl nonneg value_one.le
  apply quarter_keeps.andThen (atanReduced_isFinite _ rfl)
  intro quarter _
  apply Keeps.bind
  intro pi _
  apply Keeps.ofYields (sub_reaches precise rooted (y := one) rfl).yields
  intro above subtracted
  apply Keeps.ofYields (add_reaches precise rooted (y := one) rfl).yields
  intro below added
  have ratio_small := Constants.ratio_reaches deep.toWorking root subtracted added
  apply Keeps.ofYields ratio_small.yields
  rintro ratio ⟨divided, fifth, _⟩
  have ratio_settled := deep.atanhSeries_settled divided fifth
  apply (Keeps.series ratio_settled).andThen (atanhSeries_isFinite _ divided)
  intro sum _
  apply Keeps.bind
  intro lnTwo _
  have nine : (ofInt 9).value ≠ 0 := by
    rw [value_ofInt]
    norm_num
  apply Keeps.ofYields (div_reaches precise (x := one) rfl rfl nine).yields
  intro ninth ninths
  apply Keeps.bind
  intro thrice _
  have ninth_settled := deep.atanhSeries_settled ninths.isFinite (ninth_small deep ninths)
  apply (Keeps.series ninth_settled).andThen (atanhSeries_isFinite _ ninths.isFinite)
  intro sum _
  apply Keeps.bind
  intro twice _
  apply Keeps.bind
  intro lnTen _
  have unit : |one.value| ≤ 1 := by rw [value_one, abs_one]
  have settled := deep.expSeries_settled (x := one) rfl (.inl unit)
  exact (Keeps.series settled).followed _

theorem ofPrecision_keeps {precision : Nat} (least : 6 ≤ precision) (most : precision ≤ 105) :
    Keeps (Constants.ofPrecision precision) (strict.ofPrecision precision) := by
  apply Keeps.ite
  · intro _
    exact Keeps.refl _
  · intro _
    exact derive_keeps least most

/-! ### Functions -/

variable {k : Constants} (equipped : c.Equipped k) {x : Decimal} (given : x.isFinite = true)
include equipped given

theorem expWork_keeps : Keeps (c.expWork k x) (strict.expWork c k x) := by
  have precise := equipped.precise
  have natural := equipped.natural
  have finite := equipped.finite
  have working := equipped.toWorking
  intro v found
  -- An argument of another size has no result, whatever ended its series.
  have moderate := expWork_moderate working equipped.refuses natural finite given equipped.lowest equipped.highest
    working.deep.le equipped.top v found
  refine (?_ : Keeps (c.expWork k x) (strict.expWork c k x)) v found
  have nonzero : k.lnTwo.value ≠ 0 := by linarith [(lnTwo_bounds working natural).1]
  apply Keeps.ofYields (lift_yields (div_reaches precise given finite.lnTwo nonzero).yields)
  intro q divided
  obtain ⟨whole, -⟩ := roundToWhole_halfEven divided.isFinite
  have sound := isFinite_roundToWhole .halfEven divided.isFinite
  apply Keeps.ofYields (lift_yields (mul_reaches precise sound finite.lnTwo).yields)
  intro m multiplied
  rw [whole] at multiplied
  apply Keeps.ofYields (lift_yields (sub_reaches precise given multiplied.isFinite).yields)
  intro rest subtracted
  have small : |rest.value| ≤ 1 ∨ c.precision ≤ 6 ∧ |rest.value| ≤ 25 := by
    rcases Nat.lt_or_ge 6 c.precision with seven | six
    · have power : (10 : ℚ) ^ 7 ≤ 10 ^ c.precision := pow_le_pow_right₀ (by norm_num) seven
      have less := (rest_near working natural seven (by linarith) (by linarith) divided multiplied subtracted).1
      exact .inl (less.trans (by norm_num))
    · exact .inr ⟨six, rest_le working equipped.refuses natural moderate divided multiplied subtracted⟩
  have settled := equipped.expSeries_settled subtracted.isFinite small
  exact (Keeps.series settled).lift.followed _

theorem lnWork_keeps : Keeps (c.lnWork k x) (strict.lnWork c k x) := by
  have natural := equipped.natural
  have finite := equipped.finite
  have working := equipped.toWorking
  unfold lnWork Context.lnWork
  rw [isAtMost_eq given rfl, value_zero]
  apply Keeps.ofYields (lift_yields (.ok rfl))
  intro _ same
  subst same
  apply Keeps.ite fun _ => Keeps.throw _ _ _
  intro above
  have positive : 0 < x.value := by simpa using above
  apply Keeps.ofYields (lift_yields (tenths_yields working equipped.refuses given positive))
  rintro y ⟨scaled, low, high, _⟩
  have start : |Real.log y.value + (0 : Nat) * Real.log 2 - Real.log y.value| ≤ 6 * c.grain * (0 : Nat) := by simp
  have halved := halveToRoot_yields working equipped.refuses natural finite halvingBound scaled low
    (by norm_num at high ⊢; exact high) start (Nat.zero_add _)
  have passes : Yields (fun made => strict.passes (.halvings made.1) = true) (c.halveToRoot k halvingBound 0 y) := by
    intro made found
    exact decide_eq_true (halved made found).few
  apply (Keeps.watch passes).lift.andThen (lift_yields halved)
  intro made near
  apply Keeps.bindLift
  intro above subtracted
  apply Keeps.bindLift
  intro below added
  apply Keeps.bindLift
  intro ratio divided
  have computed : (do c.div (← c.sub made.2 one) (← c.add made.2 one)) = .ok ratio := by
    rw [subtracted, added]
    exact divided
  obtain ⟨sound, small, -⟩ := (logRatio_reaches working near.isFinite near.low near.high).yields ratio computed
  have settled := equipped.atanhSeries_settled sound small
  exact (Keeps.series settled).lift.followed _

theorem sinReduced_keeps : Keeps (c.sinReduced k x) (strict.sinReduced c k x) := by
  apply Keeps.ofYields (equipped.reduceAngle_turned equipped.toWorking given).yields
  rintro y ⟨sound, small, _⟩
  have settled := equipped.sinSeries_settled sound small
  exact (Keeps.series settled).followed _

theorem cosReduced_keeps : Keeps (c.cosReduced k x) (strict.cosReduced c k x) := by
  apply Keeps.ofYields (equipped.reduceAngle_turned equipped.toWorking given).yields
  rintro y ⟨sound, small, _⟩
  have settled := equipped.cosSeries_settled sound small
  exact (Keeps.series settled).followed _

theorem sinWork_keeps (inDegrees : Bool) : Keeps (c.sinWork k inDegrees x) (strict.sinWork c k inDegrees x) := by
  apply Keeps.ite
  · intro _
    apply Keeps.bind
    intro _ _
    apply Keeps.bind
    intro _ _
    apply Keeps.ite fun _ => Keeps.refl _
    intro _
    apply Keeps.ofYields ((rounds_isFinite c).rem given rfl)
    intro y kept
    apply Keeps.ofYields (c.radians_isFinite equipped.finite kept)
    intro angle sound
    exact sinReduced_keeps equipped sound
  · intro _
    exact (sinReduced_keeps equipped given).followed _

theorem cosWork_keeps (inDegrees : Bool) : Keeps (c.cosWork k inDegrees x) (strict.cosWork c k inDegrees x) := by
  apply Keeps.ite
  · intro _
    apply Keeps.bind
    intro _ _
    apply Keeps.bind
    intro _ _
    apply Keeps.bind
    intro _ _
    apply Keeps.ite fun _ => Keeps.refl _
    intro _
    apply Keeps.ofYields ((rounds_isFinite c).rem given rfl)
    intro y kept
    apply Keeps.ofYields (c.radians_isFinite equipped.finite kept)
    intro angle sound
    exact cosReduced_keeps equipped sound
  · intro _
    exact (cosReduced_keeps equipped given).followed _

theorem atanWork_keeps : Keeps (c.atanWork k x) (strict.atanWork c k x) := by
  have precise := equipped.precise
  unfold atanWork Context.atanWork
  apply Keeps.bind
  intro _ _
  apply Keeps.ite fun _ => Keeps.refl _
  intro _
  apply Keeps.bind
  intro negative _
  apply Keeps.ofYields (abs_reaches precise given).yields
  intro y measured
  have nonneg := measured.nonneg (abs_nonneg _)
  rw [isLess_eq (x := one) rfl measured.isFinite, value_one]
  apply Keeps.ofYields (.ok rfl)
  intro _ same
  subst same
  have reciprocal (large : decide (1 < y.value) = true) :
      Yields (fun z => z.isFinite = true ∧ 0 ≤ z.value ∧ z.value ≤ 1) (c.div one y) := by
    have large : 1 < y.value := of_decide_eq_true large
    intro z found
    have divided := (div_reaches precise (x := one) rfl measured.isFinite (by linarith)).yields z found
    rw [value_one] at divided
    have positive : 0 ≤ 1 / y.value := by positivity
    have deep := equipped.deep
    have room : c.tiniest ≤ 0 := by
      rw [tiniest]
      omega
    have unit : |1 / y.value| ≤ 10 ^ (0 : ℤ) := by
      rw [zpow_zero, abs_of_nonneg positive, div_le_one (by linarith)]
      exact large.le
    have least := abs_round_le precise room unit divided.rounded
    rw [zpow_zero] at least
    exact ⟨divided.isFinite, divided.nonneg positive, (le_abs_self _).trans least⟩
  have itself (small : ¬ decide (1 < y.value) = true) :
      Yields (fun z => z.isFinite = true ∧ 0 ≤ z.value ∧ z.value ≤ 1) (Except.ok y : Except Signal Decimal) := by
    have small : y.value ≤ 1 := by simpa using small
    exact .ok ⟨measured.isFinite, nonneg, small⟩
  apply Keeps.iteThen reciprocal itself
  rintro z ⟨sound, positive, most⟩
  exact (atanReduced_keeps equipped.toDeep sound positive most).followed _

theorem asinWork_keeps : Keeps (c.asinWork k x) (strict.asinWork c k x) := by
  have rounds := rounds_isFinite c
  apply Keeps.bind
  intro _ _
  apply Keeps.bind
  intro _ _
  apply Keeps.ite fun _ => Keeps.throw _ _ _
  intro _
  apply Keeps.bind
  intro _ _
  apply Keeps.bind
  intro _ _
  apply Keeps.ite fun _ => Keeps.refl _
  intro _
  apply Keeps.ofYields (lift_yields (rounds.mul given given))
  intro square squared
  apply Keeps.ofYields (lift_yields (rounds.sub rfl squared))
  intro difference kept
  apply Keeps.ofYields (lift_yields (rounds.sqrt kept))
  intro root rooted
  apply Keeps.ofYields (lift_yields (rounds.div given rooted))
  intro quotient divided
  exact (atanWork_keeps equipped divided).lift

theorem atan2Work_keeps {y : Decimal} (other : y.isFinite = true) :
    Keeps (c.atan2Work k y x) (strict.atan2Work c k y x) := by
  have rounds := rounds_isFinite c
  apply Keeps.bind
  intro _ _
  apply Keeps.ite
  · intro _
    apply Keeps.ofYields (rounds.div other given)
    intro quotient divided
    exact atanWork_keeps equipped divided
  intro _
  apply Keeps.bind
  intro _ _
  apply Keeps.ite
  · intro _
    apply Keeps.ofYields (rounds.div other given)
    intro quotient divided
    exact (atanWork_keeps equipped divided).followed _
  · intro _
    exact Keeps.refl _

theorem tanhWork_keeps : Keeps (c.tanhWork k x) (strict.tanhWork c k x) := by
  have rounds := rounds_isFinite c
  apply Keeps.bind
  intro _ _
  apply Keeps.bind
  intro _ _
  apply Keeps.bind
  intro _ _
  apply Keeps.bind
  intro _ _
  apply Keeps.ite fun _ => Keeps.refl _
  intro _
  apply Keeps.ofYields (lift_yields (rounds.mul rfl given))
  intro double doubled
  exact (expWork_keeps equipped doubled).followed _

omit given in
/-- What a call computes is kept, whatever finite decimals it is made with. -/
theorem work_keeps (call : Call) (finite : ∀ x ∈ call.arguments, x.isFinite = true) :
    Keeps (lenient.work c k call) (strict.work c k call) := by
  have rounds := rounds_isFinite c
  have constants := equipped.finite
  cases call with
  | piConstant | eConstant | cbrt _ | toRadians _ | toDegrees _ => exact .refl _
  | exp x =>
    simp only [work, expWork_lenient]
    exact expWork_keeps equipped (finite x (.head _))
  | ln x =>
    simp only [work, lnWork_lenient]
    exact lnWork_keeps equipped (finite x (.head _))
  | log10 x =>
    have given := finite x (.head _)
    simp only [work, lnWork_lenient]
    exact (lnWork_keeps equipped given).followed _
  | log x base =>
    have first := finite x (.head _)
    have second := finite base (.tail _ (.head _))
    simp only [work, lnWork_lenient]
    apply (lnWork_keeps equipped first).andThen (c.lnWork_isFinite constants first)
    intro numerator _
    exact (lnWork_keeps equipped second).followed _
  | sin inDegrees x =>
    simp only [work, sinWork_lenient]
    exact (sinWork_keeps equipped (finite x (.head _)) inDegrees).lift
  | cos inDegrees x =>
    simp only [work, cosWork_lenient]
    exact (cosWork_keeps equipped (finite x (.head _)) inDegrees).lift
  | tan inDegrees x =>
    have given := finite x (.head _)
    simp only [work, sinWork_lenient, cosWork_lenient]
    have sound := lift_yields (c.sinWork_isFinite constants inDegrees given)
    apply (sinWork_keeps equipped given inDegrees).lift.andThen sound
    intro sine _
    exact (cosWork_keeps equipped given inDegrees).lift.followed _
  | asin inDegrees x | acos inDegrees x =>
    have given := finite x (.head _)
    simp only [work, asinWork_lenient]
    exact (asinWork_keeps equipped given).followed _
  | atan inDegrees x =>
    have given := finite x (.head _)
    simp only [work, atanWork_lenient]
    exact (atanWork_keeps equipped given).lift.followed _
  | atan2 inDegrees y x =>
    have first := finite y (.head _)
    have second := finite x (.tail _ (.head _))
    simp only [work, atan2Work_lenient]
    exact (atan2Work_keeps equipped second first).lift.followed _
  | sinh x | cosh x =>
    have given := finite x (.head _)
    simp only [work, expWork_lenient]
    exact (expWork_keeps equipped given).followed _
  | tanh x =>
    simp only [work, tanhWork_lenient]
    exact tanhWork_keeps equipped (finite x (.head _))
  | asinh x =>
    have given := finite x (.head _)
    simp only [work, lnWork_lenient]
    apply Keeps.ofYields (lift_yields (rounds.abs given))
    intro a sized
    apply Keeps.ofYields (lift_yields (rounds.mul sized sized))
    intro square squared
    apply Keeps.ofYields (lift_yields (rounds.add squared rfl))
    intro sum summed
    apply Keeps.ofYields (lift_yields (rounds.sqrt summed))
    intro root rooted
    apply Keeps.ofYields (lift_yields (rounds.add sized rooted))
    intro total added
    exact (lnWork_keeps equipped added).followed _
  | acosh x =>
    have given := finite x (.head _)
    simp only [work, lnWork_lenient]
    apply Keeps.bind
    intro _ _
    apply Keeps.ite fun _ => Keeps.throw _ _ _
    intro _
    apply Keeps.ofYields (lift_yields (rounds.mul given given))
    intro square squared
    apply Keeps.ofYields (lift_yields (rounds.sub squared rfl))
    intro difference kept
    apply Keeps.ofYields (lift_yields (rounds.sqrt kept))
    intro root rooted
    apply Keeps.ofYields (lift_yields (rounds.add given rooted))
    intro total added
    exact lnWork_keeps equipped added
  | atanh x =>
    have given := finite x (.head _)
    simp only [work, lnWork_lenient]
    apply Keeps.bind
    intro _ _
    apply Keeps.bind
    intro _ _
    apply Keeps.ite fun _ => Keeps.throw _ _ _
    intro _
    apply Keeps.ofYields (lift_yields (rounds.add rfl given))
    intro above added
    apply Keeps.ofYields (lift_yields (rounds.sub rfl given))
    intro below subtracted
    apply Keeps.ofYields (lift_yields (rounds.div added subtracted))
    intro ratio divided
    exact (lnWork_keeps equipped divided).followed _

end Inspector

end Reckoner.Decimal

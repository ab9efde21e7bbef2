import Reckoner.NumberSystem.Decimals
import Reckoner.Proofs.Decimal.Elementary
import Reckoner.Proofs.Decimal.Text
import Reckoner.Proofs.Library.Closure

/-! Decimals of a context stay what the context has room for. -/

namespace Reckoner.NumberSystem.Decimals

open Reckoner.Decimal

variable {c : Decimal.Context} {x y : Decimal}

/-! ### What comes in -/

/-- Only what is finite is rounded; infinities and what is no number come in as they are. -/
theorem create_yields (rounds : c.Rounds c.Admits) (x : Decimal) :
    Yields (fun made => made.isFinite = true → c.Admits made) (create c x) := by
  cases x with
  | finite negative coefficient exponent =>
    exact fun made given _ => rounds.finite _ _ _ made given
  | infinite negative => exact .ok nofun
  | notANumber negative signaling payload => exact .ite (.ok nofun) (.error _)

theorem create_admits (rounds : c.Rounds c.Admits) (given : x.isFinite = true) :
    Yields c.Admits (create c x) := by
  obtain ⟨s, m, e, rfl⟩ := isFinite_iff.mp given
  exact rounds.finite s m e

theorem read_admits (rounds : c.Rounds c.Admits) {text : List Char} (numeral : ∀ c ∈ text, InNumerals c) :
    Yields c.Admits (read c text) := by
  unfold read
  split
  · rename_i x found
    exact create_admits rounds (Decimal.isFinite_of_read? numeral found)
  · exact .error _

theorem parse_admits (rounds : c.Rounds c.Admits) (text : List Char) :
    Yields c.Admits (parse c (LiteralStyle.decimal.span text).1) := by
  have numeral : ∀ c ∈ (LiteralStyle.decimal.span text).1, InNumerals c :=
    fun c member => LiteralStyle.mem_spanDecimal member
  have kept := read_admits rounds numeral
  unfold parse
  split
  · exact .error _
  · exact .error _
  · exact kept.mapError _

theorem ofDouble_admits (rounds : c.Rounds c.Admits) (x : Float) : Yields c.Admits (ofDouble c x) := by
  unfold ofDouble
  dsimp only
  split
  · rename_i finite
    exact (read_admits rounds (Binary64.numeric_write finite)).mapError _
  · exact .error _

theorem coerce_yields (rounds : c.Rounds c.Admits) (value : Datum) :
    Yields (fun made => made.isFinite = true → c.Admits made) (coerce c value) := by
  cases value with
  | float x => exact fun made given _ => ofDouble_admits rounds x made given
  | int n => exact (create_yields rounds _).mapError _
  | bool value => exact (create_yields rounds _).mapError _
  | decimal x => exact (create_yields rounds x).mapError _
  | text text =>
    refine Yields.mapError ?_ _
    unfold read
    split
    · exact create_yields rounds _
    · exact .error _
  | list values =>
    unfold coerce
    dsimp only
    split
    · exact (create_yields rounds _).mapError _
    · exact .error _
  | absent => exact .error _
  | complex _ => exact .error _
  | fraction _ _ => exact .error _

/-! ### What is computed -/

theorem isEqual_zero (zero : x.isZero = true) : isEqual x Decimal.zero = .ok true := by
  cases x with
  | finite negative coefficient exponent =>
    have none : coefficient = 0 := by simpa [Decimal.isZero] using zero
    rw [none]
    rfl
  | infinite => cases zero
  | notANumber => cases zero

theorem isLess_zero (given : y.isFinite = true) (below : order y Decimal.zero = .lt) :
    isLess y Decimal.zero = .ok true := by
  obtain ⟨t, n, f, rfl⟩ := isFinite_iff.mp given
  have ordered : compareOrdered (.finite t n f) Decimal.zero = .ok .lt := congrArg Except.ok below
  rw [isLess, ordered]
  rfl

/-- A power of zero with a negative exponent is refused before it is infinite. -/
theorem power_admits (checked : c.Checked) (first : c.Admits x) (second : c.Admits y) :
    Yields c.Admits (powerOf c x y) := by
  have power (apart : x.isZero = true → order y Decimal.zero ≠ .lt) :
      Yields c.Admits (reported (c.power x y)) :=
    (checked.rounds.power first.isFinite second.isFinite apart).mapError _
  refine .bind ?_
  intro isZero found
  split
  · refine .bind ?_
    intro isBelow given
    split
    · exact .error _
    · rename_i notBelow
      refine power ?_
      intro _ below
      refine notBelow ?_
      rw [isLess_zero second.isFinite below] at given
      cases given
      rfl
  · rename_i notZero
    refine power ?_
    intro zero
    refine absurd ?_ notZero
    rw [isEqual_zero zero] at found
    cases found
    rfl

theorem roundTo_admits (checked : c.Checked) (mode : Rounding) (admitted : c.Admits x) :
    Yields c.Admits (roundTo c mode x) := by
  obtain ⟨s, m, e, rfl⟩ := isFinite_iff.mp admitted.isFinite
  exact .ok (checked.roundToWhole_admits mode admitted)

theorem native_admits (checked : c.Checked) {function : Elementary}
    {native : List Decimal → Outcome Decimal} (found : native? c function = some native)
    {arguments : List Decimal} (admitted : ∀ x ∈ arguments, c.Admits x) :
    Yields c.Admits (native arguments) := by
  have rounds := checked.rounds
  have one {run : Decimal → Outcome Decimal} (keeps : ∀ x, x.isFinite = true → Yields c.Admits (run x)) :
      Yields c.Admits (onOne run arguments) := by
    match arguments, admitted with
    | [x], admitted => exact keeps x (admitted x List.mem_cons_self).isFinite
    | [], _ => exact .error _
    | _ :: _ :: _, _ => exact .error _
  cases function with
  | abs => cases found
  | gamma => cases found
  | sqrt =>
    cases found
    exact one fun x given => (rounds.sqrt given).mapError _
  | cbrt =>
    cases found
    exact one fun x given => (Context.cbrt_yields rounds given).mapError _
  | exp =>
    cases found
    exact one fun x given => (Context.exp_yields rounds given).mapError _
  | ln =>
    cases found
    exact one fun x given => (Context.ln_yields rounds given).mapError _
  | log =>
    cases found
    exact one fun x given => (Context.log10_yields rounds given).mapError _
  | sin =>
    cases found
    exact one fun x given => (Context.sin_yields rounds given true).mapError _
  | cos =>
    cases found
    exact one fun x given => (Context.cos_yields rounds given true).mapError _
  | tan =>
    cases found
    exact one fun x given => (Context.tan_yields rounds given true).mapError _
  | asin =>
    cases found
    exact one fun x given => (Context.asin_yields rounds given true).mapError _
  | acos =>
    cases found
    exact one fun x given => (Context.acos_yields rounds given true).mapError _
  | atan =>
    cases found
    exact one fun x given => (Context.atan_yields rounds given true).mapError _
  | sinh =>
    cases found
    exact one fun x given => (Context.sinh_yields rounds given).mapError _
  | cosh =>
    cases found
    exact one fun x given => (Context.cosh_yields rounds given).mapError _
  | tanh =>
    cases found
    exact one fun x given => (Context.tanh_yields rounds given).mapError _
  | asinh =>
    cases found
    exact one fun x given => (Context.asinh_yields rounds given).mapError _
  | acosh =>
    cases found
    exact one fun x given => (Context.acosh_yields rounds given).mapError _
  | atanh =>
    cases found
    exact one fun x given => (Context.atanh_yields rounds given).mapError _
  | toRadians =>
    cases found
    exact one fun x given => (Context.toRadians_yields rounds given).mapError _
  | toDegrees =>
    cases found
    exact one fun x given => (Context.toDegrees_yields rounds given).mapError _
  | atan2 =>
    cases found
    match arguments, admitted with
    | [y, x], admitted =>
      have first := (admitted y (by simp)).isFinite
      have second := (admitted x (by simp)).isFinite
      exact (Context.atan2_yields rounds first true second).mapError _
    | [], _ => exact .error _
    | [_], _ => exact .error _
    | _ :: _ :: _ :: _, _ => exact .error _

theorem constants_admitted (rounds : c.Rounds c.Admits) : (system c).Registers c.Admits := by
  have again {x : Decimal} (admitted : c.Admits x) : Yields c.Admits (coerce c (.decimal x)) :=
    (create_admits rounds admitted.isFinite).mapError _
  refine ((Context.piConstant_yields rounds).mapError _).andThen ?_
  intro pi first
  refine ((Context.eConstant_yields rounds).mapError _).andThen ?_
  intro e second
  refine .ok ?_
  intro entry listed
  rcases List.mem_pair.mp listed with rfl | rfl
  · exact again first
  · exact again second

theorem system_closed (checked : c.Checked) : (system c).Closed c.Admits where
  literal := parse_admits checked.rounds
  ofInt := fun _ => (create_admits checked.rounds rfl).mapError _
  ofFloat := ofDouble_admits checked.rounds
  constants := constants_admitted checked.rounds
  native := fun _ _ found _ admitted => native_admits checked found admitted
  add := fun _ _ first second => (checked.rounds.add first.isFinite second.isFinite).mapError _
  sub := fun _ _ first second => (checked.rounds.sub first.isFinite second.isFinite).mapError _
  mul := fun _ _ first second => (checked.rounds.mul first.isFinite second.isFinite).mapError _
  div := fun _ _ first second => .bind fun _ _ => .ite (.throw _ _)
    ((checked.rounds.div first.isFinite second.isFinite).mapError _)
  rem := fun _ _ first second => .bind fun _ _ => .ite (.throw _ _)
    ((checked.rounds.rem first.isFinite second.isFinite).mapError _)
  pow := fun _ _ first second => power_admits checked first second
  neg := fun _ admitted => (checked.rounds.neg admitted.isFinite).mapError _
  toIntegral := fun mode _ admitted => (roundTo_admits checked mode admitted).mapError _

end Reckoner.NumberSystem.Decimals

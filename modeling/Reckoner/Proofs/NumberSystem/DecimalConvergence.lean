import Reckoner.Proofs.Decimal.Convergence
import Reckoner.Proofs.NumberSystem.DecimalTrigonometry

/-! The functions of decimals end their series by small terms and reduce their arguments in few steps, at every
precision that is offered and for all finite arguments that they have a result for. -/

namespace Reckoner.Decimal.Inspector

open Context Reckoner.NumberSystem.Decimals

variable {precision : Int} {c : Context} (given : context? precision defaultRange = some c)
include given

/-- The work of an offered precision is done with digits and constants for which loops end properly. -/
theorem equipped_yields :
    Yields (c.widen guardDigits).Equipped (Constants.ofPrecision (c.widen guardDigits).precision) := by
  have guarded := guarded_of_context? given (by decide)
  have least : 6 ≤ (c.widen guardDigits).precision := Nat.add_le_add_right guarded.positive 5
  have most : (c.widen guardDigits).precision ≤ 105 := Nat.add_le_add_right guarded.most 5
  intro k found
  have suits := guarded.constants_reaches.yields k found
  have natural := (Constants.ofPrecision_natural least most).yields k found
  have working := guarded.working
  obtain ⟨_, rfl⟩ := context?_eq_some given
  exact {
    toWorking := working
    toSuits := suits
    bottom := show -defaultRange ≤ -700 by decide
    natural
    refuses := rfl
    lowest := show -999999 ≤ -defaultRange by decide
    highest := show defaultRange ≤ 999999 by decide
    top := show 0 ≤ defaultRange by decide }

theorem run_keeps (call : Call) (finite : ∀ x ∈ call.arguments, x.isFinite = true) :
    Keeps (call.result c) (strict.run c call) := by
  have guarded := guarded_of_context? given (by decide)
  rw [← run_lenient]
  simp only [run, Inspector.guarded, ofPrecision_lenient]
  have constants : Keeps (Constants.ofPrecision (c.widen guardDigits).precision)
      (strict.ofPrecision (c.widen guardDigits).precision) :=
    ofPrecision_keeps (Nat.add_le_add_right guarded.positive 5) (Nat.add_le_add_right guarded.most 5)
  apply constants.lift.andThen (lift_yields (equipped_yields given))
  intro k equipped
  exact (work_keeps equipped call finite).andThen (fun _ found => found) fun _ _ => .refl _

end Reckoner.Decimal.Inspector

namespace Reckoner.NumberSystem.Decimals

open Reckoner.Decimal

/-- A call with finite decimals that gives a result gives the same one with all its loops inspected strictly: each
series in it, those of its constants included, was ended by a term below the epsilon, and no logarithm in it took more
than three halvings and no inverse tangent more than two doublings. That inspection adds nothing but the refusal shows
in the lenient one. -/
theorem loops_end_properly {precision : Int} {c : Decimal.Context} (given : context? precision defaultRange = some c)
    (call : Call) (finite : ∀ x ∈ call.arguments, x.isFinite = true) :
    Inspector.lenient.run c call = call.result c ∧
      ∀ v, call.result c = .ok v → Inspector.strict.run c call = .ok v :=
  ⟨Inspector.run_lenient c call, Inspector.run_keeps given call finite⟩

/-- At 36 digits the constants for the logarithm of nine are computed, and three halvings are taken. -/
theorem loops_end_properly_sample : context? 36 defaultRange = some ⟨36, -999999, 999999, true⟩ ∧
    (∀ x ∈ (Call.ln (.ofInt 9)).arguments, x.isFinite = true) ∧
    (Call.ln (.ofInt 9)).result ⟨36, -999999, 999999, true⟩ =
      .ok (.finite false 219722457733621938279049047384505141 (-35)) ∧
    Inspector.strict.run ⟨36, -999999, 999999, true⟩ (.ln (.ofInt 9)) =
      .ok (.finite false 219722457733621938279049047384505141 (-35)) := by
  have given : context? 36 defaultRange = some ⟨36, -999999, 999999, true⟩ := rfl
  have finite : ∀ x ∈ (Call.ln (.ofInt 9)).arguments, x.isFinite = true := by decide
  have found : (Call.ln (.ofInt 9)).result ⟨36, -999999, 999999, true⟩ =
      .ok (.finite false 219722457733621938279049047384505141 (-35)) := eq_ok_of_toOption (by decide +kernel)
  exact ⟨given, finite, found, (loops_end_properly given _ finite).2 _ found⟩

/-- Three halvings do occur. -/
example : (Inspector.run ⟨(· != .halvings 3)⟩ ⟨6, -999999, 999999, true⟩ (.ln (.ofInt 9))).toOption = none := by
  decide +kernel

/-- So do two doublings. -/
example : (Inspector.run ⟨(· != .doublings 2)⟩ ⟨6, -999999, 999999, true⟩ (.atan false (.ofInt 1))).toOption =
    none := by
  decide +kernel

end Reckoner.NumberSystem.Decimals

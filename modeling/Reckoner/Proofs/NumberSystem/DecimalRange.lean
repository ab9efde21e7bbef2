import Reckoner.Proofs.Evaluation.Operands
import Reckoner.Proofs.NumberSystem.Decimals

/-! Evaluation with decimals: while constants and variables are finite, every value fits the precision
and the range. -/

namespace Reckoner.NumberSystem.Decimals

open Reckoner.Decimal Reckoner.Numeral

theorem context?_eq_some {precision range : Int} {c : Decimal.Context}
    (given : context? precision range = some c) :
    0 < precision ∧ c = ⟨precision.toNat, -range, range, true⟩ := by
  unfold context? at given
  split at given
  · rename_i bounds
    exact ⟨bounds.1, (Option.some.inj given).symm⟩
  · cases given

/-- A range at least as wide as the precision has room for every whole number of that length. -/
theorem checked_of_context? {precision range : Int} {c : Decimal.Context}
    (given : context? precision range = some c) (wide : precision ≤ range) : c.Checked := by
  obtain ⟨positive, rfl⟩ := context?_eq_some given
  have precise : 0 < precision.toNat := by omega
  have least : -range ≤ 0 := by omega
  have greatest : (precision.toNat : Int) ≤ range := by omega
  exact ⟨rfl, precise, least, greatest⟩

theorem range_nonneg {precision range : Int} {c : Decimal.Context} (given : context? precision range = some c) :
    0 ≤ range := by
  unfold context? at given
  split at given
  · rename_i bounds
    exact bounds.2.2.1
  · cases given

theorem rounds_of_context? {precision range : Int} {c : Decimal.Context}
    (given : context? precision range = some c) : c.Rounds c.Admits := by
  have wide := range_nonneg given
  obtain ⟨positive, rfl⟩ := context?_eq_some given
  exact Context.rounds_admits rfl (show 0 < precision.toNat by omega) (show -range ≤ 0 by omega) wide

/-- Calls that leave all values finite leave them such as the context admits. -/
theorem values_admitted {c : Decimal.Context} (checked : c.Checked) {library : Registry Decimal}
    (system_eq : library.system = system c) (values : library.Values c.Admits)
    {calls : List Registry.ValueCall}
    (finite : (library.withValues calls).Values (·.isFinite = true)) :
    (library.withValues calls).Values c.Admits := by
  have coerced : (library.withValues calls).Values fun x => x.isFinite = true → c.Admits x := by
    refine Registry.Values.withValues ⟨?_, ?_⟩ ?_ calls
    · exact fun entry member _ => values.constants entry member
    · exact fun entry member _ => values.bindings entry member
    · rw [system_eq]
      exact coerce_yields checked.rounds
  constructor
  · exact fun entry member => coerced.constants entry member (finite.constants entry member)
  · exact fun entry member => coerced.bindings entry member (finite.bindings entry member)

/-- With finite constants and variables, the value of every expression is a finite decimal of at most so
many digits as the precision that is zero or within the range: it is never an infinity, no number or
subnormal. -/
theorem value_fits {precision range : Int} {c : Decimal.Context}
    (given : context? precision range = some c) (wide : precision ≤ range) {draws : Library.Draws}
    {settings : Settings} {library : Registry Decimal}
    (installed : Library.withLibrary draws (system c) settings = .ok library)
    {calls : List Registry.ValueCall}
    (finite : (library.withValues calls).Values (·.isFinite = true)) {source : String}
    {value : Decimal} (evaluated : evaluate (library.withValues calls) source = .ok value) :
    ∃ negative coefficient exponent, value = .finite negative coefficient exponent ∧
      digitCount coefficient ≤ precision ∧
      (coefficient = 0 ∨ -range ≤ value.adjusted ∧ value.adjusted ≤ range) := by
  have checked := checked_of_context? given wide
  have closed := Library.withLibrary_closed (system_closed checked) installed
  have values := values_admitted checked (Library.withLibrary_system installed) closed.values finite
  have admitted : c.Admits value := Evaluation.passes_closed (closed.withValues values)
    (Evaluation.passes_of_evaluate evaluated) value List.mem_cons_self
  obtain ⟨negative, coefficient, exponent, rfl⟩ := isFinite_iff.mp admitted.isFinite
  obtain ⟨positive, rfl⟩ := context?_eq_some given
  obtain ⟨short, within⟩ := admitted
  have digits : (digitCount coefficient : Int) ≤ precision := by
    have length : digitCount coefficient ≤ precision.toNat := short
    omega
  exact ⟨negative, coefficient, exponent, rfl, digits, within⟩

/-- Two thirds to six digits. -/
theorem value_fits_sample : context? 6 6 = some ⟨6, -6, 6, true⟩ ∧ ∃ library,
    Library.withLibrary 0.5 (system ⟨6, -6, 6, true⟩) Settings.standard = .ok library ∧
      (library.withValues [.setVariable "x" (.int 2)]).Values (·.isFinite = true) ∧
      evaluate (library.withValues [.setVariable "x" (.int 2)]) "x / 3" =
        .ok (.finite false 666667 (-6)) ∧
      ∃ negative coefficient exponent,
        Decimal.finite false 666667 (-6) = .finite negative coefficient exponent ∧
        digitCount coefficient ≤ (6 : Int) ∧
        (coefficient = 0 ∨ -6 ≤ (Decimal.finite false 666667 (-6)).adjusted ∧
          (Decimal.finite false 666667 (-6)).adjusted ≤ 6) := by
  have given : context? 6 6 = some ⟨6, -6, 6, true⟩ := rfl
  have computed : (Library.withLibrary 0.5 (system ⟨6, -6, 6, true⟩) Settings.standard).toOption.any
      (fun library =>
        (library.withValues [.setVariable "x" (.int 2)]).constants.all (·.2.2.isFinite) &&
        (library.withValues [.setVariable "x" (.int 2)]).bindings.all (·.2.isFinite) &&
        (evaluate (library.withValues [.setVariable "x" (.int 2)]) "x / 3").toOption ==
          some (.finite false 666667 (-6))) = true := by
    decide +kernel
  obtain ⟨library, found, computed⟩ := (Option.any_eq_true _ _).mp computed
  simp only [Bool.and_eq_true, List.all_eq_true, beq_iff_eq] at computed
  obtain ⟨⟨constants, bindings⟩, valued⟩ := computed
  have installed := eq_ok_of_toOption found
  have evaluated := eq_ok_of_toOption valued
  refine ⟨given, library, installed, ⟨constants, bindings⟩, evaluated, ?_⟩
  exact value_fits given (by decide) installed ⟨constants, bindings⟩ evaluated

end Reckoner.NumberSystem.Decimals

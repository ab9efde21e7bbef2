import Reckoner.Proofs.NumberSystem.DecimalRange

/-! What a decimal context takes in. Host values are rounded to what the precision and the range admit or
refused, but for infinities and what is no number: given as decimals or as texts they come in as they are. -/

namespace Reckoner.NumberSystem.Decimals

open Reckoner.Decimal Reckoner.Numeral

/-- The infinity, or what is no number, that a host value is or that its text says. -/
def special? : Datum → Option Decimal
  | .decimal x => if x.isFinite then none else some x
  | .text text => (Decimal.read? text.toList).filter fun x => !x.isFinite
  | _ => none

variable {c : Decimal.Context}

theorem isFinite_of_create {x : Decimal} (given : x.isFinite = true) :
    Yields (·.isFinite = true) (create c x) := by
  obtain ⟨s, m, e, rfl⟩ := isFinite_iff.mp given
  exact (Context.rounds_isFinite c).finite s m e

theorem ofDouble_isFinite (x : Float) : Yields (·.isFinite = true) (ofDouble c x) := by
  unfold ofDouble
  dsimp only
  split
  · rename_i finite
    refine Yields.mapError ?_ _
    unfold read
    split
    · rename_i found
      exact isFinite_of_create (Decimal.isFinite_of_read? (Binary64.numeric_write finite) found)
    · exact .error _
  · exact .error _

/-- Numbers, floating ones included, and finite decimals, also as texts or as parts, become finite decimals. -/
theorem coerce_isFinite {value : Datum} (plain : special? value = none) :
    Yields (·.isFinite = true) (coerce c value) := by
  cases value with
  | float x => exact ofDouble_isFinite x
  | int n => exact (isFinite_of_create rfl).mapError _
  | bool value =>
    refine (isFinite_of_create ?_).mapError _
    cases value <;> rfl
  | decimal x =>
    refine (isFinite_of_create ?_).mapError _
    rw [special?] at plain
    split at plain
    · assumption
    · cases plain
  | text text =>
    refine Yields.mapError ?_ _
    unfold read
    split
    · rename_i x found
      refine isFinite_of_create ?_
      rw [special?, found] at plain
      simpa using plain
    · exact .error _
  | list values =>
    unfold coerce
    dsimp only
    split
    · rename_i x found
      refine (isFinite_of_create ?_).mapError _
      unfold ofParts? at found
      split at found
      · obtain ⟨digits, _, found⟩ := Option.bind_eq_some_iff.mp found
        split at found
        · cases found
          rfl
        · cases found
      · cases found
    · exact .error _
  | absent => exact .error _
  | complex _ => exact .error _
  | fraction _ _ => exact .error _

/-- An infinity, or what is no number and fits the precision, comes in as it is. -/
theorem create_special {x : Decimal} (special : x.isFinite = false) :
    create c x = .ok x ∨ create c x = .error .invalid := by
  cases x with
  | finite => cases special
  | infinite negative => exact .inl rfl
  | notANumber negative signaling payload =>
    by_cases fits : payload < 10 ^ c.precision
    · exact .inl (if_pos fits)
    · exact .inr (if_neg fits)

theorem coerce_special {value : Datum} {x : Decimal} (special : special? value = some x) :
    coerce c value = .ok x ∨ coerce c value = .error (ofSignal .invalid) := by
  have created (other : x.isFinite = false) :
      reported (create c x) = .ok x ∨ reported (create c x) = .error (ofSignal .invalid) :=
    (create_special other).imp (congrArg reported) (congrArg reported)
  cases value with
  | decimal given =>
    rw [special?] at special
    split at special
    · cases special
    · rename_i other
      cases special
      exact created (Bool.eq_false_iff.mpr other)
  | text text =>
    obtain ⟨found, other⟩ := Option.filter_eq_some_iff.mp special
    have same : coerce c (.text text) = reported (create c x) := by
      rw [coerce, read, found]
    rw [same]
    exact created (by simpa using other)
  | _ => cases special

/-- Whether a decimal is finite, with at most so many digits, and zero or within a symmetric range. -/
def Fitting (precision range : Int) : Decimal → Prop
  | .finite _ coefficient exponent =>
    digitCount coefficient ≤ precision ∧
      (coefficient = 0 ∨ -range ≤ leading coefficient exponent ∧ leading coefficient exponent ≤ range)
  | _ => False

theorem fitting_of_admits {precision range : Int} (given : context? precision range = some c) (x : Decimal)
    (admitted : c.Admits x) : Fitting precision range x := by
  obtain ⟨negative, coefficient, exponent, rfl⟩ := isFinite_iff.mp admitted.isFinite
  obtain ⟨positive, rfl⟩ := context?_eq_some given
  obtain ⟨short, within⟩ := admitted
  refine ⟨?_, within⟩
  have length : digitCount coefficient ≤ precision.toNat := short
  omega

/-- In every context a host value that is no infinity and that is a number is refused or becomes a finite
decimal of the precision and the range, and calls on a new registry that pass only such values leave only
such decimals as its constants and variables, those of an installed library included. The other host values
come in as they are, or are refused as no number that is too long. -/
theorem coerced_fits {precision range : Int} (given : context? precision range = some c) :
    (∀ value, special? value = none → ∀ made, coerce c value = .ok made → Fitting precision range made) ∧
    (∀ value x, special? value = some x →
      coerce c value = .ok x ∨ coerce c value = .error (.report .invalidInput "Invalid decimal operation")) ∧
    ∀ (settings : Settings) (calls : List (Registry.Call Decimal)),
      (∀ call ∈ calls, ∀ value, call.coerced? = some value → special? value = none) →
      (Registry.afterCalls (system c) settings calls).Values (Fitting precision range) := by
  have rounds := rounds_of_context? given
  have fits := fitting_of_admits given
  have admits {value : Datum} (plain : special? value = none) : Yields c.Admits (coerce c value) :=
    fun made coerced => coerce_yields rounds value made coerced (coerce_isFinite plain made coerced)
  refine ⟨fun value plain made coerced => fits made (admits plain made coerced), fun _ _ => coerce_special, ?_⟩
  intro settings calls plain
  have values : (Registry.afterCalls (system c) settings calls).Values c.Admits :=
    Registry.Values.afterCalls settings (constants_admitted rounds)
      fun call member value passed => admits (plain call member value passed)
  exact ⟨fun entry member => fits _ (values.constants entry member),
    fun entry member => fits _ (values.bindings entry member)⟩

/-- A text of three digits at a precision of two, in a range without room for more than two before the point. -/
theorem coerced_fits_sample : context? 2 1 = some ⟨2, -1, 1, true⟩ ∧
    coerce ⟨2, -1, 1, true⟩ (.text "2.55") = .ok (.finite false 26 (-1)) ∧
    Fitting 2 1 (.finite false 26 (-1)) ∧
    coerce ⟨2, -1, 1, true⟩ (.text "-inf") = .ok (.infinite true) ∧
    (Registry.afterCalls (system ⟨2, -1, 1, true⟩) Settings.standard
      [.value (.setVariable "x" (.text "2.55"))]).getVariable? "x" = some (.finite false 26 (-1)) ∧
    (Registry.afterCalls (system ⟨2, -1, 1, true⟩) Settings.standard
      [.value (.setVariable "x" (.text "2.55"))]).Values (Fitting 2 1) := by
  have given : context? 2 1 = some ⟨2, -1, 1, true⟩ := rfl
  have made : coerce ⟨2, -1, 1, true⟩ (.text "2.55") = .ok (.finite false 26 (-1)) :=
    eq_ok_of_toOption (by with_unfolding_all decide)
  have infinite : coerce ⟨2, -1, 1, true⟩ (.text "-inf") = .ok (.infinite true) :=
    eq_ok_of_toOption (by with_unfolding_all decide)
  obtain ⟨fits, _, kept⟩ := coerced_fits given
  have plain : special? (.text "2.55") = none := by with_unfolding_all decide
  refine ⟨given, made, fits _ plain _ made, infinite, by with_unfolding_all decide, kept _ _ ?_⟩
  intro call member value passed
  rw [List.mem_singleton.mp member] at passed
  cases passed
  exact plain

/-- No number and infinity, as texts, get among the variables and constants. -/
theorem special_coerced : context? 28 defaultRange = some ⟨28, -999999, 999999, true⟩ ∧
    coerce ⟨28, -999999, 999999, true⟩ (.text "NaN") = .ok (.notANumber false false 0) ∧
    (Registry.afterCalls (system ⟨28, -999999, 999999, true⟩) Settings.standard
      [.value (.setVariable "x" (.text "NaN"))]).getVariable? "x" = some (.notANumber false false 0) ∧
    (Registry.afterCalls (system ⟨28, -999999, 999999, true⟩) Settings.standard
      [.value (.addConstant "y" (.text "Infinity") false)]).getConstant? "y" = some (.infinite false) :=
  ⟨rfl, eq_ok_of_toOption (by with_unfolding_all decide), by with_unfolding_all decide, by with_unfolding_all decide⟩

end Reckoner.NumberSystem.Decimals

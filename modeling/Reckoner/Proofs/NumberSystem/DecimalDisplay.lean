import Reckoner.Proofs.Decimal.Normalize
import Reckoner.Proofs.Decimal.Numerals
import Reckoner.Proofs.Library.Literals
import Reckoner.Proofs.NumberSystem.DecimalRange

/-! Decimals as they are shown. The text of a decimal is a literal, behind a minus if the decimal is
negative. With the digits that it shows it fits the precision and the range, so it is read without rounding
and its value is the number that was shown. -/

namespace Reckoner.NumberSystem.Decimals

open Reckoner.Decimal Reckoner.Numeral

variable {c : Decimal.Context} {negative : Bool} {coefficient : Nat} {exponent : Int}

/-! ### Texts -/

/-- Written out by its places or in its usual form, a decimal that fits is a numeral that fits. -/
theorem exists_shown (admitted : c.Admits (finite negative coefficient exponent)) :
    ∃ text m e, (if (finite negative coefficient exponent).adjusted.natAbs < c.precision then
        (finite negative coefficient exponent).writePositional
        else (finite negative coefficient exponent).write) = signText negative ++ String.ofList text ∧
      Spells text m e ∧ c.Admits (finite negative m e) ∧
      rational? (finite negative m e) = rational? (finite negative coefficient exponent) := by
  by_cases near : (finite negative coefficient exponent).adjusted.natAbs < c.precision
  · obtain ⟨text, written, spells⟩ := writePositional_finite negative coefficient exponent
    refine ⟨text, _, _, by rw [if_pos near, written], spells, ?_, ?_⟩
    · obtain ⟨short, within⟩ := admitted
      by_cases zero : coefficient = 0
      · rw [zero] at short ⊢
        rw [Nat.zero_mul]
        exact ⟨short, .inl rfl⟩
      · have places : leading (coefficient * 10 ^ exponent.toNat) (exponent - exponent.toNat) =
            leading coefficient exponent := by
          rw [leading_mul_pow zero, Int.sub_add_cancel]
        refine ⟨?_, .inr ?_⟩
        · simp only [adjusted, leading] at near
          rw [digitCount_mul_pow zero]
          omega
        · rw [places]
          exact within.resolve_left zero
    · rw [rational?_mul_pow, Int.sub_add_cancel]
  · obtain ⟨text, written, spells⟩ := write_finite negative coefficient exponent
    exact ⟨text, _, _, by rw [if_neg near, written], spells, admitted, rfl⟩

/-- The text of a decimal is a numeral of the same number, that fits precision and range. -/
theorem exists_format (precise : 0 < c.precision) (significant : Significant c.precision coefficient)
    (within : coefficient = 0 ∨
      c.least ≤ leading coefficient exponent ∧ leading coefficient exponent ≤ c.greatest) :
    ∃ text m e, (system c).format (finite negative coefficient exponent) =
        .ok (signText negative ++ String.ofList text) ∧
      Spells text m e ∧ c.Admits (finite negative m e) ∧
      rational? (finite negative m e) = rational? (finite negative coefficient exponent) := by
  obtain ⟨n, places, normalized, same, admitted⟩ :=
    @Context.normalize_eq c negative coefficient exponent precise significant within
  obtain ⟨text, m, e, written, spells, fits, kept⟩ := exists_shown admitted
  refine ⟨text, m, e, ?_, spells, fits, kept.trans same⟩
  have computed : raw (c.normalize (finite negative coefficient exponent)) = .ok (finite negative n places) := by
    rw [normalized]
    rfl
  show format c (finite negative coefficient exponent) = _
  rw [← written, format, computed]
  exact (apply_ite Except.ok _ _ _).symm

/-! ### Values of texts -/

theorem parse_spelled {text : List Char} (spells : Spells text coefficient exponent)
    (admitted : c.Admits (finite false coefficient exponent)) :
    ∃ places, (system c).parse text = .ok (finite false coefficient places) ∧
      rational? (finite false coefficient places) = rational? (finite false coefficient exponent) ∧
      c.Admits (finite false coefficient places) := by
  obtain ⟨places, finished, same, fits⟩ := Context.exists_finishFinite admitted
  refine ⟨places, ?_, same, fits⟩
  have found : read c text = .ok (finite false coefficient places) := by
    rw [read, spells.read?_eq]
    exact finished
  show parse c text = _
  rw [parse, found]
  rfl

theorem evaluate_spelled {draws : Library.Draws} {library : Registry Decimal}
    (installed : Library.withLibrary draws (system c) Settings.standard = .ok library)
    {text : List Char} (spells : Spells text coefficient exponent)
    (admitted : c.Admits (finite negative coefficient exponent)) :
    ∃ value, evaluate library (signText negative ++ String.ofList text) = .ok value ∧
      value.rational? = rational? (finite negative coefficient exponent) := by
  have whole : ((system c).literals.span text).1 = text := congrArg Prod.fst spells.span_eq
  obtain ⟨places, parsed, same, fits⟩ := parse_spelled spells admitted
  cases negative with
  | false =>
    refine ⟨_, ?_, same⟩
    rw [signText, if_neg (by decide), String.empty_append]
    exact Library.evaluate_literal_eq_ok installed whole spells.ne_nil parsed
  | true =>
    obtain ⟨value, opposite, negated⟩ := Context.exists_neg fits
    refine ⟨value, ?_, ?_⟩
    · have reported : (system c).neg (finite false coefficient places) = .ok value := by
        show reported (c.neg _) = _
        rw [opposite]
        rfl
      have minus : signText true ++ String.ofList text = String.ofList ('-' :: text) := by
        rw [String.ofList_cons]
        rfl
      rw [minus]
      exact Library.evaluate_minus_eq_ok installed whole spells.ne_nil rfl parsed reported
    · rw [negated, rational?_negative, same, ← rational?_negative]

/-- What is shown of a decimal reads back: for a precision and a range that a context can have and for a
decimal of no more digits than the precision, zeros at the end aside, that is zero or within the range, the
value of its text is the same number. -/
theorem format_reads_back {precision range : Int} (given : context? precision range = some c) {draws : Library.Draws}
    {library : Registry Decimal}
    (installed : Library.withLibrary draws (system c) Settings.standard = .ok library)
    (significant : Significant precision.toNat coefficient)
    (within : coefficient = 0 ∨ -range ≤ (finite negative coefficient exponent).adjusted ∧
      (finite negative coefficient exponent).adjusted ≤ range) :
    ∃ text value, (system c).format (finite negative coefficient exponent) = .ok text ∧
      evaluate library text = .ok value ∧
      value.rational? = rational? (finite negative coefficient exponent) := by
  obtain ⟨positive, rfl⟩ := context?_eq_some given
  have precise : 0 < precision.toNat := by omega
  obtain ⟨text, m, e, shown, spells, admitted, same⟩ :=
    exists_format (c := ⟨precision.toNat, -range, range, true⟩) precise significant within
  obtain ⟨value, evaluated, kept⟩ := evaluate_spelled installed spells admitted
  exact ⟨_, value, shown, evaluated, kept.trans same⟩

/-- Minus one and a half million to six digits. -/
theorem format_reads_back_million : context? 6 6 = some ⟨6, -6, 6, true⟩ ∧ Significant 6 1500 ∧
    (-6 ≤ (finite true 1500 3).adjusted ∧ (finite true 1500 3).adjusted ≤ 6) ∧ ∃ library,
    Library.withLibrary 0.5 (system ⟨6, -6, 6, true⟩) Settings.standard = .ok library ∧
      (system ⟨6, -6, 6, true⟩).format (finite true 1500 3) = .ok "-1.5E+6" ∧
      ∃ value, evaluate library "-1.5E+6" = .ok value ∧ value.rational? = some (-1500000) := by
  have given : context? 6 6 = some ⟨6, -6, 6, true⟩ := rfl
  have significant : Significant 6 1500 := ⟨15, 2, rfl, by decide +kernel⟩
  have within : -6 ≤ (finite true 1500 3).adjusted ∧ (finite true 1500 3).adjusted ≤ 6 := by
    decide +kernel
  have filled : (Library.withLibrary 0.5 (system ⟨6, -6, 6, true⟩) Settings.standard).toOption.isSome =
      true := by decide +kernel
  obtain ⟨library, found⟩ := Option.isSome_iff_exists.mp filled
  have installed := eq_ok_of_toOption found
  have million : (system ⟨6, -6, 6, true⟩).format (finite true 1500 3) = .ok "-1.5E+6" :=
    eq_ok_of_toOption (by decide +kernel)
  obtain ⟨text, value, shown, evaluated, same⟩ :=
    format_reads_back given installed significant (.inr within)
  cases million.symm.trans shown
  refine ⟨given, significant, within, library, installed, million, value, evaluated, same.trans ?_⟩
  norm_num [rational?]

end Reckoner.NumberSystem.Decimals

import Reckoner.Proofs.Library.Literals
import Reckoner.Proofs.NumberSystem.IntegerRange
import Reckoner.Proofs.Text.Digits

/-! Whole numbers of a bounded width as they are shown. The text of a number is a literal, behind a minus if
the number is negative, and its value is the number again. Only the literal of the least number is not read,
as it is beyond the greatest one. -/

namespace Reckoner.NumberSystem.Integer

open Reckoner.Numeral

variable {bits : Nat}

instance (bits : Nat) (n : Int) : Decidable (InRange bits n) :=
  inferInstanceAs (Decidable (-2 ^ (bits - 1) ≤ n ∧ n ≤ 2 ^ (bits - 1) - 1))

/-! ### Texts -/

theorem toString_of_nonneg {v : Int} (positive : 0 ≤ v) :
    toString v = String.ofList (toString v.natAbs).toList := by
  obtain ⟨n, rfl⟩ := Int.eq_ofNat_of_zero_le positive
  rw [String.ofList_toList]
  rfl

theorem toString_of_neg {v : Int} (negative : v < 0) :
    toString v = String.ofList ('-' :: (toString v.natAbs).toList) := by
  obtain ⟨n, rfl⟩ := Int.eq_negSucc_of_lt_zero negative
  rw [String.ofList_cons, String.ofList_toList]
  rfl

theorem digitCount_of_narrow (narrow : bits ≤ 14000) {n : Nat} (bounded : n ≤ 2 ^ (bits - 1)) :
    digitCount n ≤ digitLimit := by
  -- Twenty-three bits are less than seven digits.
  obtain ⟨count, enough, few⟩ : ∃ count, 13999 ≤ 23 * count ∧ 7 * count < digitLimit :=
    ⟨609, by decide, by decide⟩
  have decimal : 2 ^ (23 * count) ≤ 10 ^ (7 * count) := by
    rw [Nat.pow_mul, Nat.pow_mul]
    exact Nat.pow_le_pow_left (by decide) count
  have within : n < 10 ^ digitLimit := calc
    n ≤ 2 ^ (bits - 1) := bounded
    _ ≤ 2 ^ (23 * count) := Nat.pow_le_pow_right (by decide) (by omega)
    _ ≤ 10 ^ (7 * count) := decimal
    _ < 10 ^ digitLimit := Nat.pow_lt_pow_right (by decide) few
  exact (digitCount_le_iff (by decide)).mpr within

theorem natAbs_of_inRange {v : Int} (fits : InRange bits v) : v.natAbs ≤ 2 ^ (bits - 1) := by
  obtain ⟨least, greatest⟩ := fits
  have power : ((2 ^ (bits - 1) : Nat) : Int) = 2 ^ (bits - 1) := Int.natCast_pow 2 _
  omega

theorem format_eq (narrow : bits ≤ 14000) {v : Int} (fits : InRange bits v) :
    (system ⟨some bits⟩).format v = .ok (toString v) := by
  have short := digitCount_of_narrow narrow (natAbs_of_inRange fits)
  show writeInt v = _
  rw [writeInt, write?, if_pos short]

/-! ### Literals -/

theorem span_toString (n : Nat) : (LiteralStyle.integer.span (toString n).toList).1 = (toString n).toList :=
  congrArg Prod.fst (spanDigits_whole (.toString n))

theorem parse_toString {n : Nat} (short : digitCount n ≤ digitLimit)
    (bounded : (n : Int) ≤ 2 ^ (bits - 1) - 1) :
    parse ⟨some bits⟩ (toString n).toList = .ok (n : Int) := by
  have within : ¬ ((2 ^ (bits - 1) : Nat) : Int) - 1 < n := by
    push_cast
    omega
  simp only [parse, read, read?_toString short, Width.bounds?, Option.map_some, bind, Except.bind,
    if_neg within]
  rfl

theorem parse_toString_beyond {n : Nat} (short : digitCount n ≤ digitLimit)
    (beyond : (2 : Int) ^ (bits - 1) ≤ n) :
    parse ⟨some bits⟩ (toString n).toList =
      .error (.unsuitable ("Integer literal " ++ toString n ++ " does not fit in " ++ toString bits ++ " bits")) := by
  have above : ((2 ^ (bits - 1) : Nat) : Int) - 1 < n := by
    push_cast
    omega
  simp only [parse, read, read?_toString short, Width.bounds?, Option.map_some, bind, Except.bind,
    if_pos above, String.ofList_toList]
  rfl

/-! ### Values of texts -/

section Installed

variable {draws : Library.Draws} {library : Registry Int}
  (installed : Library.withLibrary draws (system ⟨some bits⟩) Settings.standard = .ok library)

include installed

theorem evaluate_toString_of_nonneg (narrow : bits ≤ 14000) {v : Int} (fits : InRange bits v)
    (positive : 0 ≤ v) : evaluate library (toString v) = .ok v := by
  have short := digitCount_of_narrow narrow (natAbs_of_inRange fits)
  have same : (v.natAbs : Int) = v := Int.natAbs_of_nonneg positive
  have bounded : (v.natAbs : Int) ≤ 2 ^ (bits - 1) - 1 := same ▸ fits.2
  have parsed : (system ⟨some bits⟩).parse (toString v.natAbs).toList = .ok v := by
    rw [← same]
    exact parse_toString short bounded
  rw [toString_of_nonneg positive]
  exact Library.evaluate_literal_eq_ok installed (span_toString _) (toString_ne_nil _) parsed

/-- The minus is not part of the literal, so its number is read first and negated then. -/
theorem evaluate_toString_of_neg (narrow : bits ≤ 14000) {v : Int} (fits : InRange bits v)
    (negative : v < 0) (inner : v ≠ -2 ^ (bits - 1)) : evaluate library (toString v) = .ok v := by
  have short := digitCount_of_narrow narrow (natAbs_of_inRange fits)
  have same : -(v.natAbs : Int) = v := by omega
  have bounded : (v.natAbs : Int) ≤ 2 ^ (bits - 1) - 1 := by
    obtain ⟨least, _⟩ := fits
    omega
  have negated : (system ⟨some bits⟩).neg v.natAbs = .ok v := by
    show check ⟨some bits⟩ (-(v.natAbs : Int)) "result" = _
    rw [same, check_of_inRange fits]
  rw [toString_of_neg negative]
  exact Library.evaluate_minus_eq_ok installed (span_toString _) (toString_ne_nil _) rfl
    (parse_toString short bounded) negated

theorem evaluate_toString_least (narrow : bits ≤ 14000) :
    evaluate library (toString (-2 ^ (bits - 1) : Int)) =
      .error (.described ⟨.invalidExpression, "Invalid number '" ++ toString (2 ^ (bits - 1)) ++ "'",
        some 1, some (toString (-2 ^ (bits - 1) : Int))⟩) := by
  have short := digitCount_of_narrow narrow (Nat.le_refl (2 ^ (bits - 1)))
  have negative : (-2 ^ (bits - 1) : Int) < 0 := by
    have power : (0 : Int) < 2 ^ (bits - 1) := Int.pow_pos (by decide)
    omega
  have magnitude : (-2 ^ (bits - 1) : Int).natAbs = 2 ^ (bits - 1) := by
    rw [Int.natAbs_neg, Int.natAbs_pow]
    rfl
  have beyond : (2 : Int) ^ (bits - 1) ≤ (2 ^ (bits - 1) : Nat) := by
    push_cast
    exact Int.le_refl _
  have refused := parse_toString_beyond short beyond
  have reported := Library.evaluate_minus_of_unsuitable installed (span_toString _) (toString_ne_nil _)
    rfl refused
  rwa [String.ofList_toList, ← magnitude, ← toString_of_neg negative, magnitude] at reported

end Installed

/-- The library can be installed for three bits or more, and up to 14000 bits every number has a text whose
value is the number, except that the literal of the least number is refused. -/
theorem format_reads_back_unless_least (bits : Nat) (wide : 3 ≤ bits) (narrow : bits ≤ 14000) (draws : Library.Draws) :
    ∃ library, Library.withLibrary draws (system ⟨some bits⟩) Settings.standard = .ok library ∧
      ∀ v, InRange bits v → ∃ text, (system ⟨some bits⟩).format v = .ok text ∧
        evaluate library text =
          if v = -2 ^ (bits - 1) then
            .error (.described ⟨.invalidExpression,
              "Invalid number '" ++ toString (2 ^ (bits - 1)) ++ "'", some 1, some text⟩)
          else .ok v := by
  obtain ⟨library, installed⟩ := withLibrary_of_roomy (Width.roomy_of_le wide) draws Settings.standard
  refine ⟨library, installed, fun v fits => ⟨toString v, format_eq narrow fits, ?_⟩⟩
  by_cases least : v = -2 ^ (bits - 1)
  · rw [if_pos least, least]
    exact evaluate_toString_least installed narrow
  · rw [if_neg least]
    rcases Int.lt_or_le v 0 with negative | positive
    · exact evaluate_toString_of_neg installed narrow fits negative least
    · exact evaluate_toString_of_nonneg installed narrow fits positive

/-- The greatest number and the one after the least of three bits. -/
theorem format_reads_back_three_bits : 3 ≤ 3 ∧ 3 ≤ 14000 ∧ InRange 3 3 ∧ InRange 3 (-3) ∧
    ∃ library, Library.withLibrary 0.5 (system ⟨some 3⟩) Settings.standard = .ok library ∧
      (system ⟨some 3⟩).format 3 = .ok "3" ∧ evaluate library "3" = .ok 3 ∧
      (system ⟨some 3⟩).format (-3) = .ok "-3" ∧ evaluate library "-3" = .ok (-3) := by
  obtain ⟨library, installed, reads⟩ := format_reads_back_unless_least 3 (by decide) (by decide) 0.5
  have greatest : InRange 3 3 := by decide
  have second : InRange 3 (-3) := by decide
  refine ⟨by decide, by decide, greatest, second, library, installed, ?_⟩
  obtain ⟨text, shown, read⟩ := reads 3 greatest
  obtain ⟨other, displayed, evaluated⟩ := reads (-3) second
  have three : (system ⟨some 3⟩).format 3 = .ok "3" := format_eq (by decide) greatest
  have negative : (system ⟨some 3⟩).format (-3) = .ok "-3" := format_eq (by decide) second
  cases three.symm.trans shown
  cases negative.symm.trans displayed
  exact ⟨three, read, negative, evaluated⟩

/-- With three bits the text of minus four is not read: its digits are the literal of four, which does
not fit. -/
theorem least_not_read_back : InRange 3 (-4) ∧ (system ⟨some 3⟩).format (-4) = .ok "-4" ∧
    ∃ library, Library.withLibrary 0.5 (system ⟨some 3⟩) Settings.standard = .ok library ∧
      evaluate library "-4" =
        .error (.described ⟨.invalidExpression, "Invalid number '4'", some 1, some "-4"⟩) := by
  have least : InRange 3 (-4) := by decide
  obtain ⟨library, installed⟩ := withLibrary_of_roomy (Width.roomy_of_le (Nat.le_refl 3)) 0.5 Settings.standard
  refine ⟨least, format_eq (by decide) least, library, installed, ?_⟩
  exact evaluate_toString_least installed (by decide)

end Reckoner.NumberSystem.Integer

import Reckoner.Decimal.Text
import Reckoner.Proofs.Text.Digits

/-! The numerals that decimals are written as: digits with a point among them or none, and an exponent
behind them or none. Each is one literal, and it is read as its digits at the place that the point and the
exponent give them, which is what was written. -/

namespace Reckoner.Decimal

open Reckoner.Unicode Reckoner.Numeral

/-- The exponent behind the digits, if it is written. -/
def exponentTail : Option Int → List Char
  | none => []
  | some exponent => (writeExponent 'E' exponent).toList

/-- Digits with a point before the last `places` of them, and with an exponent. -/
def numeral (digits : List Char) (places : Nat) (exponent : Option Int) : List Char :=
  pointed digits places ++ exponentTail exponent

/-- The sign of an exponent, which is always written. -/
def exponentSign (exponent : Int) : Char := if exponent < 0 then '-' else '+'

theorem exponentTail_some (exponent : Int) : exponentTail (some exponent) =
    'E' :: exponentSign exponent :: (toString exponent.natAbs).toList := by
  simp only [exponentTail, writeExponent, exponentSign, String.toList_append, String.toList_singleton]
  split <;> rfl

theorem exponentTail_head (exponent : Option Int) :
    ∀ c ∈ (exponentTail exponent).head?, isDecimalDigit c = false ∧ c ≠ '.' := by
  cases exponent with
  | none => exact nofun
  | some exponent =>
    rw [exponentTail_some]
    rintro _ ⟨⟩
    exact ⟨by decide, by decide⟩

variable {digits : List Char}

/-- The digits before the point and those behind it, with zeros in front if there are too few. -/
theorem pointed_parts (all : IsDigits digits) (some : digits ≠ []) (places : Nat) :
    ∃ whole fraction, whole ≠ [] ∧ IsDigits whole ∧ IsDigits fraction ∧ fraction.length = places ∧
      Scientific.digitsValue (whole ++ fraction) = Scientific.digitsValue digits ∧
      pointed digits places = whole ++ if places = 0 then [] else '.' :: fraction := by
  by_cases none : places = 0
  · refine ⟨digits, [], some, all, nofun, none.symm, by rw [List.append_nil], ?_⟩
    rw [pointed, if_pos none, if_pos none, List.append_nil]
  · let padded := List.replicate (places + 1 - digits.length) '0' ++ digits
    have every : IsDigits padded := (IsDigits.replicate_zero _).append all
    have length : places < padded.length := by
      simp only [padded, List.length_append, List.length_replicate]
      omega
    refine ⟨padded.take (padded.length - places), padded.drop (padded.length - places), ?_,
      every.take _, every.drop _, ?_, ?_, ?_⟩
    · refine List.ne_nil_of_length_pos ?_
      rw [List.length_take]
      omega
    · rw [List.length_drop]
      omega
    · rw [List.take_append_drop, Scientific.digitsValue_of_isDigits every,
        Scientific.digitsValue_of_isDigits all, Nat.ofDigitChars_append,
        Nat.ofDigitChars_replicate_zero, Nat.mul_zero]
    · rw [pointed, if_neg none, if_neg none]

/-! ### Literals -/

theorem spanSignificand_pointed (all : IsDigits digits) (some : digits ≠ []) (places : Nat)
    {tail : List Char} (stop : ∀ c ∈ tail.head?, isDecimalDigit c = false ∧ c ≠ '.') :
    LiteralStyle.spanSignificand (pointed digits places ++ tail) = (pointed digits places, tail) := by
  obtain ⟨whole, fraction, nonempty, left, right, _, _, shape⟩ := pointed_parts all some places
  have ends : ∀ c ∈ tail.head?, isDecimalDigit c = false := fun c first => (stop c first).1
  rw [shape]
  by_cases none : places = 0
  · rw [if_pos none, List.append_nil, LiteralStyle.spanSignificand, spanDigits_of_isDigits left ends]
    cases tail with
    | nil => rfl
    | cons c rest =>
      have other : c ≠ '.' := (stop c rfl).2
      simp [other]
  · have point : ∀ c ∈ ('.' :: fraction ++ tail).head?, isDecimalDigit c = false := by
      rintro _ ⟨⟩
      decide
    rw [if_neg none, List.append_assoc, LiteralStyle.spanSignificand, spanDigits_of_isDigits left point]
    simp [spanDigits_of_isDigits right ends, nonempty]

theorem spanExponent_exponentTail (exponent : Option Int) :
    LiteralStyle.spanExponent (exponentTail exponent) = (exponentTail exponent, []) := by
  cases exponent with
  | none => rfl
  | some exponent =>
    have whole : spanDigits (toString exponent.natAbs).toList = ((toString exponent.natAbs).toList, []) :=
      spanDigits_whole (.toString _)
    have signed : LiteralStyle.spanSign (exponentSign exponent :: (toString exponent.natAbs).toList) =
        ([exponentSign exponent], (toString exponent.natAbs).toList) := by
      unfold exponentSign
      split <;> rfl
    rw [exponentTail_some, LiteralStyle.spanExponent]
    simp only [signed, whole]
    simp

theorem pointed_ne_nil (all : IsDigits digits) (some : digits ≠ []) (places : Nat) :
    pointed digits places ≠ [] := by
  obtain ⟨whole, fraction, nonempty, _, _, _, _, shape⟩ := pointed_parts all some places
  rw [shape]
  exact List.append_ne_nil_of_left_ne_nil nonempty _

theorem span_numeral (all : IsDigits digits) (some : digits ≠ []) (places : Nat)
    (exponent : Option Int) :
    LiteralStyle.decimal.span (numeral digits places exponent) = (numeral digits places exponent, []) := by
  have significand := spanSignificand_pointed all some places (exponentTail_head exponent)
  rw [LiteralStyle.span, LiteralStyle.spanDecimal, numeral]
  simp only [significand, spanExponent_exponentTail]
  simp [pointed_ne_nil all some]

/-! ### Values -/

theorem readExponent?_exponentTail (exponent : Int) :
    Scientific.readExponent? (exponentSign exponent :: (toString exponent.natAbs).toList) =
      some exponent := by
  have decimal : (toString exponent.natAbs).toList.all isDecimalDigit = true :=
    List.all_eq_true.mpr fun c member => isDecimalDigit_of_isDigit (IsDigits.toString _ c member)
  have written : (toString exponent.natAbs).toList.isEmpty = false :=
    List.isEmpty_eq_false_iff.mpr (toString_ne_nil _)
  unfold Scientific.readExponent? exponentSign
  by_cases negative : exponent < 0
  · have signed : -(exponent.natAbs : Int) = exponent := by omega
    simp only [if_pos negative, decimal, written, Scientific.digitsValue_toString, Bool.not_true,
      Bool.or_self, Bool.false_eq_true, if_false, if_true, signed]
  · have signed : (exponent.natAbs : Int) = exponent := by omega
    simp only [if_neg negative, decimal, written, Scientific.digitsValue_toString, Bool.not_true,
      Bool.or_self, Bool.false_eq_true, if_false, signed]

theorem read?_numeral (all : IsDigits digits) (some : digits ≠ []) (places : Nat)
    (exponent : Option Int) :
    Scientific.read? (numeral digits places exponent) =
      .some ⟨Scientific.digitsValue digits, exponent.getD 0 - places⟩ := by
  obtain ⟨whole, fraction, nonempty, left, right, length, value, shape⟩ := pointed_parts all some places
  have ends : ∀ c ∈ (exponentTail exponent).head?, isDecimalDigit c = false :=
    fun c first => (exponentTail_head exponent c first).1
  rw [numeral, shape, ← value]
  by_cases none : places = 0
  · obtain rfl : fraction = [] := List.eq_nil_of_length_eq_zero (length.trans none)
    rw [if_pos none, List.append_nil, none, Scientific.read?, spanDigits_of_isDigits left ends]
    cases exponent with
    | none => simp [exponentTail, nonempty]
    | some exponent =>
      simpa [exponentTail_some, nonempty] using readExponent?_exponentTail exponent
  · have point : ∀ c ∈ ('.' :: (fraction ++ exponentTail exponent)).head?, isDecimalDigit c = false := by
      rintro _ ⟨⟩
      decide
    rw [if_neg none, List.append_assoc, List.cons_append, Scientific.read?,
      spanDigits_of_isDigits left point]
    simp only [spanDigits_of_isDigits right ends, length]
    cases exponent with
    | none => simp [exponentTail, nonempty]
    | some exponent =>
      simpa [exponentTail_some, nonempty] using readExponent?_exponentTail exponent

/-- A numeral has no sign, so it is read as a decimal that is not negative. -/
theorem read?_of_numeral (all : IsDigits digits) (some : digits ≠ []) (places : Nat)
    (exponent : Option Int) :
    Decimal.read? (numeral digits places exponent) =
      .some (finite false (Scientific.digitsValue digits) (exponent.getD 0 - places)) := by
  have unsigned : Scientific.splitSign (numeral digits places exponent) =
      (false, numeral digits places exponent) := by
    obtain ⟨whole, fraction, nonempty, left, _, _, _, shape⟩ := pointed_parts all some places
    obtain ⟨c, rest, rfl⟩ := List.exists_cons_of_ne_nil nonempty
    have digit : c.isDigit = true := left c List.mem_cons_self
    rw [numeral, shape]
    simp only [List.cons_append]
    unfold Scientific.splitSign
    split
    · rename_i same
      cases same
      cases digit
    · rename_i same
      cases same
      cases digit
    · rfl
  rw [Decimal.read?, unsigned]
  simp only [read?_numeral all some]

/-! ### What is written of decimals -/

/-- Whether a text is a numeral for a coefficient and an exponent. -/
def Spells (text : List Char) (coefficient : Nat) (exponent : Int) : Prop :=
  ∃ digits places tail, IsDigits digits ∧ digits ≠ [] ∧ text = numeral digits places tail ∧
    Scientific.digitsValue digits = coefficient ∧ tail.getD 0 - (places : Int) = exponent

namespace Spells

variable {text : List Char} {coefficient : Nat} {exponent : Int}

theorem span_eq (spells : Spells text coefficient exponent) :
    LiteralStyle.decimal.span text = (text, []) := by
  obtain ⟨digits, places, tail, all, some, rfl, _, _⟩ := spells
  exact span_numeral all some places tail

theorem ne_nil (spells : Spells text coefficient exponent) : text ≠ [] := by
  obtain ⟨digits, places, tail, all, some, rfl, _, _⟩ := spells
  exact List.append_ne_nil_of_left_ne_nil (pointed_ne_nil all some places) _

theorem read?_eq (spells : Spells text coefficient exponent) :
    Decimal.read? text = some (finite false coefficient exponent) := by
  obtain ⟨digits, places, tail, all, some, rfl, rfl, rfl⟩ := spells
  exact read?_of_numeral all some places tail

end Spells

theorem write_finite (negative : Bool) (coefficient : Nat) (exponent : Int) :
    ∃ text, write (finite negative coefficient exponent) = signText negative ++ String.ofList text ∧
      Spells text coefficient exponent := by
  have digits := IsDigits.toString coefficient
  have some := toString_ne_nil coefficient
  have length : 0 < (toString coefficient).toList.length := List.length_pos_iff.mpr some
  by_cases plain : exponent ≤ 0 ∧ -6 ≤ exponent + (toString coefficient).toList.length - 1
  · refine ⟨numeral (toString coefficient).toList (-exponent).toNat none, ?_, _, _, _, digits, some, rfl,
      Scientific.digitsValue_toString coefficient, ?_⟩
    · simp only [write, if_pos plain, numeral, exponentTail, List.append_nil]
    · simp only [Option.getD_none]
      omega
  · refine ⟨numeral (toString coefficient).toList ((toString coefficient).toList.length - 1)
      (.some (exponent + (toString coefficient).toList.length - 1)), ?_, _, _, _, digits, some, rfl,
      Scientific.digitsValue_toString coefficient, ?_⟩
    · simp only [write, if_neg plain, numeral, exponentTail, scientific, String.ofList_append,
        String.ofList_toList]
    · simp only [Option.getD_some]
      omega

theorem writePositional_finite (negative : Bool) (coefficient : Nat) (exponent : Int) :
    ∃ text, writePositional (finite negative coefficient exponent) =
        signText negative ++ String.ofList text ∧
      Spells text (coefficient * 10 ^ exponent.toNat) (exponent - exponent.toNat) := by
  have digits := IsDigits.toString coefficient
  have some := toString_ne_nil coefficient
  have value := Scientific.digitsValue_toString coefficient
  by_cases whole : 0 ≤ exponent
  · have padded : IsDigits ((toString coefficient).toList ++ List.replicate exponent.toNat '0') :=
      digits.append (.replicate_zero _)
    have same : exponent - exponent.toNat = 0 := by omega
    by_cases zero : coefficient = 0
    · refine ⟨numeral (toString coefficient).toList 0 none, ?_, _, _, _, digits, some, rfl, ?_, same.symm⟩
      · simp only [writePositional, if_pos whole, if_pos zero, numeral, pointed, exponentTail, if_true,
          List.append_nil]
      · rw [value, zero, Nat.zero_mul]
    · refine ⟨numeral ((toString coefficient).toList ++ List.replicate exponent.toNat '0') 0 none, ?_, _, _,
        _, padded, List.append_ne_nil_of_left_ne_nil some _, rfl, ?_, same.symm⟩
      · simp only [writePositional, if_pos whole, if_neg zero, numeral, pointed, exponentTail, if_true,
          List.append_nil]
      · rw [Scientific.digitsValue_of_isDigits digits] at value
        rw [Scientific.digitsValue_of_isDigits padded, Nat.ofDigitChars_append, value,
          Nat.ofDigitChars_replicate_zero, Nat.mul_comm]
  · have none : exponent.toNat = 0 := by omega
    refine ⟨numeral (toString coefficient).toList (-exponent).toNat .none, ?_, _, _, _, digits, some, rfl, ?_,
      ?_⟩
    · simp only [writePositional, if_neg whole, numeral, exponentTail, List.append_nil]
    · rw [value, none, Nat.pow_zero, Nat.mul_one]
    · simp only [Option.getD_none]
      omega

end Reckoner.Decimal

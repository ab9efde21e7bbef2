import Reckoner.Decimal.Arithmetic
import Reckoner.Proofs.Decimal.Rounding
import Mathlib.Algebra.Order.Field.Rat
import Mathlib.Tactic.NormNum

/-! Zeros at the end of a coefficient. They may be moved to the exponent and back, which changes neither the
number nor the place of its first digit, so a context that has room for the digits before them keeps the
number, and so does normalizing. -/

namespace Reckoner.Decimal

open Reckoner.Numeral

/-- The rational number that a decimal is, if it is finite. -/
def rational? : Decimal → Option ℚ
  | finite negative coefficient exponent =>
    some ((if negative then -1 else 1) * (coefficient * 10 ^ exponent))
  | _ => none

/-- Whether a number has at most so many digits before the zeros at its end. -/
def Significant (count n : Nat) : Prop := ∃ m zeros, n = m * 10 ^ zeros ∧ digitCount m ≤ count

/-! ### Zeros at the end of a coefficient -/

theorem digitCount_mul_pow {n : Nat} (positive : n ≠ 0) (zeros : Nat) :
    digitCount (n * 10 ^ zeros) = digitCount n + zeros := by
  have some := digitCount_pos n
  have above := Nat.mul_le_mul_right (10 ^ zeros) (pow_digitCount_le positive)
  have below := Nat.mul_lt_mul_of_pos_right (lt_pow_digitCount n) (Nat.pow_pos (n := zeros) (by decide : 0 < 10))
  rw [← Nat.pow_add] at above below
  have places : digitCount n - 1 + zeros = digitCount n + zeros - 1 := by omega
  rw [places] at above
  exact digitCount_eq (by omega) above below

theorem leading_mul_pow {n : Nat} (positive : n ≠ 0) (zeros : Nat) (exponent : Int) :
    leading (n * 10 ^ zeros) exponent = leading n (exponent + zeros) := by
  rw [leading, leading, digitCount_mul_pow positive]
  omega

theorem rational?_negative (coefficient : Nat) (exponent : Int) :
    rational? (finite true coefficient exponent) =
      (rational? (finite false coefficient exponent)).map fun q => -q := by
  simp [rational?]

theorem rational?_zero (negative : Bool) (exponent : Int) :
    rational? (finite negative 0 exponent) = some 0 := by
  simp [rational?]

theorem rational?_mul_pow (negative : Bool) (n zeros : Nat) (exponent : Int) :
    rational? (finite negative (n * 10 ^ zeros) exponent) =
      rational? (finite negative n (exponent + zeros)) := by
  have ten : (10 : ℚ) ≠ 0 := by norm_num
  simp only [rational?, Nat.cast_mul, Nat.cast_pow, Nat.cast_ofNat, zpow_add₀ ten, zpow_natCast]
  rw [mul_assoc (n : ℚ), mul_comm ((10 : ℚ) ^ zeros)]

theorem dropDigits_mul_pow {n : Nat} (positive : n ≠ 0) (zeros : Nat) :
    dropDigits (n * 10 ^ zeros) zeros = n := by
  have unit : 0 < 10 ^ zeros := Nat.pow_pos (by decide)
  have length : ¬ digitCount (n * 10 ^ zeros) < zeros := by
    rw [digitCount_mul_pow positive]
    omega
  rw [dropDigits, if_neg length,
    Rounding.quotient_of_mod_eq_zero .halfEven false unit (Nat.mul_mod_left n _), Nat.mul_div_cancel _ unit]

theorem pow_trailingZeros_dvd (most n : Nat) : 10 ^ trailingZeros most n ∣ n := by
  induction most generalizing n with
  | zero => exact Nat.one_dvd n
  | succ most ih =>
    unfold trailingZeros
    split
    · rename_i whole
      obtain ⟨m, same⟩ := ih (n / 10)
      refine ⟨m, ?_⟩
      have tenth : n = n / 10 * 10 := (Nat.div_mul_cancel (Nat.dvd_of_mod_eq_zero whole)).symm
      rw [Nat.pow_succ, Nat.mul_assoc, Nat.mul_comm 10, ← Nat.mul_assoc, ← same]
      exact tenth
    · exact Nat.one_dvd n

namespace Context

variable {c : Context} {negative : Bool} {coefficient : Nat} {exponent : Int}

/-- What a context has room for is not rounded; only the exponent of a zero is moved into the range. -/
theorem finishFinite_of_admits (admitted : c.Admits (finite negative coefficient exponent)) :
    c.finishFinite negative coefficient exponent =
      .ok (finite negative coefficient (if coefficient = 0 then c.zeroExponent exponent else exponent)) := by
  obtain ⟨short, within⟩ := admitted
  unfold finishFinite
  by_cases zero : coefficient = 0
  · rw [if_pos zero, if_pos zero, zero]
  · obtain ⟨least, greatest⟩ := within.resolve_left zero
    rw [leading] at least greatest
    simp only [if_neg zero, if_neg (Int.not_lt.mpr greatest), if_neg (Int.not_lt.mpr least), if_pos short]

theorem exists_finishFinite (admitted : c.Admits (finite negative coefficient exponent)) :
    ∃ places, c.finishFinite negative coefficient exponent = .ok (finite negative coefficient places) ∧
      rational? (finite negative coefficient places) = rational? (finite negative coefficient exponent) ∧
      c.Admits (finite negative coefficient places) := by
  obtain ⟨short, within⟩ := admitted
  refine ⟨_, finishFinite_of_admits ⟨short, within⟩, ?_⟩
  by_cases zero : coefficient = 0
  · rw [zero, rational?_zero, rational?_zero]
    exact ⟨rfl, zero ▸ short, .inl rfl⟩
  · rw [if_neg zero]
    exact ⟨rfl, short, within⟩

theorem exists_neg (admitted : c.Admits (finite false coefficient exponent)) :
    ∃ value, c.neg (finite false coefficient exponent) = .ok value ∧
      rational? value = rational? (finite true coefficient exponent) := by
  by_cases zero : coefficient = 0
  · obtain ⟨places, finished, _⟩ := exists_finishFinite admitted
    refine ⟨finite false coefficient places, ?_, ?_⟩
    · rw [← finished, neg, zero]
      rfl
    · rw [zero, rational?_zero, rational?_zero]
  · have opposite : c.Admits (finite true coefficient exponent) := admitted
    obtain ⟨places, finished, same, _⟩ := exists_finishFinite opposite
    refine ⟨finite true coefficient places, ?_, same⟩
    have signed : (!false && coefficient != 0) = true := by simpa using zero
    rw [← finished, neg, signed]

/-- A number with few digits before its zeros is kept, its last zeros moved to the exponent if it has more
digits than the precision. -/
theorem finishFinite_of_significant (significant : Significant c.precision coefficient)
    (positive : coefficient ≠ 0) (least : c.least ≤ leading coefficient exponent)
    (greatest : leading coefficient exponent ≤ c.greatest) :
    ∃ n zeros, c.finishFinite negative coefficient exponent =
        .ok (finite negative n (exponent + (zeros : Nat))) ∧
      coefficient = n * 10 ^ zeros ∧ digitCount n ≤ c.precision := by
  by_cases short : digitCount coefficient ≤ c.precision
  · have admitted : c.Admits (finite negative coefficient exponent) := ⟨short, .inr ⟨least, greatest⟩⟩
    have kept := finishFinite_of_admits admitted
    rw [if_neg positive] at kept
    exact ⟨coefficient, 0, by simpa using kept, by simp, short⟩
  · obtain ⟨m, zeros, rfl, few⟩ := significant
    have nonzero : m ≠ 0 := fun zero => positive (by rw [zero, Nat.zero_mul])
    rw [digitCount_mul_pow nonzero] at short
    let excess := digitCount m + zeros - c.precision
    let n := m * 10 ^ (zeros - excess)
    have length : digitCount n = c.precision := by
      rw [digitCount_mul_pow nonzero]
      omega
    have same : m * 10 ^ zeros = n * 10 ^ excess := by
      rw [Nat.mul_assoc, ← Nat.pow_add, Nat.sub_add_cancel (by omega)]
    have kept : n ≠ 0 := Nat.mul_ne_zero nonzero (Nat.pow_pos (by decide)).ne'
    have below : n < 10 ^ c.precision := length ▸ lt_pow_digitCount n
    refine ⟨n, excess, ?_, same, Nat.le_of_eq length⟩
    rw [leading] at least greatest
    have dropped : digitCount (m * 10 ^ zeros) - c.precision = excess := by
      rw [digitCount_mul_pow nonzero]
    have long : ¬ digitCount (m * 10 ^ zeros) ≤ c.precision := by
      rwa [digitCount_mul_pow nonzero]
    unfold finishFinite
    simp only [if_neg positive, if_neg (Int.not_lt.mpr greatest), if_neg (Int.not_lt.mpr least),
      if_neg long, dropped]
    rw [same, dropDigits_mul_pow kept, if_pos below]

/-- A decimal of so many digits in the range is normalized to the same number, with no more digits than the
precision and its first digit in its place. -/
theorem normalize_eq (precise : 0 < c.precision) (significant : Significant c.precision coefficient)
    (within : coefficient = 0 ∨
      c.least ≤ leading coefficient exponent ∧ leading coefficient exponent ≤ c.greatest) :
    ∃ n places, c.normalize (finite negative coefficient exponent) = .ok (finite negative n places) ∧
      rational? (finite negative n places) = rational? (finite negative coefficient exponent) ∧
      c.Admits (finite negative n places) := by
  by_cases zero : coefficient = 0
  · refine ⟨0, 0, ?_, ?_, by rw [digitCount_zero]; exact precise, .inl rfl⟩
    · simp only [normalize, finish, finishFinite, bind, Except.bind, if_pos zero, if_true]
      rfl
    · simp [rational?, zero]
  · obtain ⟨least, greatest⟩ := within.resolve_left zero
    obtain ⟨n, moved, finished, rfl, short⟩ :=
      @finishFinite_of_significant c negative _ _ significant zero least greatest
    have kept : n ≠ 0 := fun none => zero (by rw [none, Nat.zero_mul])
    let zeros := trailingZeros (min (digitCount n) (c.greatest - (exponent + moved)).toNat) n
    obtain ⟨m, same⟩ : 10 ^ zeros ∣ n := pow_trailingZeros_dvd _ n
    have unit : 0 < 10 ^ zeros := Nat.pow_pos (by decide)
    have quotient : n / 10 ^ zeros = m := by
      rw [same, Nat.mul_div_cancel_left _ unit]
    rw [Nat.mul_comm] at same
    have rest : m ≠ 0 := fun none => kept (by rw [same, none, Nat.zero_mul])
    refine ⟨m, exponent + moved + zeros, ?_, ?_, ?_, .inr ?_⟩
    · simp only [normalize, finish, finished, bind, Except.bind, if_neg kept]
      rw [← quotient]
      rfl
    · rw [rational?_mul_pow, ← rational?_mul_pow negative m zeros, ← same]
    · rw [same, digitCount_mul_pow rest] at short
      omega
    · rw [← leading_mul_pow rest, ← same, ← leading_mul_pow kept]
      exact ⟨least, greatest⟩

end Context

end Reckoner.Decimal

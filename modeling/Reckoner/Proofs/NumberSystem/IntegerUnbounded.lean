import Reckoner.Proofs.NumberSystem.IntegerPower

/-! Faults of whole numbers without bounds. Sums, differences, products and negations always have a value, and a
divisor of zero is reported. Conversion to a double and powers report an overflow, but not every one: an exponent can
be beyond the doubles itself, and a number can be too long for the text of the report. -/

namespace Reckoner.NumberSystem.Integer

open Reckoner.Binary64 (overflowBound)
open Reckoner.Decimal (truncated)
open Reckoner.Numeral (digitLimit)

/-- Whether a fault is an overflow or a division by zero that is ready to be reported. -/
def Reported (fault : Fault) : Prop :=
  ∃ kind message, (kind = .overflow ∨ kind = .divisionByZero) ∧ fault = .report kind message

theorem reported_overflow (name what : String) : Reported (overflow name what) := ⟨_, _, .inl rfl, rfl⟩

theorem reported_divisionByZero : Reported divisionByZero := ⟨_, _, .inr rfl, rfl⟩

theorem not_reported_unsuitable (text : String) : ¬ Reported (.unsuitable text) := by
  rintro ⟨_, _, _, ⟨⟩⟩

theorem not_reported_outOfRange (text : String) : ¬ Reported (.outOfRange text) := by
  rintro ⟨_, _, _, ⟨⟩⟩

/-! ### Texts -/

theorem coerce_int_of_short (width : Width) {n : Int} (short : n.natAbs < 10 ^ digitLimit) :
    coerce width (.int n) = check width n ("value " ++ toString n) := by
  rw [coerce, writeInt_of_short short]
  rfl

theorem coerce_int_of_long (width : Width) {n : Int} (long : 10 ^ digitLimit ≤ n.natAbs) :
    coerce width (.int n) = .error tooLong := by
  rw [coerce, writeInt_of_long long]
  rfl

theorem overflowBound_lt : overflowBound < 10 ^ digitLimit := calc
  overflowBound ≤ 2 ^ 1024 := Binary64.overflowBound_le
  _ ≤ 10 ^ 1024 := pow_le_pow_left₀ (by decide) (by decide) 1024
  _ < 10 ^ digitLimit := pow_lt_pow_right₀ (by decide) (by decide)

/-! ### Conversion -/

theorem toDouble_of_lt (width : Width) {n : Int} (below : n.natAbs < overflowBound) :
    toDouble width n = .ok (Binary64.ofInt n) := by
  have finite : ¬ (Binary64.ofInt n).isInf = true := fun infinite =>
    absurd ((Binary64.isInf_ofInt n).mp infinite) (Nat.not_le.mpr below)
  rw [toDouble, if_neg finite]

theorem toDouble_of_abs_lt (width : Width) {n : Int} (small : |n| < 2 ^ 1023) :
    toDouble width n = .ok (Binary64.ofInt n) := by
  have size : (n.natAbs : Int) < (2 ^ 1023 : Nat) := by
    rwa [← Int.abs_eq_natAbs, Nat.cast_pow, Nat.cast_ofNat]
  exact toDouble_of_lt width ((Int.ofNat_lt.mp size).trans_le Binary64.le_overflowBound)

theorem toDouble_of_le (width : Width) {n : Int} (beyond : overflowBound ≤ n.natAbs) :
    toDouble width n = (do throw (overflow width.name ("value " ++ (← writeInt n)))) := by
  rw [toDouble, if_pos ((Binary64.isInf_ofInt n).mpr beyond)]

theorem toDouble_of_short (width : Width) {n : Int} (short : n.natAbs < 10 ^ digitLimit) :
    Fails Reported (toDouble width n) := by
  rcases Nat.lt_or_ge n.natAbs overflowBound with below | beyond
  · rw [toDouble_of_lt width below]
    exact .ok _
  · rw [toDouble_of_le width beyond, writeInt_of_short short]
    exact .error (reported_overflow _ _)

theorem toDouble_of_long (width : Width) {n : Int} (long : 10 ^ digitLimit ≤ n.natAbs) :
    toDouble width n = .error tooLong := by
  rw [toDouble_of_le width (overflowBound_lt.le.trans long), writeInt_of_long long]
  rfl

/-! ### Powers -/

section
variable (logarithm : Nat → Float)

/-- Whether no length of a power is estimated, as the exponent has no finite double. -/
def Unestimated (base exponent : Int) : Prop := 1 < base.natAbs ∧ (overflowBound : Int) ≤ exponent

/-- Whether a power is estimated too long and has no text. -/
def Unnamed (base exponent : Int) : Prop :=
  10 ^ digitLimit ≤ base.natAbs ∧ 0 ≤ exponent ∧ exponent < overflowBound ∧
    Binary64.ofInt powerLimit < Binary64.ofInt exponent.toNat * logarithm base.natAbs

variable {base exponent : Int}

theorem power_of_unestimated (unestimated : Unestimated base exponent) :
    power logarithm ⟨none⟩ base exponent = .error (.outOfRange "int too large to convert to float") := by
  obtain ⟨large, beyond⟩ := unestimated
  have positive : 0 ≤ exponent := (Int.natCast_nonneg _).trans beyond
  have infinite : (Binary64.ofInt exponent.toNat).isInf = true := by
    rw [Binary64.isInf_ofInt]
    omega
  rw [power_of_large logarithm _ positive large, powerIsTooLong, if_pos infinite]
  rfl

/-- A power of a larger base is computed, or else its overflow names the base and the exponent. -/
theorem power_of_estimated (large : 1 < base.natAbs) (positive : 0 ≤ exponent) (below : exponent < overflowBound) :
    power logarithm ⟨none⟩ base exponent =
      if Binary64.ofInt powerLimit < Binary64.ofInt exponent.toNat * logarithm base.natAbs then do
        throw (overflow "bigint" ((← writeInt base) ++ " ^ " ++ toString exponent))
      else .ok (truncated ((base : ℚ) ^ exponent)) := by
  have finite : ¬ (Binary64.ofInt exponent.toNat).isInf = true := by
    rw [Binary64.isInf_ofInt]
    omega
  have bound := overflowBound_lt
  have short : exponent.natAbs < 10 ^ digitLimit := by omega
  rw [power_of_large logarithm _ positive large, powerIsTooLong, if_neg finite, ok_bind, writeInt_of_short short]
  by_cases beyond : Binary64.ofInt powerLimit < Binary64.ofInt exponent.toNat * logarithm base.natAbs
  · rw [if_pos beyond]
    refine (if_pos (decide_eq_true beyond)).trans ?_
    cases writeInt base <;> rfl
  · rw [if_neg beyond]
    refine (if_neg ?_).trans rfl
    simpa using beyond

theorem power_of_unnamed (unnamed : Unnamed logarithm base exponent) :
    power logarithm ⟨none⟩ base exponent = .error tooLong := by
  obtain ⟨long, positive, below, beyond⟩ := unnamed
  have large : 1 < base.natAbs := (Nat.one_lt_pow (by decide) (by decide)).trans_le long
  rw [power_of_estimated logarithm large positive below, if_pos beyond, writeInt_of_long long]
  rfl

/-- Every other power has a value or is reported. -/
theorem power_reports (estimated : ¬ Unestimated base exponent) (named : ¬ Unnamed logarithm base exponent) :
    Fails Reported (power logarithm ⟨none⟩ base exponent) := by
  rcases lt_or_ge exponent 0 with negative | positive
  · by_cases zero : base = 0
    · rw [zero, power_zero_of_neg logarithm _ negative]
      exact .error reported_divisionByZero
    · rw [power_of_neg logarithm _ zero negative]
      exact .ok _
  rcases Nat.lt_or_ge 1 base.natAbs with large | small
  · have below : exponent < overflowBound := not_le.mp fun beyond => estimated ⟨large, beyond⟩
    rw [power_of_estimated logarithm large positive below]
    split
    · rename_i beyond
      have short : base.natAbs < 10 ^ digitLimit := not_le.mp fun long => named ⟨long, positive, below, beyond⟩
      rw [writeInt_of_short short]
      exact .error (reported_overflow _ _)
    · exact .ok _
  · rw [power_of_small logarithm _ positive small]
    exact .ok _

end

/-! ### All operations -/

theorem not_reports {β : Type} {outcome : Outcome β} {fault : Fault} (failed : outcome = .error fault)
    (other : ¬ Reported fault) : ¬ Fails Reported outcome := fun reports => other (reports fault failed)

theorem toDouble_reports_iff (width : Width) (n : Int) :
    Fails Reported (toDouble width n) ↔ n.natAbs < 10 ^ digitLimit := by
  refine ⟨fun reports => not_le.mp ?_, toDouble_of_short width⟩
  intro long
  exact not_reports (toDouble_of_long width long) (not_reported_unsuitable _) reports

theorem toDouble_eq_tooLong_iff (width : Width) (n : Int) :
    toDouble width n = .error tooLong ↔ 10 ^ digitLimit ≤ n.natAbs := by
  refine ⟨fun failed => not_lt.mp ?_, toDouble_of_long width⟩
  intro short
  exact not_reports failed (not_reported_unsuitable _) (toDouble_of_short width short)

section
variable (logarithm : Nat → Float) (base exponent : Int)

theorem power_reports_iff : Fails Reported (power logarithm ⟨none⟩ base exponent) ↔
    ¬ Unestimated base exponent ∧ ¬ Unnamed logarithm base exponent := by
  refine ⟨fun reports => ⟨?_, ?_⟩, fun ⟨estimated, named⟩ =>
    power_reports logarithm estimated named⟩
  · intro unestimated
    exact not_reports (power_of_unestimated logarithm unestimated) (not_reported_outOfRange _) reports
  · intro unnamed
    exact not_reports (power_of_unnamed logarithm unnamed) (not_reported_unsuitable _) reports

theorem power_eq_outOfRange_iff :
    power logarithm ⟨none⟩ base exponent = .error (.outOfRange "int too large to convert to float") ↔
      Unestimated base exponent := by
  refine ⟨fun failed => by_contra ?_, power_of_unestimated logarithm⟩
  intro estimated
  by_cases unnamed : Unnamed logarithm base exponent
  · rw [power_of_unnamed logarithm unnamed] at failed
    cases failed
  · exact not_reports failed (not_reported_outOfRange _) (power_reports logarithm estimated unnamed)

theorem power_eq_tooLong_iff :
    power logarithm ⟨none⟩ base exponent = .error tooLong ↔ Unnamed logarithm base exponent := by
  refine ⟨fun failed => by_contra ?_, power_of_unnamed logarithm⟩
  intro named
  by_cases unestimated : Unestimated base exponent
  · rw [power_of_unestimated logarithm unestimated] at failed
    cases failed
  · exact not_reports failed (not_reported_unsuitable _) (power_reports logarithm unestimated named)

end

/-- Without bounds the four operations have exact values, and only a divisor of zero fails, with a report. The
conversion to a double reports its faults except for a number without a text. A power reports its faults except if its
exponent is beyond the doubles, or if it is estimated too long and its base has no text. -/
theorem unbounded_faults (logarithm : Nat → Float) (a b : Int) :
    (system ⟨none⟩).add a b = .ok (a + b) ∧ (system ⟨none⟩).sub a b = .ok (a - b) ∧
    (system ⟨none⟩).mul a b = .ok (a * b) ∧ (system ⟨none⟩).neg a = .ok (-a) ∧
    (system ⟨none⟩).div a b = (if b = 0 then .error divisionByZero else .ok (truncated ((a : ℚ) / b))) ∧
    (system ⟨none⟩).rem a b = (if b = 0 then .error divisionByZero else .ok (a - b * truncated ((a : ℚ) / b))) ∧
    (Fails Reported ((system ⟨none⟩).toFloat a) ↔ a.natAbs < 10 ^ digitLimit) ∧
    ((system ⟨none⟩).toFloat a = .error tooLong ↔ 10 ^ digitLimit ≤ a.natAbs) ∧
    (Fails Reported (power logarithm ⟨none⟩ a b) ↔ ¬ Unestimated a b ∧ ¬ Unnamed logarithm a b) ∧
    (power logarithm ⟨none⟩ a b = .error (.outOfRange "int too large to convert to float") ↔ Unestimated a b) ∧
    (power logarithm ⟨none⟩ a b = .error tooLong ↔ Unnamed logarithm a b) := by
  refine ⟨rfl, rfl, rfl, rfl, ?_, ?_, toDouble_reports_iff _ a, toDouble_eq_tooLong_iff _ a,
    power_reports_iff logarithm a b, power_eq_outOfRange_iff logarithm a b, power_eq_tooLong_iff logarithm a b⟩
  · split
    · rename_i zero
      rw [zero, div_zero]
    · rename_i nonzero
      exact div_eq _ a nonzero
  · split
    · rename_i zero
      rw [zero, rem_zero]
    · rename_i nonzero
      exact rem_eq _ a nonzero

/-- Two to the power of a number of 401 digits is too large, and so is a number of 4301 digits as a double. What is
raised is no report in either case. -/
theorem unbounded_unreported :
    (system ⟨none⟩).pow 2 (10 ^ 400) = .error (.outOfRange "int too large to convert to float") ∧
    ¬ Reported (.outOfRange "int too large to convert to float") ∧
    (system ⟨none⟩).toFloat (10 ^ 4300) = .error tooLong ∧ ¬ Reported tooLong := by
  have unestimated : Unestimated 2 (10 ^ 400) := ⟨by decide, by decide +kernel⟩
  have long : 10 ^ digitLimit ≤ (10 ^ 4300 : Int).natAbs := by decide +kernel
  have pow : (system ⟨none⟩).pow = power binaryLogarithm ⟨none⟩ := rfl
  have toFloat : (system ⟨none⟩).toFloat = toDouble ⟨none⟩ := rfl
  rw [pow, toFloat, power_of_unestimated binaryLogarithm unestimated, toDouble_of_long _ long]
  exact ⟨rfl, not_reported_outOfRange _, rfl, not_reported_unsuitable _⟩

end Reckoner.NumberSystem.Integer

import Mathlib.Data.Nat.Factorial.Basic
import Reckoner.Proofs.Library.Signs
import Reckoner.Proofs.NumberSystem.IntegerRange
import Reckoner.Proofs.NumberSystem.IntegerUnbounded

/-! Factorials of whole numbers. The product is built up factor by factor, and each factor and each product is
checked by itself. The factors are at most the argument, and no product on the way is beyond the last one, so the
factorial is found exactly if it is in range. -/

namespace Reckoner.NumberSystem.Integer

open Reckoner.Library
open Reckoner.Numeral (digitLimit)

variable {width : Width}

/-! ### Products -/

/-- A product of the numbers up to `m` is multiplied by so many further ones: every product on the way is in range if
the last one is, and the first one that is not ends the loop. -/
theorem multiplyUp_eq (count m : Nat) (factors : width.admits ((m + count : Nat) : Int) = true)
    (zero : width.admits 0 = true) (begun : width.admits (m.factorial : Int) = true) :
    (⟨system width, 0, 1⟩ : Base Int).multiplyUp count (m + 1) m.factorial =
      if width.admits ((m + count).factorial : Int) then .ok ((m + count).factorial : Int)
      else .error (overflow width.name "result") := by
  induction count generalizing m with
  | zero => rw [Nat.add_zero, if_pos begun]; rfl
  | succ count ih =>
    have later : m + (count + 1) = m + 1 + count := by omega
    rw [later] at factors ⊢
    have factor : (system width).ofInt (m + 1) = .ok (m + 1 : Int) := by
      apply if_pos
      exact Width.admits_between zero factors (by omega) (by push_cast; omega)
    have product : ((m.factorial : Int)) * (m + 1) = ((m + 1).factorial : Nat) := by
      rw [Nat.factorial_succ]
      push_cast
      ring
    have step : (system width).mul m.factorial (m + 1) = checkResult width ((m + 1).factorial : Nat) := by
      change checkResult width _ = _
      rw [product]
    rw [Base.multiplyUp, factor, ok_bind, step, checkResult, check]
    by_cases fits : width.admits ((m + 1).factorial : Int) = true
    · rw [if_pos fits, ok_bind]
      exact_mod_cast ih (m + 1) factors fits
    · have beyond : ¬ width.admits ((m + 1 + count).factorial : Int) = true := by
        intro last
        apply fits
        apply Width.admits_between zero last (by positivity)
        exact_mod_cast Nat.factorial_le (Nat.le_add_right (m + 1) count)
      rw [if_neg fits, if_neg beyond]
      rfl

/-- From a number of the width on the loop comes to its factorial, or the factorial is out of range. -/
theorem multiplyUp_factorial (wide : width.Wide) {n : Nat} (admitted : width.admits (n : Int) = true) :
    (⟨system width, 0, 1⟩ : Base Int).multiplyUp ((n : Int) - 1).toNat 2 1 =
      if width.admits (n.factorial : Int) then .ok (n.factorial : Int)
      else .error (overflow width.name "result") := by
  have one : width.admits 1 = true := Width.admits_unit wide (by decide)
  cases n with
  | zero => exact (if_pos one).symm
  | succ n =>
    have count : ((n + 1 : Nat) - 1 : Int).toNat = n := by omega
    have loop := multiplyUp_eq n 1 (by rwa [Nat.add_comm]) (Width.admits_unit wide (by decide)) one
    rw [Nat.add_comm 1 n] at loop
    rw [count]
    exact loop

/-! ### Factorials -/

theorem factorial_eq (wide : width.Wide) {k : Int} (admitted : width.admits k = true)
    (short : k.natAbs < 10 ^ digitLimit) :
    (⟨system width, 0, 1⟩ : Base Int).factorial k =
      if k < 0 then .error (.report .invalidInput ("Factorial of negative number " ++ toString k))
      else if Base.factorialLimit < k then
        .error (.report .overflow ("Factorial argument " ++ toString k ++ " is too large"))
      else if width.admits (k.toNat.factorial : Int) then .ok (k.toNat.factorial : Int)
      else .error (overflow width.name "result") := by
  have written : NumberSystem.writeInt k = .ok (toString k) := writeInt_of_short short
  have whole : (system width).isInteger k = .ok true := rfl
  have itself : (system width).toInt k = .ok k := rfl
  have checked : (system width).checked = true := rfl
  simp only [Base.factorial, whole, itself, checked, written, ok_bind, Bool.true_and, decide_eq_true_eq, if_true]
  by_cases negative : k < 0
  · rw [if_pos negative, if_pos negative]
    rfl
  · rw [if_neg negative, if_neg negative]
    by_cases large : Base.factorialLimit < k
    · rw [if_pos large, if_pos large]
      rfl
    · rw [if_neg large, if_neg large]
      obtain ⟨n, rfl⟩ := Int.eq_ofNat_of_zero_le (Int.not_lt.mp negative)
      exact multiplyUp_factorial wide admitted

/-- With at least three bits, or without bounds, the operator after its operand finds the factorial of every number
that can be written, and the report of every other case. -/
theorem factorial_exact (width : Width) (roomy : width.Roomy) (draws : Draws) (settings : Settings) :
    ∃ library, withLibrary draws (system width) settings = .ok library ∧
      ∃ operator, library.getUnary? "!" = some operator ∧ operator.placement = .after ∧
        ∀ k : Int, width.admits k = true → k.natAbs < 10 ^ digitLimit →
          operator.run k =
            if k < 0 then .error (.report .invalidInput ("Factorial of negative number " ++ toString k))
            else if 100000 < k then
              .error (.report .overflow ("Factorial argument " ++ toString k ++ " is too large"))
            else if width.admits (k.toNat.factorial : Int) then .ok (k.toNat.factorial : Int)
            else .error (overflow width.name "result") := by
  obtain ⟨library, installed⟩ := withLibrary_of_roomy roomy draws settings
  obtain ⟨base, based, answers⟩ := getUnary?_of_withLibrary installed
  obtain rfl : ⟨system width, 0, 1⟩ = base := Except.ok.inj ((base_of_roomy roomy).symm.trans based)
  let row : UnaryRow Int := ⟨"!", .after, Precedence.veryHigh, Base.factorial ⟨system width, 0, 1⟩⟩
  have listed : row ∈ unaryRows ⟨system width, 0, 1⟩ := by
    simp [unaryRows, row]
  refine ⟨library, installed, row.operator, answers row listed, rfl, ?_⟩
  intro k admitted short
  exact factorial_eq roomy.wide admitted short

/-- With 64 bits the factorial of 20 is the last one in range. -/
theorem factorial_exact_long : Width.Roomy ⟨some 64⟩ ∧
    ∃ library, withLibrary 0.5 (system ⟨some 64⟩) Settings.standard = .ok library ∧
      ∃ operator, library.getUnary? "!" = some operator ∧ operator.run 20 = .ok 2432902008176640000 ∧
        operator.run 21 = .error (.report .overflow "Overflow: result is out of range for i64") ∧
        operator.run (-1) = .error (.report .invalidInput "Factorial of negative number -1") := by
  have roomy : Width.Roomy ⟨some 64⟩ := by
    rintro bits ⟨⟩
    decide
  obtain ⟨library, installed, operator, answered, _, run⟩ :=
    factorial_exact ⟨some 64⟩ roomy 0.5 Settings.standard
  have small {k : Int} (below : k.natAbs < 10 ^ 2) : k.natAbs < 10 ^ digitLimit :=
    below.trans (pow_lt_pow_right₀ (by decide) (by decide))
  refine ⟨roomy, library, installed, operator, answered, ?_, ?_, ?_⟩
  · rw [run 20 (by decide) (small (by decide))]
    decide
  · rw [run 21 (by decide) (small (by decide))]
    decide
  · rw [run (-1) (by decide) (small (by decide))]
    decide

end Reckoner.NumberSystem.Integer

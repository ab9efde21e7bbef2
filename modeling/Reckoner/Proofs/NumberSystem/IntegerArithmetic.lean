import Reckoner.Proofs.Decimal.Quotients
import Reckoner.Proofs.NumberSystem.IntegerRange

/-! Arithmetic with whole numbers of a bounded width. A result is the exact one if that is within the bounds, and
an overflow otherwise; only the remainder never leaves the bounds, also where its quotient does. -/

namespace Reckoner.NumberSystem.Integer

open Reckoner.Decimal (truncated truncated_intCast_div)

/-- Whether an outcome is a certain number if that is in range, and otherwise an overflow that names it by one of some
texts. -/
def ExactOrRefused (bits : Nat) (texts : List String) (n : Int) (outcome : Outcome Int) : Prop :=
  (InRange bits n → outcome = .ok n) ∧
    (¬ InRange bits n → ∃ what ∈ texts,
      outcome = .error (.report .overflow ("Overflow: " ++ what ++ " is out of range for i" ++ toString bits)))

variable {bits : Nat}

theorem width_of_bits (wide : 2 ≤ bits) : Width.ofBits? (some (bits : Int)) = some ⟨some bits⟩ := by
  rw [Width.ofBits?, if_neg (by omega)]
  rfl

theorem overflow_eq (bits : Nat) (what : String) : overflow (Width.name ⟨some bits⟩) what =
    .report .overflow ("Overflow: " ++ what ++ " is out of range for i" ++ toString bits) := by
  have named : "Overflow: " ++ what ++ " is out of range for " ++ ("i" ++ toString bits) =
      "Overflow: " ++ what ++ " is out of range for i" ++ toString bits :=
    String.append_assoc.symm.trans (congrArg (· ++ toString bits) String.append_assoc)
  exact congrArg (Fault.report .overflow) named

theorem check_exact (n : Int) (what : String) : ExactOrRefused bits [what] n (check ⟨some bits⟩ n what) := by
  refine ⟨fun fits => check_of_inRange fits what, fun outside => ⟨what, List.mem_singleton_self what, ?_⟩⟩
  rw [check, if_neg fun admitted => outside ((Width.admits_iff bits n).mp admitted), overflow_eq]

theorem checkResult_exact (n : Int) : ExactOrRefused bits ["result"] n (checkResult ⟨some bits⟩ n) :=
  check_exact n "result"

theorem quotient_eq (a : Int) {b : Int} (nonzero : b ≠ 0) : quotient a b = .ok (truncated ((a : ℚ) / b)) := by
  rw [quotient, if_neg nonzero, truncated_intCast_div]

theorem div_eq (width : Width) (a : Int) {b : Int} (nonzero : b ≠ 0) :
    (system width).div a b = checkResult width (truncated ((a : ℚ) / b)) := by
  show quotient a b >>= checkResult width = _
  rw [quotient_eq a nonzero, ok_bind]

theorem rem_eq (width : Width) (a : Int) {b : Int} (nonzero : b ≠ 0) :
    (system width).rem a b = .ok (a - b * truncated ((a : ℚ) / b)) := by
  show (quotient a b >>= fun q => pure (a - b * q)) = _
  rw [quotient_eq a nonzero]
  rfl

theorem div_zero (width : Width) (a : Int) : (system width).div a 0 = .error divisionByZero := rfl

theorem rem_zero (width : Width) (a : Int) : (system width).rem a 0 = .error divisionByZero := rfl

namespace ExactOrRefused

variable {texts : List String} {n : Int} {outcome : Outcome Int} (exact : ExactOrRefused bits texts n outcome)
include exact

theorem subset {more : List String} (among : texts ⊆ more) : ExactOrRefused bits more n outcome := by
  refine ⟨exact.1, ?_⟩
  intro outside
  obtain ⟨what, member, refused⟩ := exact.2 outside
  exact ⟨what, among member, refused⟩

theorem ne_divisionByZero : outcome ≠ .error divisionByZero := by
  by_cases fits : InRange bits n
  · rw [exact.1 fits]
    nofun
  · obtain ⟨what, -, refused⟩ := exact.2 fits
    rw [refused]
    nofun

end ExactOrRefused

/-- The rest of a truncated division is nearer to zero than the divisor and has the sign of the dividend. -/
theorem sub_truncated (a : Int) {b : Int} (nonzero : b ≠ 0) :
    |a - b * truncated ((a : ℚ) / b)| < |b| ∧
      (a - b * truncated ((a : ℚ) / b) = 0 ∨ (a - b * truncated ((a : ℚ) / b)).sign = a.sign) := by
  rw [truncated_intCast_div, ← Int.tmod_def]
  refine ⟨?_, ?_⟩
  · rw [Int.abs_eq_natAbs, Int.abs_eq_natAbs, Int.natAbs_tmod]
    exact_mod_cast Nat.mod_lt _ (Int.natAbs_pos.mpr nonzero)
  · rcases lt_trichotomy (a.tmod b) 0 with below | zero | above
    · have negative : a < 0 := Int.not_le.mp fun positive => absurd (Int.tmod_nonneg b positive) (Int.not_le.mpr below)
      exact .inr (by rw [Int.sign_eq_neg_one_of_neg below, Int.sign_eq_neg_one_of_neg negative])
    · exact .inl zero
    · have positive : 0 < a := by
        by_contra negative
        have opposite := Int.tmod_nonneg b (show 0 ≤ -a by omega)
        rw [Int.neg_tmod] at opposite
        omega
      exact .inr (by rw [Int.sign_eq_one_of_pos above, Int.sign_eq_one_of_pos positive])

/-- With every width sums, differences, products, negations and truncated quotients are exact or refused. Quotients
and remainders fail for a divisor of zero, and every other remainder is in range and makes up the dividend with the
truncated quotient, whether or not that one is in range. -/
theorem arithmetic_exact (wide : 2 ≤ bits) {a : Int} (fits : InRange bits a) (b : Int) :
    Width.ofBits? (some (bits : Int)) = some ⟨some bits⟩ ∧
    ExactOrRefused bits ["result"] (a + b) ((system ⟨some bits⟩).add a b) ∧
    ExactOrRefused bits ["result"] (a - b) ((system ⟨some bits⟩).sub a b) ∧
    ExactOrRefused bits ["result"] (a * b) ((system ⟨some bits⟩).mul a b) ∧
    ExactOrRefused bits ["result"] (-a) ((system ⟨some bits⟩).neg a) ∧
    ((system ⟨some bits⟩).div a b = .error divisionByZero ↔ b = 0) ∧
    ((system ⟨some bits⟩).rem a b = .error divisionByZero ↔ b = 0) ∧
    (b ≠ 0 →
      ExactOrRefused bits ["result"] (truncated ((a : ℚ) / b)) ((system ⟨some bits⟩).div a b) ∧
      ∃ r, (system ⟨some bits⟩).rem a b = .ok r ∧ InRange bits r ∧ |r| < |b| ∧ (r = 0 ∨ r.sign = a.sign) ∧
        a = b * truncated ((a : ℚ) / b) + r) := by
  have divided (nonzero : b ≠ 0) :
      ExactOrRefused bits ["result"] (truncated ((a : ℚ) / b)) ((system ⟨some bits⟩).div a b) := by
    rw [div_eq _ a nonzero]
    exact checkResult_exact _
  refine ⟨width_of_bits wide, checkResult_exact _, checkResult_exact _, checkResult_exact _, checkResult_exact _,
    ⟨?_, ?_⟩, ⟨?_, ?_⟩, fun nonzero => ⟨divided nonzero, _, rem_eq _ a nonzero, ?_,
      (sub_truncated a nonzero).1, (sub_truncated a nonzero).2, (add_sub_cancel _ _).symm⟩⟩
  · intro failed
    exact by_contra fun nonzero => (divided nonzero).ne_divisionByZero failed
  · rintro rfl
    exact div_zero _ a
  · intro failed
    by_contra nonzero
    rw [rem_eq _ a nonzero] at failed
    cases failed
  · rintro rfl
    exact rem_zero _ a
  · rw [truncated_intCast_div, ← Int.tmod_def]
    have width : Width.Wide ⟨some bits⟩ := by
      rintro _ ⟨⟩
      exact wide
    exact (Width.admits_iff bits _).mp (Width.admits_tmod width ((Width.admits_iff bits a).mpr fits) b)

/-- The least number of eight bits and minus one: the quotient is one above the greatest number, and the remainder is
zero. -/
theorem arithmetic_exact_least : 2 ≤ 8 ∧ InRange 8 (-128) ∧
    (system ⟨some 8⟩).div (-128) (-1) = .error (.report .overflow "Overflow: result is out of range for i8") ∧
    (system ⟨some 8⟩).rem (-128) (-1) = .ok 0 := by
  have least : InRange 8 (-128) := ⟨by decide, by decide⟩
  obtain ⟨-, -, -, -, -, -, -, split⟩ := arithmetic_exact (by decide) least (-1)
  obtain ⟨divided, r, found, -, small, -, -⟩ := split (by decide)
  have above : ¬ InRange 8 (truncated (((-128 : Int) : ℚ) / (-1 : Int))) := by
    rw [truncated_intCast_div]
    exact fun inside => absurd inside.2 (by decide)
  have zero : r = 0 := Int.abs_lt_one_iff.mp small
  obtain ⟨_, member, refused⟩ := divided.2 above
  obtain rfl := List.mem_singleton.mp member
  exact ⟨by decide, least, refused, zero ▸ found⟩

end Reckoner.NumberSystem.Integer

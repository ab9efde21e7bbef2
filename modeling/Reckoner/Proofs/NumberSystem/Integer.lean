import Reckoner.NumberSystem.Integer
import Reckoner.Proofs.Library.Closure
import Reckoner.Proofs.Numeral

/-! Whole numbers of a bounded width stay within their bounds. -/

namespace Reckoner.NumberSystem.Integer

namespace Width

/-- A width has at least two bits, so that one and its negation fit. -/
def Wide (width : Width) : Prop := ∀ bits ∈ width.bits, 2 ≤ bits

theorem admits_iff (bits : Nat) (n : Int) :
    Width.admits ⟨some bits⟩ n = true ↔ -2 ^ (bits - 1) ≤ n ∧ n ≤ 2 ^ (bits - 1) - 1 := by
  simp [admits, bounds?]

theorem two_le_pow {bits : Nat} (wide : 2 ≤ bits) : (2 : Int) ≤ 2 ^ (bits - 1) := by
  have power : 2 ^ 1 ≤ 2 ^ (bits - 1) := Nat.pow_le_pow_right (by decide) (by omega)
  exact_mod_cast power

variable {width : Width}

theorem admits_unit (wide : width.Wide) {n : Int} (small : n.natAbs ≤ 1) :
    width.admits n = true := by
  obtain ⟨_ | bits⟩ := width
  · rfl
  · have power := two_le_pow (wide bits rfl)
    rw [admits_iff]
    omega

theorem admits_between {low high n : Int} (least : width.admits low = true)
    (greatest : width.admits high = true) (above : low ≤ n) (below : n ≤ high) :
    width.admits n = true := by
  obtain ⟨_ | bits⟩ := width
  · rfl
  · rw [admits_iff] at *
    omega

theorem admits_of_le {n m : Int} (admitted : width.admits n = true) (nonneg : 0 ≤ m) (below : m ≤ n) :
    width.admits m = true := by
  obtain ⟨_ | bits⟩ := width
  · rfl
  · have power : (0 : Int) < 2 ^ (bits - 1) := Int.pow_pos (by decide)
    rw [admits_iff] at *
    omega

theorem admits_tmod (wide : width.Wide) {n : Int} (admitted : width.admits n = true) (m : Int) :
    width.admits (n.tmod m) = true := by
  have zero : width.admits 0 = true := admits_unit wide (by decide)
  have shorter : (n.tmod m).natAbs ≤ n.natAbs := by
    rw [Int.natAbs_tmod]
    exact Nat.mod_le _ _
  rcases Int.le_total 0 n with positive | negative
  · have sign := Int.tmod_nonneg m positive
    exact admits_between zero admitted sign (by omega)
  · have sign := Int.tmod_nonneg m (Int.neg_nonneg_of_nonpos negative)
    rw [Int.neg_tmod] at sign
    exact admits_between admitted zero (by omega) (by omega)

end Width

variable {width : Width}

theorem check_keeps (n : Int) (what : String) :
    Yields (width.admits · = true) (check width n what) := by
  unfold check
  split
  · rename_i admitted
    exact .ok admitted
  · exact .error _

theorem parse_keeps (wide : width.Wide) (text : List Char) :
    Yields (width.admits · = true) (parse width (LiteralStyle.integer.span text).1) := by
  refine .bind ?_
  intro n found
  have digits : ∀ c ∈ (LiteralStyle.integer.span text).1, Unicode.isDecimalDigit c = true :=
    List.all_eq_true.mp List.all_takeWhile
  have positive : 0 ≤ n := by
    unfold read at found
    split at found
    · rename_i value given
      cases found
      exact Numeral.read?_nonneg digits given
    · cases found
  obtain ⟨_ | bits⟩ := width
  · exact .ok rfl
  · simp only [Width.bounds?, Option.map_some]
    split
    · exact .error _
    · rename_i below
      have power := Width.two_le_pow (wide bits rfl)
      refine .ok ((Width.admits_iff bits n).mpr ⟨by omega, ?_⟩)
      simpa using below

theorem ofDouble_keeps (x : Float) : Yields (width.admits · = true) (ofDouble width x) :=
  .ite (check_keeps _ _) (.error _)

theorem coerce_keeps (wide : width.Wide) (value : Datum) :
    Yields (width.admits · = true) (coerce width value) := by
  cases value with
  | bool value => exact .ok (Width.admits_unit wide (by cases value <;> decide))
  | int n => exact .bind fun _ _ => check_keeps _ _
  | float x => exact ofDouble_keeps x
  | decimal value => exact .ite (check_keeps _ _) (.error _)
  | text text => exact .bind fun _ _ => check_keeps _ _
  | absent => exact .error _
  | complex _ => exact .error _
  | fraction _ _ => exact .error _
  | list _ => exact .error _

theorem rem_keeps (wide : width.Wide) {n : Int} (admitted : width.admits n = true) (m : Int) :
    Yields (width.admits · = true) ((system width).rem n m) := by
  refine .bind ?_
  intro q found
  refine .ok ?_
  unfold quotient at found
  split at found
  · cases found
  · cases found
    rw [← Int.tmod_def]
    exact Width.admits_tmod wide admitted m

theorem power_keeps (logarithm : Nat → Float) (wide : width.Wide) (base exponent : Int) :
    Yields (width.admits · = true) (power logarithm width base exponent) := by
  unfold power
  refine .ite (.ite (.error _) (.ite ?_ (.ite ?_ ?_))) (.ite (check_keeps _ _) ?_)
  · exact .ok (Width.admits_unit wide (by decide))
  · exact .ok (Width.admits_unit wide (by split <;> decide))
  · exact .ok (Width.admits_unit wide (by decide))
  · exact .bind fun _ _ => .ite (.bind fun _ _ => .bind fun _ _ => .throw _ _) (check_keeps _ _)

/-- All numbers of a width fit: what comes in is checked, and so is what could leave the bounds. -/
theorem system_keeps (wide : width.Wide) : (system width).Keeps (width.admits · = true) where
  literal := parse_keeps wide
  coerce := coerce_keeps wide
  ofInt := fun n => check_keeps n _
  ofFloat := ofDouble_keeps
  constants := fun _ _ entry _ => coerce_keeps wide (.int entry.2)
  native := fun _ _ found => nomatch found
  add := fun n m _ _ => check_keeps (n + m) _
  sub := fun n m _ _ => check_keeps (n - m) _
  mul := fun n m _ _ => check_keeps (n * m) _
  div := fun _ _ _ _ => .bind fun _ _ => check_keeps _ _
  rem := fun _ m admitted _ => rem_keeps wide admitted m
  pow := fun n m _ _ => power_keeps binaryLogarithm wide n m
  neg := fun n _ => check_keeps (-n) _
  toIntegral := fun _ _ admitted => .ok admitted

end Reckoner.NumberSystem.Integer

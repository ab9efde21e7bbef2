import Reckoner.Proofs.Evaluation.Operands
import Reckoner.Proofs.Library.Installation
import Reckoner.Proofs.NumberSystem.Integer

/-! Evaluation with whole numbers of a bounded width: all operands on the way and the value are within
the two's complement bounds. -/

namespace Reckoner.NumberSystem.Integer

/-- A number of a width is between its bounds. -/
def InRange (bits : Nat) (n : Int) : Prop := -2 ^ (bits - 1) ≤ n ∧ n ≤ 2 ^ (bits - 1) - 1

variable {bits : Nat}

theorem check_of_inRange {n : Int} (fits : InRange bits n) (what : String) :
    check ⟨some bits⟩ n what = .ok n := by
  rw [check, if_pos ((Width.admits_iff bits n).mpr fits)]

/-! ### Widths with room for the library -/

section Roomy

variable {width : Width}

/-- Whether the width is none, or one of at least three bits. -/
def Width.Roomy (width : Width) : Prop := ∀ bits ∈ width.bits, 3 ≤ bits

theorem Width.roomy_of_le (wide : 3 ≤ bits) : Width.Roomy ⟨some bits⟩ := by
  rintro _ ⟨⟩
  exact wide

namespace Width.Roomy

variable (roomy : width.Roomy)
include roomy

theorem wide : width.Wide := fun bits given => Nat.le_of_succ_le (roomy bits given)

theorem admits {n : Int} (positive : 0 ≤ n) (small : n ≤ 3) : width.admits n = true := by
  obtain ⟨_ | bits⟩ := width
  · rfl
  · have power : 2 ^ 2 ≤ 2 ^ (bits - 1) := Nat.pow_le_pow_right (by decide) (Nat.le_sub_of_add_le (roomy bits rfl))
    have bound : (4 : Int) ≤ 2 ^ (bits - 1) := by exact_mod_cast power
    rw [admits_iff]
    omega

end Width.Roomy

theorem base_of_roomy (roomy : width.Roomy) : Library.Base.of (system width) = .ok ⟨system width, 0, 1⟩ := by
  have zero : (system width).ofInt 0 = .ok 0 := if_pos (roomy.admits (by decide) (by decide))
  have one : (system width).ofInt 1 = .ok 1 := if_pos (roomy.admits (by decide) (by decide))
  rw [Library.Base.of, zero, one]
  rfl

theorem coerce_of_roomy (roomy : width.Roomy) {n : Int} (positive : 0 ≤ n) (small : n ≤ 3) :
    coerce width (.int n) = .ok n := by
  have short : n.natAbs < 10 ^ Numeral.digitLimit :=
    Nat.lt_of_lt_of_le (by omega : n.natAbs < 10) (Nat.le_self_pow (by decide) 10)
  rw [coerce, writeInt_of_short short]
  exact if_pos (roomy.admits positive small)

theorem constants_of_roomy (roomy : width.Roomy) : (system width).constants = .ok [("PI", 3), ("E", 2)] := by
  have pi : coerce width (.decimal piText) = .ok 3 := by
    have whole : piText.toInt = 3 := by with_unfolding_all decide
    have fits : width.admits piText.toInt = true := whole ▸ roomy.admits (by decide) (by decide)
    rw [← whole]
    exact if_pos fits
  have e : coerce width (.decimal eText) = .ok 2 := by
    have whole : eText.toInt = 2 := by with_unfolding_all decide
    have fits : width.admits eText.toInt = true := whole ▸ roomy.admits (by decide) (by decide)
    rw [← whole]
    exact if_pos fits
  change standardConstants (coerce width) = _
  rw [standardConstants, pi, e]
  rfl

theorem constants_kept (roomy : width.Roomy) : ∀ entry ∈ [("PI", (3 : Int)), ("E", 2)],
    entry.1 ∈ Library.constantNames ∧ (system width).coerce ((system width).toDatum entry.2) = .ok entry.2 := by
  simp only [List.forall_mem_cons]
  exact ⟨⟨by decide, coerce_of_roomy roomy (by decide) (by decide)⟩,
    ⟨by decide, coerce_of_roomy roomy (by decide) (by decide)⟩, List.forall_mem_nil _⟩

theorem withLibrary_of_roomy (roomy : width.Roomy) (draws : Library.Draws) (settings : Settings) :
    ∃ library, Library.withLibrary draws (system width) settings = .ok library := by
  refine Library.withLibrary_eq_ok (base_of_roomy roomy) (constants_of_roomy roomy) ?_ draws settings
  intro entry listed
  obtain ⟨name, kept⟩ := constants_kept roomy entry listed
  exact ⟨name, _, kept⟩

end Roomy

/-! ### Ranges -/

/-- With any constants and variables, every operand on the way of every evaluation is within the
bounds, and so is its value. -/
theorem operands_in_range (bits : Nat) (wide : 3 ≤ bits) (draws : Library.Draws) (settings : Settings) :
    ∃ library, Library.withLibrary draws (system ⟨some bits⟩) settings = .ok library ∧
      ∀ (calls : List Registry.ValueCall) (source : String),
        (∀ value, evaluate (library.withValues calls) source = .ok value → InRange bits value) ∧
        ∀ stack, Evaluation.Passes (library.withValues calls) source stack →
          ∀ x ∈ stack, InRange bits x := by
  obtain ⟨library, installed⟩ := withLibrary_of_roomy (Width.roomy_of_le wide) draws settings
  have width : Width.Wide ⟨some bits⟩ := by
    rintro _ ⟨⟩
    exact Nat.le_of_succ_le wide
  have keeps : library.Keeps (Width.admits ⟨some bits⟩ · = true) :=
    Library.withLibrary_keeps (system_keeps width) installed
  refine ⟨library, installed, ?_⟩
  intro calls source
  have passing (stack : List Int)
      (passed : Evaluation.Passes (library.withValues calls) source stack) :
      ∀ x ∈ stack, InRange bits x := fun x member =>
    (Width.admits_iff bits x).mp (Evaluation.passes_keep (keeps.withValues calls) passed x member)
  refine ⟨?_, passing⟩
  intro value evaluated
  exact passing [value] (Evaluation.passes_of_evaluate evaluated) value List.mem_cons_self

/-- The value of `100 + x` with eight bits, where `x` is set to true. -/
theorem operands_in_range_sample :
    3 ≤ 8 ∧ ∃ library, Library.withLibrary 0.5 (system ⟨some 8⟩) Settings.standard = .ok library ∧
      evaluate (library.withValues [.setVariable "x" (.bool true)]) "100 + x" = .ok 101 ∧
      InRange 8 101 := by
  obtain ⟨library, installed, bounded⟩ := operands_in_range 8 (by decide) 0.5 Settings.standard
  have computed : (Library.withLibrary 0.5 (system ⟨some 8⟩) Settings.standard).toOption.bind
      (fun library => (evaluate (library.withValues [.setVariable "x" (.bool true)])
        "100 + x").toOption) = some 101 := by decide +kernel
  rw [installed] at computed
  have evaluated : evaluate (library.withValues [.setVariable "x" (.bool true)]) "100 + x" =
      .ok 101 := by
    cases given : evaluate (library.withValues [.setVariable "x" (.bool true)]) "100 + x" with
    | ok value =>
      simp only [given, Except.toOption, Option.bind_some, Option.some.injEq] at computed
      rw [computed]
    | error fault => simp [given, Except.toOption] at computed
  exact ⟨by decide, library, installed, evaluated, (bounded _ _).1 101 evaluated⟩

end Reckoner.NumberSystem.Integer

import Reckoner.NumberSystem.Choice
import Reckoner.Proofs.NumberSystem.DecimalConstants
import Reckoner.Proofs.NumberSystem.IntegerRange
import Reckoner.Proofs.NumberSystem.IntegerUnbounded

/-! Number systems with the library. The library needs a zero, a one and the constants of a number system, and the
smallest systems are the ones that may lack them. Decimals of a single digit have all of them, but whole numbers of two
bits are at most one, so they have no circle number. -/

namespace Reckoner.Library

open Reckoner.NumberSystem

variable {draws : Draws} {settings : Settings}

/-- Whether a number system is one that can be made. -/
def Offered : Choice → Prop
  | .floating | .complex => True
  | .integer width => ∃ bits, Integer.Width.ofBits? bits = some width
  | .decimals c => ∃ precision range, Decimals.context? precision range = some c

theorem system_toDatum (choice : Choice) : choice.system.toDatum = choice.toDatum := by
  cases choice <;> rfl

/-- Whether a number system has a zero, a one, and constants under the usual names, which it takes in as they are. -/
def Furnished (choice : Choice) : Prop :=
  ∃ base constants, Base.of choice.system = .ok base ∧ choice.system.constants = .ok constants ∧
    ∀ entry ∈ constants, entry.1 ∈ constantNames ∧ choice.system.coerce (choice.toDatum entry.2) = .ok entry.2

theorem Furnished.withLibrary {choice : Choice} (furnished : Furnished choice) (draws : Draws) (settings : Settings) :
    ∃ library, withLibrary draws choice.system settings = .ok library := by
  obtain ⟨base, constants, based, given, fit⟩ := furnished
  refine withLibrary_eq_ok based given ?_ draws settings
  intro entry member
  obtain ⟨name, kept⟩ := fit entry member
  rw [system_toDatum]
  exact ⟨name, entry.2, kept⟩

/-! ### Number systems one by one -/

theorem floating_furnished : Furnished .floating := by
  refine ⟨_, _, rfl, rfl, ?_⟩
  simp only [List.forall_mem_cons]
  exact ⟨⟨by decide, rfl⟩, ⟨by decide, rfl⟩, List.forall_mem_nil _⟩

theorem complex_furnished : Furnished .complex := by
  refine ⟨_, _, rfl, rfl, ?_⟩
  simp only [List.cons_append, List.nil_append, List.forall_mem_cons]
  exact ⟨⟨by decide, rfl⟩, ⟨by decide, rfl⟩, ⟨by decide, rfl⟩, List.forall_mem_nil _⟩

theorem integer_furnished {width : Integer.Width} (roomy : width.Roomy) : Furnished (.integer width) :=
  ⟨_, _, Integer.base_of_roomy roomy, Integer.constants_of_roomy roomy, Integer.constants_kept roomy⟩

theorem decimals_furnished {c : Decimal.Context} (offered : c.Offered) : Furnished (.decimals c) := by
  obtain ⟨base, based⟩ := Decimals.base_eq_ok offered
  obtain ⟨pi, e, given, piKept, eKept⟩ := Decimals.constants_eq_ok offered
  refine ⟨base, _, based, given, ?_⟩
  simp only [List.forall_mem_cons]
  exact ⟨⟨by decide, piKept⟩, ⟨by decide, eKept⟩, List.forall_mem_nil _⟩

theorem roomy_of_ofBits? {bits : Option Int} {width : Integer.Width} (given : Integer.Width.ofBits? bits = some width)
    (wide : width ≠ ⟨some 2⟩) : width.Roomy := by
  cases bits with
  | none =>
    cases given
    exact nofun
  | some bits =>
    rw [Integer.Width.ofBits?] at given
    split at given
    · cases given
    · cases given
      have other : bits.toNat ≠ 2 := by
        intro two
        rw [two] at wide
        exact wide rfl
      exact Integer.Width.roomy_of_le (by omega)

theorem withLibrary_eq_error {α : Type} {system : NumberSystem α} {base : Base α}
    (based : Base.of system = .ok base) {fault : Fault} (refused : system.constants = .error fault) (draws : Draws)
    (settings : Settings) : withLibrary draws system settings = .error (.failed fault) := by
  have failed : install draws Vocabulary.standard (Registry.empty system settings) =
      (Registry.empty system settings, some (.failed fault)) := by
    simp only [install, Registry.empty, based, refused]
    rfl
  rw [withLibrary, failed, Registry.Attempt.outcome]

theorem constants_two_bits : (Integer.system ⟨some 2⟩).constants = .error (.report .overflow
    "Overflow: value 3.141592653589793238462643383279502884197 is out of range for i2") := by
  with_unfolding_all decide

/-- All number systems that can be made have the library, and take in its constants as they are, but for whole numbers
of two bits, for which the circle number is reported as an overflow. -/
theorem library_fits_all_but_two_bits (choice : Choice) (offered : Offered choice) (draws : Draws)
    (settings : Settings) :
    (choice ≠ .integer ⟨some 2⟩ → (∃ library, withLibrary draws choice.system settings = .ok library) ∧
      ∃ constants, choice.system.constants = .ok constants ∧
        ∀ entry ∈ constants, choice.system.coerce (choice.toDatum entry.2) = .ok entry.2) ∧
    (choice = .integer ⟨some 2⟩ → withLibrary draws choice.system settings =
      .error (.failed (.report .overflow
        "Overflow: value 3.141592653589793238462643383279502884197 is out of range for i2"))) := by
  constructor
  · intro wide
    have furnished : Furnished choice := by
      cases choice with
      | floating => exact floating_furnished
      | complex => exact complex_furnished
      | integer width =>
        obtain ⟨bits, given⟩ := offered
        exact integer_furnished (roomy_of_ofBits? given fun same => wide (congrArg Choice.integer same))
      | decimals c =>
        obtain ⟨precision, range, given⟩ := offered
        exact decimals_furnished (Decimals.offered_of_context? given)
    refine ⟨furnished.withLibrary draws settings, ?_⟩
    obtain ⟨base, constants, _, given, fit⟩ := furnished
    exact ⟨constants, given, fun entry member => (fit entry member).2⟩
  · rintro rfl
    have based : Base.of (Integer.system ⟨some 2⟩) = .ok ⟨Integer.system ⟨some 2⟩, 0, 1⟩ := rfl
    exact withLibrary_eq_error based constants_two_bits draws settings

/-- Decimals of one digit, whose exponents are zero, and whole numbers of three bits have the library. -/
theorem library_fits_least : Offered (.decimals ⟨1, 0, 0, true⟩) ∧ Offered (.integer ⟨some 3⟩) ∧
    (∃ library, withLibrary 0.5 (Decimals.system ⟨1, 0, 0, true⟩) Settings.standard = .ok library) ∧
    ∃ library, withLibrary 0.5 (Integer.system ⟨some 3⟩) Settings.standard = .ok library := by
  have digit : Offered (.decimals ⟨1, 0, 0, true⟩) := ⟨1, 0, by decide⟩
  have bits : Offered (.integer ⟨some 3⟩) := ⟨some 3, rfl⟩
  refine ⟨digit, bits, ?_, ?_⟩
  · exact ((library_fits_all_but_two_bits _ digit 0.5 Settings.standard).1 (by decide)).1
  · exact ((library_fits_all_but_two_bits _ bits 0.5 Settings.standard).1 (by decide)).1

/-- Whole numbers of two bits can be made, but the library does not fit them. -/
theorem library_beyond_two_bits : Integer.Width.ofBits? (some 2) = some ⟨some 2⟩ ∧
    ¬ ∃ library, withLibrary 0.5 (Integer.system ⟨some 2⟩) Settings.standard = .ok library := by
  have based : Base.of (Integer.system ⟨some 2⟩) = .ok ⟨Integer.system ⟨some 2⟩, 0, 1⟩ := rfl
  refine ⟨rfl, ?_⟩
  rintro ⟨library, installed⟩
  rw [withLibrary_eq_error based constants_two_bits] at installed
  cases installed

end Reckoner.Library

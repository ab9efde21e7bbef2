import Reckoner.Descriptor
import Reckoner.Proofs.Numeral

/-! Announcements of descriptors. They fail if a number in them has more digits than are written, and for no other
reason. -/

namespace Reckoner.Descriptor

open Reckoner.NumberSystem Reckoner.Numeral

variable {α : Type}

/-- Whether the numbers of a descriptor that are announced have no more digits than are written. -/
def Writable : Descriptor α → Prop
  | function f => f.minArgs < 10 ^ digitLimit ∧ ∀ most ∈ f.maxArgs, most < 10 ^ digitLimit
  | unary _ => True
  | binary operator => operator.precedence.natAbs < 10 ^ digitLimit

instance (descriptor : Descriptor α) : Decidable descriptor.Writable :=
  match descriptor with
  | function f => inferInstanceAs (Decidable (_ ∧ ∀ most ∈ f.maxArgs, most < _))
  | unary _ => inferInstanceAs (Decidable True)
  | binary _ => inferInstanceAs (Decidable (_ < _))

theorem announcement_of_writable {descriptor : Descriptor α} (writable : descriptor.Writable) :
    ∃ text, descriptor.announcement = .ok text := by
  cases descriptor with
  | function f =>
    obtain ⟨least, most⟩ := writable
    have greatest : f.maxArgs.getD 0 < 10 ^ digitLimit := by
      cases bounded : f.maxArgs with
      | none => exact Nat.pow_pos (by decide)
      | some count => exact most count bounded
    have first := writeInt_of_short (n := f.minArgs) least
    have second := writeInt_of_short (n := f.maxArgs.getD 0) greatest
    rw [announcement, NamedFunction.writeArity, first, second]
    exact ⟨_, rfl⟩
  | unary operator => exact ⟨_, rfl⟩
  | binary operator =>
    rw [announcement, writeInt_of_short writable]
    exact ⟨_, rfl⟩

theorem announcement_of_not_writable {descriptor : Descriptor α} (long : ¬ descriptor.Writable) :
    descriptor.announcement = .error tooLong := by
  cases descriptor with
  | function f =>
    rw [announcement, NamedFunction.writeArity]
    by_cases least : f.minArgs < 10 ^ digitLimit
    · have beyond : 10 ^ digitLimit ≤ f.maxArgs.getD 0 := by
        apply Nat.le_of_not_lt
        intro short
        refine long ⟨least, ?_⟩
        intro most bounded
        rw [Option.mem_def.mp bounded] at short
        exact short
      have first := writeInt_of_short (n := f.minArgs) least
      have second := writeInt_of_long (n := f.maxArgs.getD 0) beyond
      rw [first, second]
      rfl
    · have first := writeInt_of_long (n := f.minArgs) (Nat.le_of_not_lt least)
      rw [first]
      rfl
  | unary operator => exact absurd trivial long
  | binary operator =>
    rw [announcement, writeInt_of_long (Nat.le_of_not_lt long)]
    rfl

end Reckoner.Descriptor

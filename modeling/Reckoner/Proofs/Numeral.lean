import Reckoner.NumberSystem.Basic

/-! Which whole numbers have a text, and what is read from digits alone. -/

namespace Reckoner.Numeral

theorem digitCount_zero : digitCount 0 = 1 := by
  unfold digitCount
  rfl

/-- A number has few digits exactly if it is below the power of ten with so many zeros. -/
theorem digitCount_le_iff {n count : Nat} (positive : 0 < count) :
    digitCount n ≤ count ↔ n < 10 ^ count := by
  constructor
  · intro short
    exact Nat.lt_of_lt_of_le (lt_pow_digitCount n) (Nat.pow_le_pow_right (by decide) short)
  · intro below
    by_cases zero : n = 0
    · rw [zero, digitCount_zero]
      exact positive
    · have power := Nat.lt_of_le_of_lt (pow_digitCount_le zero) below
      have places := (Nat.pow_lt_pow_iff_right (by decide)).mp power
      omega

theorem digitCount_eq {n count : Nat} (positive : 0 < count) (above : 10 ^ (count - 1) ≤ n)
    (below : n < 10 ^ count) : digitCount n = count := by
  have most : digitCount n ≤ count := (digitCount_le_iff positive).mpr below
  have power := Nat.lt_of_le_of_lt above (lt_pow_digitCount n)
  have least := (Nat.pow_lt_pow_iff_right (by decide)).mp power
  omega

theorem digitCount_pow (count : Nat) : digitCount (10 ^ count) = count + 1 :=
  digitCount_eq (Nat.succ_pos count) (Nat.le_refl _)
    (Nat.pow_lt_pow_right (by decide) (Nat.lt_succ_self count))

/-- The numbers without a text are those of more digits than the limit allows. -/
theorem write?_eq_none_iff (n : Int) : write? n = none ↔ 10 ^ digitLimit ≤ n.natAbs := by
  have limit : digitCount n.natAbs ≤ digitLimit ↔ n.natAbs < 10 ^ digitLimit :=
    digitCount_le_iff (by decide)
  by_cases short : digitCount n.natAbs ≤ digitLimit
  · simp [write?, short, limit.mp short]
  · simp [write?, short, Nat.le_of_not_lt (short ∘ limit.mpr)]

/-! ### Digits alone -/

open Unicode

theorem mem_of_mem_strip {text : List Char} {c : Char} (member : c ∈ strip text) : c ∈ text := by
  have kept := (List.dropWhile_suffix isBlank).mem (List.mem_reverse.mp member)
  exact (List.dropWhile_suffix isBlank).mem (List.mem_reverse.mp kept)

theorem read?_nonneg {text : List Char} (digits : ∀ c ∈ text, isDecimalDigit c = true) {n : Int}
    (found : read? text = some n) : 0 ≤ n := by
  unfold read? at found
  split at found
  · rename_i rest signed
    have sign : '-' ∈ strip text := by simp [signed]
    exact absurd (digits _ (mem_of_mem_strip sign)) (by decide)
  · obtain ⟨value, _, rfl⟩ := Option.map_eq_some_iff.mp found
    exact Int.natCast_nonneg value
  · obtain ⟨value, _, rfl⟩ := Option.map_eq_some_iff.mp found
    exact Int.natCast_nonneg value

/-! ### What is read can be written -/

end Reckoner.Numeral

namespace Reckoner.NumberSystem

open Reckoner.Numeral

/-! ### Texts of whole numbers -/

theorem writeInt_of_short {n : Int} (short : n.natAbs < 10 ^ digitLimit) : writeInt n = .ok (toString n) := by
  rw [writeInt, write?, if_pos ((digitCount_le_iff (by decide)).mpr short)]

theorem writeInt_of_long {n : Int} (long : 10 ^ digitLimit ≤ n.natAbs) : writeInt n = .error tooLong := by
  rw [writeInt, (write?_eq_none_iff n).mpr long]

end Reckoner.NumberSystem

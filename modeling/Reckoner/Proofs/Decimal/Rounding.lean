import Reckoner.Decimal.Power
import Reckoner.Proofs.Numeral
import Reckoner.Proofs.Outcome

/-! The results of a decimal context. All arithmetic ends in one rounding, so what rounding gives is
what arithmetic gives; a context that reports what is out of its range gives decimals of its precision
in its range only. -/

namespace Reckoner.Decimal

open Reckoner.Numeral

theorem isFinite_iff {x : Decimal} : x.isFinite = true ↔
    ∃ negative coefficient exponent, x = finite negative coefficient exponent := by
  cases x <;> simp [isFinite]

/-- The first digits of a longer number, rounded, are as many as asked for or one more with zeros. -/
theorem dropDigits_bounds {coefficient digits : Nat} (positive : 0 < digits)
    (longer : digits < digitCount coefficient) :
    10 ^ (digits - 1) ≤ dropDigits coefficient (digitCount coefficient - digits) ∧
      dropDigits coefficient (digitCount coefficient - digits) ≤ 10 ^ digits := by
  obtain ⟨dropped, length⟩ := Nat.exists_eq_add_of_le (Nat.le_of_lt longer)
  have above := pow_digitCount_le (n := coefficient) (by
    rintro rfl
    rw [digitCount_zero] at longer
    omega)
  have below := lt_pow_digitCount coefficient
  have places : digitCount coefficient - 1 = digits - 1 + dropped := by omega
  rw [places, Nat.pow_add] at above
  rw [length, Nat.pow_add] at below
  obtain ⟨low, high⟩ := Rounding.quotient_bounds .halfEven false coefficient (10 ^ dropped)
  have unit : 0 < 10 ^ dropped := Nat.pow_pos (by decide)
  have least := (Nat.le_div_iff_mul_le unit).mpr above
  have most := (Nat.div_lt_iff_lt_mul unit).mpr below
  have rest : digitCount coefficient - digits = dropped := by omega
  rw [dropDigits, rest, if_neg (by omega)]
  omega

namespace Context

/-- Whether a decimal is a result that a context has room for: it is finite, with no more digits than
the precision, and zero or with its first digit between the bounds. -/
def Admits (c : Context) : Decimal → Prop
  | finite _ coefficient exponent =>
    digitCount coefficient ≤ c.precision ∧
      (coefficient = 0 ∨
        c.least ≤ leading coefficient exponent ∧ leading coefficient exponent ≤ c.greatest)
  | _ => False

/-- Whether a context reports all that is out of its range, which is as wide as its precision. -/
structure Checked (c : Context) : Prop where
  refuses : c.refusesSubnormal = true
  precise : 0 < c.precision
  least : c.least ≤ 0
  greatest : c.precision ≤ c.greatest

/-- Whether a property is one of all rounded numbers of a context, of zero, and of one with zeros
behind it. -/
structure Rounds (c : Context) (holds : Decimal → Prop) : Prop where
  finite : ∀ negative coefficient exponent,
    Yields holds (c.finishFinite negative coefficient exponent)
  zero : ∀ negative, holds (.finite negative 0 0)
  unit : ∀ negative (zeros : Nat), zeros ≤ c.precision - 1 →
    holds (.finite negative (10 ^ zeros) (-zeros))

variable {c : Context}

theorem Admits.isFinite {x : Decimal} (admitted : c.Admits x) : x.isFinite = true := by
  cases x with
  | finite => rfl
  | infinite => exact admitted.elim
  | notANumber => exact admitted.elim

theorem rounds_isFinite (c : Context) : c.Rounds (·.isFinite = true) where
  finite := by
    intro negative coefficient exponent
    unfold finishFinite
    refine .ite (.ok rfl) (.ite (.error _) (.ite (.ite (.error _) (.ite (.ok rfl) (.ok rfl))) ?_))
    exact .ite (.ok rfl) (.ite (.ok rfl) (.ite (.error _) (.ok rfl)))
  zero := fun _ => rfl
  unit := fun _ _ _ => rfl

/-- A number of full length has its first digit where its last one and its length say. -/
theorem admits_of_digitCount {negative : Bool} {coefficient : Nat} {exponent : Int}
    (length : digitCount coefficient = c.precision) (above : c.least ≤ exponent + c.precision - 1)
    (below : exponent + c.precision - 1 ≤ c.greatest) :
    c.Admits (.finite negative coefficient exponent) := by
  refine ⟨Nat.le_of_eq length, .inr ?_⟩
  rw [leading, length]
  exact ⟨above, below⟩

theorem finishFinite_admits (refuses : c.refusesSubnormal = true) (precise : 0 < c.precision) (negative : Bool)
    (coefficient : Nat) (exponent : Int) : Yields c.Admits (c.finishFinite negative coefficient exponent) := by
  intro result given
  unfold finishFinite at given
  dsimp only at given
  split at given
  · cases given
    exact ⟨by rw [digitCount_zero]; exact precise, .inl rfl⟩
  split at given
  · cases given
  rename_i fits
  split at given
  · cases given
  rename_i normal
  split at given
  · rename_i short
    cases given
    exact ⟨short, .inr ⟨Int.not_lt.mp normal, Int.not_lt.mp fits⟩⟩
  rename_i long
  obtain ⟨low, high⟩ := dropDigits_bounds precise (Nat.not_le.mp long)
  split at given
  · rename_i below
    cases given
    have length := digitCount_eq precise low below
    refine admits_of_digitCount length ?_ ?_ <;> omega
  rename_i carries
  split at given
  · cases given
  -- All digits were nines, and a one with zeros is left.
  cases given
  have carried := Nat.le_antisymm high (Nat.not_lt.mp carries)
  have shorter : 10 ^ c.precision / 10 = 10 ^ (c.precision - 1) := by
    rw [← Nat.pow_div precise (by decide), Nat.pow_one]
  have length : digitCount (10 ^ (c.precision - 1)) = c.precision := by
    rw [digitCount_pow]
    omega
  rw [carried, shorter]
  refine admits_of_digitCount length ?_ ?_ <;> omega

theorem rounds_admits (refuses : c.refusesSubnormal = true) (precise : 0 < c.precision) (least : c.least ≤ 0)
    (greatest : 0 ≤ c.greatest) : c.Rounds c.Admits where
  finite := finishFinite_admits refuses precise
  zero := fun _ => ⟨by rw [digitCount_zero]; exact precise, .inl rfl⟩
  unit := by
    intro negative zeros few
    have first : leading (10 ^ zeros) (-zeros) = 0 := by
      rw [leading, digitCount_pow]
      omega
    refine ⟨by rw [digitCount_pow]; omega, .inr ?_⟩
    rw [first]
    exact ⟨least, greatest⟩

theorem Checked.rounds (checked : c.Checked) : c.Rounds c.Admits :=
  rounds_admits checked.refuses checked.precise checked.least (by have wide := checked.greatest; omega)

theorem digitCount_quotient_le (mode : Rounding) (negative : Bool) {coefficient dropped digits : Nat}
    (positive : 0 < digits) (shortens : 1 ≤ dropped) (short : digitCount coefficient ≤ digits) :
    digitCount (mode.quotient negative coefficient (10 ^ dropped)) ≤ digits := by
  obtain ⟨_, most⟩ := Rounding.quotient_bounds mode negative coefficient (10 ^ dropped)
  have power : 10 ^ 1 ≤ 10 ^ dropped := Nat.pow_le_pow_right (by decide) shortens
  have tenth : coefficient / 10 ^ dropped ≤ coefficient / 10 := Nat.div_le_div_left power (by decide)
  have below := (digitCount_le_iff positive).mp short
  obtain ⟨places, rfl⟩ : ∃ places, digits = places + 1 := ⟨digits - 1, by omega⟩
  refine (digitCount_le_iff positive).mpr ?_
  rw [Nat.pow_succ] at below ⊢
  omega

/-- Rounding to a whole number does not make a number longer than the range. -/
theorem Checked.roundToWhole_admits (checked : c.Checked) (mode : Rounding) {x : Decimal}
    (admitted : c.Admits x) : c.Admits (x.roundToWhole mode) := by
  have precise := checked.precise
  have least := checked.least
  have greatest := checked.greatest
  cases x with
  | infinite => exact admitted.elim
  | notANumber => exact admitted.elim
  | finite negative coefficient exponent =>
    unfold roundToWhole
    dsimp only
    split
    · exact admitted
    have short := digitCount_quotient_le mode negative precise
      (show 1 ≤ min (-exponent).toNat (digitCount coefficient + 1) by omega) admitted.1
    generalize mode.quotient negative coefficient (10 ^ _) = whole at short
    have positive := digitCount_pos whole
    refine ⟨short, .inr ?_⟩
    rw [leading]
    omega

end Context

end Reckoner.Decimal

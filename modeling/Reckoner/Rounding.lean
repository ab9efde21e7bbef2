/-! Rounding of an exact quotient to a whole number. -/

namespace Reckoner

/-- Where a quotient that is not whole goes. Both half modes go to the nearer neighbour; a tie goes
away from zero under `halfUp` and to the even neighbour under `halfEven`. -/
inductive Rounding where
  | floor
  | ceiling
  | halfUp
  | halfEven
  | truncate
  deriving Repr, DecidableEq

namespace Rounding

/-- Whether the magnitude `whole + rest / denominator`, with `rest` below the denominator, goes up
for a number of the given sign. -/
def goesUp (mode : Rounding) (negative : Bool) (whole rest denominator : Nat) : Bool :=
  match mode with
  | floor => negative && rest != 0
  | ceiling => !negative && rest != 0
  | halfUp => denominator ≤ 2 * rest
  | halfEven => denominator < 2 * rest || (2 * rest == denominator && whole % 2 == 1)
  | truncate => false

/-- The rounded magnitude of a quotient of natural numbers that stands for a number of the given
sign. -/
def quotient (mode : Rounding) (negative : Bool) (numerator denominator : Nat) : Nat :=
  let whole := numerator / denominator
  if mode.goesUp negative whole (numerator % denominator) denominator then whole + 1 else whole

/-- A whole quotient is kept by every mode. -/
theorem quotient_of_mod_eq_zero (mode : Rounding) (negative : Bool) {numerator denominator : Nat}
    (positive : 0 < denominator) (whole : numerator % denominator = 0) :
    mode.quotient negative numerator denominator = numerator / denominator := by
  have : ¬ denominator = 0 := by omega
  cases mode <;> simp [quotient, goesUp, whole, this, Ne.symm this]

/-- Rounding moves a quotient to one of its two whole neighbours. -/
theorem quotient_bounds (mode : Rounding) (negative : Bool) (numerator denominator : Nat) :
    numerator / denominator ≤ mode.quotient negative numerator denominator ∧
      mode.quotient negative numerator denominator ≤ numerator / denominator + 1 := by
  unfold quotient
  dsimp only
  split <;> omega

end Rounding

end Reckoner

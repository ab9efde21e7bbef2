import Reckoner.Proofs.Decimal.Rounding

/-! Arithmetic on finite decimals gives what rounding gives. The one way to an infinity is a power of
zero with a negative exponent. -/

namespace Reckoner.Decimal.Context

variable {c : Context} {holds : Decimal → Prop} {x y : Decimal}

theorem Rounds.finish (rounds : c.Rounds holds) (given : x.isFinite = true) :
    Yields holds (c.finish x) := by
  obtain ⟨s, m, e, rfl⟩ := isFinite_iff.mp given
  exact rounds.finite s m e

theorem Rounds.add (rounds : c.Rounds holds) (first : x.isFinite = true) (second : y.isFinite = true) :
    Yields holds (c.add x y) := by
  obtain ⟨s, m, e, rfl⟩ := isFinite_iff.mp first
  obtain ⟨t, n, f, rfl⟩ := isFinite_iff.mp second
  exact .ite (rounds.finite _ _ _) (rounds.finite _ _ _)

theorem Rounds.sub (rounds : c.Rounds holds) (first : x.isFinite = true) (second : y.isFinite = true) :
    Yields holds (c.sub x y) := by
  obtain ⟨s, m, e, rfl⟩ := isFinite_iff.mp first
  obtain ⟨t, n, f, rfl⟩ := isFinite_iff.mp second
  exact .ite (rounds.finite _ _ _) (rounds.finite _ _ _)

theorem Rounds.mul (rounds : c.Rounds holds) (first : x.isFinite = true) (second : y.isFinite = true) :
    Yields holds (c.mul x y) := by
  obtain ⟨s, m, e, rfl⟩ := isFinite_iff.mp first
  obtain ⟨t, n, f, rfl⟩ := isFinite_iff.mp second
  exact rounds.finite _ _ _

theorem Rounds.div (rounds : c.Rounds holds) (first : x.isFinite = true) (second : y.isFinite = true) :
    Yields holds (c.div x y) := by
  obtain ⟨s, m, e, rfl⟩ := isFinite_iff.mp first
  obtain ⟨t, n, f, rfl⟩ := isFinite_iff.mp second
  refine .ite (.error _) (.ite (rounds.finite _ _ _) ?_)
  exact .ite (rounds.finite _ _ _) (rounds.finite _ _ _)

theorem Rounds.rem (rounds : c.Rounds holds) (first : x.isFinite = true) (second : y.isFinite = true) :
    Yields holds (c.rem x y) := by
  obtain ⟨s, m, e, rfl⟩ := isFinite_iff.mp first
  obtain ⟨t, n, f, rfl⟩ := isFinite_iff.mp second
  refine .ite (.error _) (.ite (rounds.finite _ _ _) (.ite (rounds.finite _ _ _) ?_))
  exact .ite (.error _) (.ite (.error _) (rounds.finite _ _ _))

theorem Rounds.plus (rounds : c.Rounds holds) (given : x.isFinite = true) :
    Yields holds (c.plus x) := by
  obtain ⟨s, m, e, rfl⟩ := isFinite_iff.mp given
  exact rounds.finite _ _ _

theorem Rounds.neg (rounds : c.Rounds holds) (given : x.isFinite = true) :
    Yields holds (c.neg x) := by
  obtain ⟨s, m, e, rfl⟩ := isFinite_iff.mp given
  exact rounds.finite _ _ _

theorem Rounds.abs (rounds : c.Rounds holds) (given : x.isFinite = true) :
    Yields holds (c.abs x) :=
  .ite (rounds.neg given) (rounds.plus given)

theorem Rounds.sqrt (rounds : c.Rounds holds) (given : x.isFinite = true) :
    Yields holds (c.sqrt x) := by
  obtain ⟨s, m, e, rfl⟩ := isFinite_iff.mp given
  refine .ite (rounds.finite _ _ _) (.ite (.error _) ?_)
  exact .ite (rounds.finite _ _ _) (rounds.finite _ _ _)

theorem Rounds.scale (rounds : c.Rounds holds) (given : x.isFinite = true) (power : Int) :
    Yields holds (c.scale x power) := by
  obtain ⟨s, m, e, rfl⟩ := isFinite_iff.mp given
  exact .ite (.error _) (rounds.finite _ _ _)

/-! ### Powers -/

theorem isFinite_withSign (negative : Bool) (given : x.isFinite = true) :
    (x.withSign negative).isFinite = true := by
  obtain ⟨s, m, e, rfl⟩ := isFinite_iff.mp given
  rfl

theorem powerBits_isFinite (base : x.isFinite = true) (bits : List Bool) {power : Decimal}
    (given : power.isFinite = true) :
    Yields (·.isFinite = true) (c.powerBits x bits power) := by
  have rounds := rounds_isFinite c
  induction bits generalizing power with
  | nil => exact .ok given
  | cons bit bits ih =>
    unfold powerBits
    refine (rounds.mul given given).andThen ?_
    intro square squared
    refine .iteThen (rounds.mul squared base) (.ok squared) ?_
    intro next kept
    exact .ite (.ok kept) (ih kept)

theorem Rounds.wholePower (rounds : c.Rounds holds) (negative : Bool) (base : x.isFinite = true)
    (below : Bool) (exponent length : Nat) :
    Yields holds (c.wholePower negative x below exponent length) := by
  unfold Context.wholePower
  refine .iteThen ((rounds_isFinite _).div rfl base) (.ok base) ?_
  intro base kept
  refine (powerBits_isFinite kept (lowerBits exponent) kept).andThen ?_
  intro power given
  exact rounds.finish (isFinite_withSign negative given)

theorem Rounds.powerOfOne (rounds : c.Rounds holds) (negative : Bool) (places : Nat)
    (exponent : Decimal) : holds (c.powerOfOne negative places exponent) := by
  refine rounds.unit negative _ ?_
  split
  · exact Nat.le_refl _
  · split
    · exact Nat.zero_le _
    · split
      · exact Nat.le_refl _
      · exact Nat.min_le_right _ _

theorem isFinite_ln (digits coefficient : Nat) (exponent : Int) :
    (Decimal.ln digits coefficient exponent).isFinite = true := by
  rw [Decimal.ln]
  split
  rfl

theorem isFinite_exp (digits : Nat) (negative : Bool) (coefficient : Nat) (exponent : Int) :
    (Decimal.exp digits negative coefficient exponent).isFinite = true := by
  rw [Decimal.exp]
  split
  rfl

theorem Rounds.generalPower (rounds : c.Rounds holds) (negative : Bool) (m : Nat) (e : Int) (t : Bool)
    (n : Nat) (f : Int) : Yields holds (c.generalPower negative m e t n f) := by
  unfold Context.generalPower
  refine .ite (.error _) (.ite (rounds.finite _ _ _) (.ite ?_ ?_))
  · exact rounds.wholePower negative rfl t _ _
  · refine ((rounds_isFinite _).mul (isFinite_ln _ m e) rfl).andThen ?_
    intro product kept
    obtain ⟨s, k, g, rfl⟩ := isFinite_iff.mp kept
    exact rounds.finish (isFinite_exp _ s k g)

/-- A power of finite decimals, unless it is one of zero with a negative exponent. -/
theorem Rounds.power (rounds : c.Rounds holds) (first : x.isFinite = true)
    (second : y.isFinite = true) (apart : x.isZero = true → order y Decimal.zero ≠ .lt) :
    Yields holds (c.power x y) := by
  obtain ⟨s, m, e, rfl⟩ := isFinite_iff.mp first
  obtain ⟨t, n, f, rfl⟩ := isFinite_iff.mp second
  show Yields holds (c.powerFinite s m e t n f)
  unfold powerFinite
  dsimp only
  split
  · rename_i zero
    split
    · exact .error _
    · rename_i positive
      have positiveExponent : t = false := by
        have notBelow := apart (by simp [isZero, zero])
        simpa [order, Decimal.zero, positive] using notBelow
      rw [positiveExponent]
      exact .ok (rounds.zero _)
  · refine .ite (.error _) (.ite (.ok (rounds.unit _ 0 (Nat.zero_le _))) (.ite ?_ ?_))
    · exact .ok (rounds.powerOfOne _ _ _)
    · exact rounds.generalPower _ m e t n f

end Reckoner.Decimal.Context

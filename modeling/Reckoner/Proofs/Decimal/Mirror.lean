import Reckoner.Proofs.Decimal.Accuracy

/-! Decimals that differ in their signs are computed with alike. Rounding to the nearest neighbour, with a tie to the
even one, does not tell the two sides of zero apart; so two runs on operands that are the same numbers up to their
signs take the same branches, fail with the same signals and give the same numbers up to a sign. -/

namespace Reckoner.Decimal

/-! ### Matching outcomes -/

/-- Two outcomes match if both have a value and the values are related, or if both are the same failure. -/
inductive Matched {ε β γ : Type} (related : β → γ → Prop) : Except ε β → Except ε γ → Prop where
  | value {x : β} {y : γ} (same : related x y) : Matched related (.ok x) (.ok y)
  | failure (fault : ε) : Matched related (.error fault) (.error fault)

namespace Matched

variable {ε β γ δ : Type} {related : β → γ → Prop}

theorem andThen {β' γ' : Type} {before : β' → γ' → Prop} {first : Except ε β'} {second : Except ε γ'}
    {next : β' → Except ε β} {other : γ' → Except ε γ} (matched : Matched before first second)
    (later : ∀ x y, before x y → Matched related (next x) (other y)) :
    Matched related (first >>= next) (second >>= other) := by
  cases matched with
  | value same => exact later _ _ same
  | failure fault => exact .failure fault

theorem bind {first : Except ε δ} {next : δ → Except ε β} {other : δ → Except ε γ}
    (later : ∀ x, first = .ok x → Matched related (next x) (other x)) :
    Matched related (first >>= next) (first >>= other) := by
  cases first with
  | ok x => exact later x rfl
  | error fault => exact .failure fault

theorem ofYields {kept : δ → Prop} {first : Except ε δ} {next : δ → Except ε β} {other : δ → Except ε γ}
    (yields : Yields kept first) (later : ∀ x, kept x → Matched related (next x) (other x)) :
    Matched related (first >>= next) (first >>= other) :=
  .bind fun x found => later x (yields x found)

theorem iteOf {condition alike : Prop} [Decidable condition] [Decidable alike] (same : condition ↔ alike)
    {left right : Except ε β} {left' right' : Except ε γ} (first : condition → Matched related left left')
    (second : ¬ condition → Matched related right right') :
    Matched related (if condition then left else right) (if alike then left' else right') := by
  by_cases holds : condition
  · rw [if_pos holds, if_pos (same.mp holds)]
    exact first holds
  · rw [if_neg holds, if_neg (mt same.mpr holds)]
    exact second holds

theorem ite {condition : Prop} [Decidable condition] {left right : Except ε β} {left' right' : Except ε γ}
    (first : condition → Matched related left left') (second : ¬ condition → Matched related right right') :
    Matched related (if condition then left else right) (if condition then left' else right') :=
  .iteOf .rfl first second

theorem iteThen {condition : Prop} [Decidable condition] {kept : δ → Prop} {left right : Except ε δ}
    {next : δ → Except ε β} {other : δ → Except ε γ} (first : Yields kept left) (second : Yields kept right)
    (later : ∀ x, kept x → Matched related (next x) (other x)) :
    Matched related (if condition then left >>= next else right >>= next)
      (if condition then left >>= other else right >>= other) :=
  .ite (fun _ => .ofYields first later) fun _ => .ofYields second later

theorem source {first : Except ε β} {second : Except ε γ} (matched : Matched related first second) :
    Matched (fun x y => first = .ok x ∧ related x y) first second := by
  cases matched with
  | value same => exact .value ⟨rfl, same⟩
  | failure fault => exact .failure fault

theorem settles {holds : β → Prop} {first : Except ε β} {second : Except ε γ} (matched : Matched related first second)
    (settles : Settles holds first) : Settles (fun y => ∃ x, first = .ok x ∧ holds x ∧ related x y) second := by
  obtain ⟨x, found, held⟩ := settles.exists_eq
  cases matched with
  | value same =>
    cases found
    exact .ok ⟨_, rfl, held, same⟩
  | failure fault => cases found

theorem lift {left : Except Signal β} {right : Except Signal γ} (matched : Matched related left right) :
    Matched related (liftM left : Computed β) (liftM right : Computed γ) := by
  cases matched with
  | value same => exact .value same
  | failure signal => exact .failure _

end Matched

/-! ### Numbers up to a sign -/

/-- Whether two decimals are finite, and the second one is the number of the first one times a sign. -/
structure Mirror (sign : ℤˣ) (x y : Decimal) : Prop where
  first : x.isFinite = true
  second : y.isFinite = true
  value_eq : y.value = (sign : ℤ) * x.value

namespace Mirror

variable {sign : ℤˣ} {x y : Decimal}

theorem refl (given : x.isFinite = true) : Mirror 1 x x := ⟨given, given, by simp⟩

theorem abs_eq (mirror : Mirror sign x y) : |y.value| = |x.value| := by
  rw [mirror.value_eq]
  rcases Int.units_eq_one_or sign with rfl | rfl <;> simp

theorem value_same (mirror : Mirror 1 x y) : y.value = x.value := by
  rw [mirror.value_eq]
  simp

theorem value_neg (mirror : Mirror (-1) x y) : y.value = -x.value := by
  rw [mirror.value_eq]
  simp

theorem symm (mirror : Mirror (-1) x y) : Mirror (-1) y x :=
  ⟨mirror.second, mirror.first, by rw [mirror.value_neg]; simp⟩

theorem zero_iff (mirror : Mirror sign x y) : y.value = 0 ↔ x.value = 0 := by
  rw [← abs_eq_zero, mirror.abs_eq, abs_eq_zero]

end Mirror

/-- The decimal with the other sign. -/
def opposite (x : Decimal) : Decimal := x.withSign !x.isNegative

theorem mirror_opposite {x : Decimal} (given : x.isFinite = true) : Mirror (-1) x x.opposite := by
  obtain ⟨s, m, e, rfl⟩ := isFinite_iff.mp given
  refine ⟨rfl, rfl, ?_⟩
  rw [opposite, withSign, Context.value_finite, Context.value_finite]
  cases s <;> simp [isNegative, Context.signed]

namespace Context

variable {c : Context} {x x' y y' : Decimal} {sign : ℤˣ}

/-! ### Roundings -/

theorem round_neg (c : Context) (q : ℚ) : c.round (-q) = (c.round q).map (-·) := by
  by_cases zero : q = 0
  · simp [zero, round_zero, Except.map]
  unfold round
  rw [if_neg zero, if_neg (neg_ne_zero.mpr zero), abs_neg, roundAt_neg, roundAt_neg, abs_neg]
  split
  · rfl
  split
  · split <;> rfl
  split <;> rfl

theorem round_sign (c : Context) (sign : ℤˣ) (q : ℚ) :
    c.round ((sign : ℤ) * q) = (c.round q).map fun r => ((sign : ℤ) : ℚ) * r := by
  rcases Int.units_eq_one_or sign with rfl | rfl
  · cases rounded : c.round q <;> simp [rounded, Except.map]
  · have turned := c.round_neg q
    cases rounded : c.round q <;> rw [rounded] at turned <;> simpa [Except.map] using turned

theorem Gives.matched {q r : ℚ} {first second : Except Signal Decimal} (left : c.Gives q first)
    (right : c.Gives r second) (mirrored : r = (sign : ℤ) * q) : Matched (Mirror sign) first second := by
  have rounded := right.rounded
  rw [mirrored, round_sign, ← left.rounded] at rounded
  cases first with
  | ok z =>
    cases second with
    | ok z' => exact .value ⟨left.isFinite z rfl, right.isFinite z' rfl, Except.ok.inj rounded⟩
    | error signal => cases rounded
  | error signal =>
    cases second with
    | ok z' => cases rounded
    | error other =>
      cases rounded
      exact .failure signal

theorem isLess_mirror (left : Mirror 1 x x') (right : Mirror 1 y y') : isLess x y = isLess x' y' := by
  rw [isLess_eq left.first right.first, isLess_eq left.second right.second, left.value_same, right.value_same]

theorem isAtMost_mirror (left : Mirror 1 x x') (right : Mirror 1 y y') : isAtMost x y = isAtMost x' y' := by
  rw [isAtMost_eq left.first right.first, isAtMost_eq left.second right.second, left.value_same, right.value_same]

/-! ### Operations -/

section
variable (precise : 0 < c.precision)
include precise

section
variable (left : Mirror sign x x')
include left

theorem neg_matched : Matched (Mirror sign) (c.neg x) (c.neg x') :=
  (neg_gives precise left.first).matched (neg_gives precise left.second) (by rw [left.value_eq]; ring)

theorem abs_matched : Matched (Mirror 1) (c.abs x) (c.abs x') :=
  (abs_gives precise left.first).matched (abs_gives precise left.second) (by rw [left.abs_eq]; simp)

theorem plus_matched : Matched (Mirror sign) (c.plus x) (c.plus x') :=
  (plus_gives precise left.first).matched (plus_gives precise left.second) left.value_eq

theorem add_matched (right : Mirror sign y y') : Matched (Mirror sign) (c.add x y) (c.add x' y') :=
  (add_gives precise left.first right.first).matched (add_gives precise left.second right.second)
    (by rw [left.value_eq, right.value_eq]; ring)

theorem sub_matched_add (given : y.isFinite = true) (turned : sign = -1) :
    Matched (Mirror sign) (c.sub x y) (c.add x' y) := by
  subst turned
  exact (sub_gives precise left.first given).matched (add_gives precise left.second given)
    (by rw [left.value_neg]; simp; ring)

theorem add_matched_sub (given : y.isFinite = true) (turned : sign = -1) :
    Matched (Mirror sign) (c.add x y) (c.sub x' y) := by
  subst turned
  exact (add_gives precise left.first given).matched (sub_gives precise left.second given)
    (by rw [left.value_neg]; simp; ring)

theorem mul_matched (right : Mirror 1 y y') : Matched (Mirror sign) (c.mul x y) (c.mul x' y') :=
  (mul_gives precise left.first right.first).matched (mul_gives precise left.second right.second)
    (by rw [left.value_eq, right.value_same]; ring)

theorem mul_self_matched : Matched (Mirror 1) (c.mul x x) (c.mul x' x') :=
  (mul_gives precise left.first left.first).matched (mul_gives precise left.second left.second)
    (by rw [← abs_mul_abs_self, left.abs_eq, abs_mul_abs_self]; simp)

theorem div_matched (given : y.isFinite = true) (nonzero : y.value ≠ 0) :
    Matched (Mirror sign) (c.div x y) (c.div x' y) :=
  (div_gives precise left.first given nonzero).matched (div_gives precise left.second given nonzero)
    (by rw [left.value_eq]; ring)

/-- The quotients are as long as each other, and so the remainders are invalid together. -/
theorem rem_matched (given : y.isFinite = true) (nonzero : y.value ≠ 0) :
    Matched (Mirror sign) (c.rem x y) (c.rem x' y) := by
  have quotient : |truncated (x'.value / y.value)| = |truncated (x.value / y.value)| := by
    rw [left.value_eq]
    rcases Int.units_eq_one_or sign with rfl | rfl <;> simp [neg_div, truncated_neg]
  have rest : remainder x'.value y.value = (sign : ℤ) * remainder x.value y.value := by
    rw [left.value_eq]
    rcases Int.units_eq_one_or sign with rfl | rfl <;> simp [remainder_neg]
  rcases lt_or_ge |truncated (x.value / y.value)| (10 ^ c.precision) with few | many
  · exact (rem_gives precise left.first given nonzero few).matched
      (rem_gives precise left.second given nonzero (quotient ▸ few)) rest
  · rw [rem_refuses left.first given nonzero many, rem_refuses left.second given nonzero (quotient ▸ many)]
    exact .failure _

end

/-! ### Series -/

/-- Series whose terms are pairwise the same numbers up to a sign stop at the same term. -/
theorem addTerms_matched {next : Nat → Decimal → Except Signal (Decimal × Decimal)}
    {next' : Nat → Decimal → Except Signal (Decimal × Decimal)}
    (terms : ∀ index factor factor', 1 ≤ index → Mirror sign factor factor' →
      Matched (fun made made' => Mirror sign made.1 made'.1 ∧ Mirror sign made.2 made'.2)
        (next index factor) (next' index factor'))
    {epsilon : Decimal} (small : epsilon.isFinite = true) (fuel : Nat) {index : Nat} (counted : 1 ≤ index)
    {factor factor' total total' : Decimal} (carried : Mirror sign factor factor')
    (summed : Mirror sign total total') :
    Matched (fun sum sum' => Mirror sign sum.total sum'.total) (c.addTerms epsilon next fuel index factor total)
      (c.addTerms epsilon next' fuel index factor' total') := by
  induction fuel generalizing index factor factor' total total' with
  | zero => exact .value summed
  | succ fuel ih =>
    unfold addTerms
    apply (terms index factor factor' counted carried).andThen
    intro made made' continued
    obtain ⟨carried, term⟩ := continued
    apply (add_matched precise summed term).andThen
    intro total total' summed
    apply (abs_matched precise term).andThen
    intro size size' measured
    rw [isLess_mirror measured (.refl small)]
    exact .bind fun below _ => .ite (fun _ => .value summed) fun _ => ih (by omega) carried summed

/-- A series in the odd powers of a number has opposite sums for opposite numbers. -/
theorem sinSeries_matched (left : Mirror sign x x') :
    Matched (fun sum sum' => Mirror sign sum.total sum'.total) (c.sinSeries x) (c.sinSeries x') := by
  apply (mul_self_matched precise left).andThen
  intro square square' squared
  refine .bind ?_
  intro epsilon found
  have small := ((scale_reaches precise rfl _).yields epsilon found).isFinite
  refine addTerms_matched precise ?_ small seriesBound le_rfl left left
  intro index term term' counted same
  have divides : (ofInt (2 * index * (2 * index + 1))).value ≠ 0 := by
    rw [value_ofInt]
    have positive : (0 : ℤ) < 2 * index * (2 * index + 1) := by positivity
    exact_mod_cast positive.ne'
  apply (neg_matched precise same).andThen
  intro opposite opposite' turned
  apply (mul_matched precise turned squared).andThen
  intro product product' multiplied
  apply (div_matched precise multiplied rfl divides).andThen
  intro term term' same
  exact .value ⟨same, same⟩

end

end Context

end Reckoner.Decimal

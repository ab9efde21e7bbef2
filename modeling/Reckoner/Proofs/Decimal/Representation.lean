import Reckoner.Proofs.Decimal.Quotients
import Reckoner.Proofs.Decimal.Series

/-! Decimals of one number are computed with alike. Two runs on operands that are pairwise the same numbers
take the same branches, add the same number of terms and give the same number, whatever coefficients and
exponents stand for the operands. -/

namespace Reckoner.Decimal

/-! ### Pairs of outcomes -/

/-- Whether the values of two outcomes, if both have one, are related. -/
def Paired {ε β γ : Type} (related : β → γ → Prop) (first : Except ε β) (second : Except ε γ) : Prop :=
  ∀ x y, first = .ok x → second = .ok y → related x y

namespace Paired

variable {ε β γ δ : Type} {related : β → γ → Prop}

theorem ok {x : β} {y : γ} (same : related x y) : Paired related (.ok x : Except ε β) (.ok y) := by
  rintro _ _ ⟨⟩ ⟨⟩
  exact same

theorem andThen {β' γ' : Type} {before : β' → γ' → Prop} {first : Except ε β'} {second : Except ε γ'}
    {next : β' → Except ε β} {other : γ' → Except ε γ} (paired : Paired before first second)
    (later : ∀ x y, before x y → Paired related (next x) (other y)) :
    Paired related (first >>= next) (second >>= other) := by
  intro x y left right
  obtain ⟨a, found, left⟩ := bind_eq_ok.mp left
  obtain ⟨b, known, right⟩ := bind_eq_ok.mp right
  exact later a b (paired a b found known) x y left right

theorem bind {first : Except ε δ} {next : δ → Except ε β} {other : δ → Except ε γ}
    (later : ∀ x, first = .ok x → Paired related (next x) (other x)) :
    Paired related (first >>= next) (first >>= other) := by
  intro x y left right
  obtain ⟨a, found, left⟩ := bind_eq_ok.mp left
  obtain ⟨b, known, right⟩ := bind_eq_ok.mp right
  obtain rfl := Except.ok.inj (found.symm.trans known)
  exact later a found x y left right

theorem ite {condition : Prop} [Decidable condition] {left right : Except ε β} {left' right' : Except ε γ}
    (first : Paired related left left') (second : Paired related right right') :
    Paired related (if condition then left else right) (if condition then left' else right') := by
  split
  · exact first
  · exact second

theorem lift {left : Except Signal β} {right : Except Signal γ} (paired : Paired related left right) :
    Paired related (liftM left : Computed β) (liftM right : Computed γ) := by
  cases left with
  | error signal => exact nofun
  | ok x =>
    cases right with
    | error signal => exact fun _ _ _ => nofun
    | ok y => exact ok (paired x y rfl rfl)

end Paired

/-- Whether two decimals are finite and one number. -/
structure SameNumber (x y : Decimal) : Prop where
  first : x.isFinite = true
  second : y.isFinite = true
  value_eq : x.value = y.value

theorem SameNumber.refl {x : Decimal} (given : x.isFinite = true) : SameNumber x x := ⟨given, given, rfl⟩

namespace Context

variable {c : Context} {x x' y y' : Decimal}

theorem isLess_congr (left : SameNumber x x') (right : SameNumber y y') : isLess x y = isLess x' y' := by
  rw [isLess_eq left.first right.first, isLess_eq left.second right.second, left.value_eq, right.value_eq]

theorem paired_of_reaches {q : ℚ} {first second : Except Signal Decimal} (left : Reaches (c.IsRounding q) first)
    (right : Reaches (c.IsRounding q) second) : Paired SameNumber first second := by
  intro z z' found known
  have rounding := left.yields z found
  have other := right.yields z' known
  exact ⟨rounding.isFinite, other.isFinite, rounding.value_eq other⟩

section
variable (precise : 0 < c.precision)
include precise

section
variable (left : SameNumber x x')
include left

theorem neg_paired : Paired SameNumber (c.neg x) (c.neg x') :=
  paired_of_reaches (neg_reaches precise left.first) (left.value_eq ▸ neg_reaches precise left.second)

theorem abs_paired : Paired SameNumber (c.abs x) (c.abs x') :=
  paired_of_reaches (abs_reaches precise left.first) (left.value_eq ▸ abs_reaches precise left.second)

theorem plus_paired : Paired SameNumber (c.plus x) (c.plus x') :=
  paired_of_reaches (plus_reaches precise left.first) (left.value_eq ▸ plus_reaches precise left.second)

variable (right : SameNumber y y')
include right

theorem add_paired : Paired SameNumber (c.add x y) (c.add x' y') :=
  paired_of_reaches (add_reaches precise left.first right.first)
    (left.value_eq ▸ right.value_eq ▸ add_reaches precise left.second right.second)

theorem sub_paired : Paired SameNumber (c.sub x y) (c.sub x' y') :=
  paired_of_reaches (sub_reaches precise left.first right.first)
    (left.value_eq ▸ right.value_eq ▸ sub_reaches precise left.second right.second)

theorem mul_paired : Paired SameNumber (c.mul x y) (c.mul x' y') :=
  paired_of_reaches (mul_reaches precise left.first right.first)
    (left.value_eq ▸ right.value_eq ▸ mul_reaches precise left.second right.second)

theorem rem_paired : Paired SameNumber (c.rem x y) (c.rem x' y') :=
  paired_of_reaches (rem_reaches precise left.first right.first)
    (left.value_eq ▸ right.value_eq ▸ rem_reaches precise left.second right.second)

end

theorem div_paired (left : SameNumber x x') (right : SameNumber y y') :
    Paired SameNumber (c.div x y) (c.div x' y') := by
  by_cases zero : y.value = 0
  · obtain ⟨s, m, e, rfl⟩ := isFinite_iff.mp left.first
    obtain ⟨t, n, f, rfl⟩ := isFinite_iff.mp right.first
    have none : n = 0 := by simpa [isZero] using (isZero_iff right.first).mpr zero
    intro z z' found
    rw [div, if_pos none] at found
    cases found
  · exact paired_of_reaches (div_reaches precise left.first right.first zero)
      (left.value_eq ▸ right.value_eq ▸ div_reaches precise left.second right.second (right.value_eq ▸ zero))

/-! ### Series -/

/-- Series whose terms are pairwise the same numbers stop at the same term with the same sum. -/
theorem addTerms_paired {next : Nat → Decimal → Except Signal (Decimal × Decimal)}
    {next' : Nat → Decimal → Except Signal (Decimal × Decimal)}
    (terms : ∀ index factor factor', SameNumber factor factor' →
      Paired (fun made made' => SameNumber made.1 made'.1 ∧ SameNumber made.2 made'.2)
        (next index factor) (next' index factor'))
    {epsilon epsilon' : Decimal} (small : SameNumber epsilon epsilon') (fuel index : Nat)
    {factor factor' total total' : Decimal} (carried : SameNumber factor factor') (summed : SameNumber total total') :
    Paired (fun sum sum' => SameNumber sum.total sum'.total) (c.addTerms epsilon next fuel index factor total)
      (c.addTerms epsilon' next' fuel index factor' total') := by
  induction fuel generalizing index factor factor' total total' with
  | zero => exact .ok summed
  | succ fuel ih =>
    unfold addTerms
    refine (terms index factor factor' carried).andThen ?_
    intro made made' continued
    obtain ⟨carried, term⟩ := continued
    refine (add_paired precise summed term).andThen ?_
    intro total total' summed
    refine (abs_paired precise term).andThen ?_
    intro size size' measured
    rw [isLess_congr measured small]
    exact .bind fun below _ => .ite (.ok summed) (ih (index + 1) carried summed)

theorem sumSeries_paired {next : Nat → Decimal → Except Signal (Decimal × Decimal)}
    {next' : Nat → Decimal → Except Signal (Decimal × Decimal)}
    (terms : ∀ index factor factor', SameNumber factor factor' →
      Paired (fun made made' => SameNumber made.1 made'.1 ∧ SameNumber made.2 made'.2)
        (next index factor) (next' index factor'))
    (left : SameNumber x x') :
    Paired (fun sum sum' => SameNumber sum.total sum'.total) (c.sumSeries x next) (c.sumSeries x' next') := by
  refine .bind ?_
  intro epsilon found
  have sound := ((scale_reaches precise rfl _).yields epsilon found).isFinite
  exact addTerms_paired precise terms (.refl sound) _ _ left left

theorem sinSeries_paired (left : SameNumber x x') :
    Paired (fun sum sum' => SameNumber sum.total sum'.total) (c.sinSeries x) (c.sinSeries x') := by
  refine (mul_paired precise left left).andThen ?_
  intro square square' squared
  refine sumSeries_paired precise ?_ left
  intro index term term' same
  refine (neg_paired precise same).andThen ?_
  intro opposite opposite' turned
  refine (mul_paired precise turned squared).andThen ?_
  intro product product' multiplied
  refine (div_paired precise multiplied (.refl rfl)).andThen ?_
  intro term term' same
  exact .ok ⟨same, same⟩

theorem expSeries_paired (left : SameNumber x x') :
    Paired (fun sum sum' => SameNumber sum.total sum'.total) (c.expSeries x) (c.expSeries x') := by
  refine sumSeries_paired precise ?_ (.refl rfl)
  intro index term term' same
  refine (mul_paired precise same left).andThen ?_
  intro product product' multiplied
  refine (div_paired precise multiplied (.refl rfl)).andThen ?_
  intro term term' same
  exact .ok ⟨same, same⟩

/-! ### The sine in degrees -/

variable {k : Constants} (constants : k.AllFinite)
include constants

theorem reduceAngle_paired (left : SameNumber x x') :
    Paired SameNumber (c.reduceAngle k x) (c.reduceAngle k x') := by
  have circle := SameNumber.refl constants.pi
  have turn := SameNumber.refl constants.twoPi
  refine (rem_paired precise left turn).andThen ?_
  intro r r' rest
  rw [isLess_congr circle rest]
  refine .bind ?_
  intro above _
  refine .ite (sub_paired precise rest turn) ?_
  refine (neg_paired precise circle).andThen ?_
  intro opposite opposite' turned
  rw [isLess_congr rest turned]
  exact .bind fun below _ => .ite (add_paired precise rest turn) (.ok rest)

theorem radians_paired (left : SameNumber x x') : Paired SameNumber (c.radians k x) (c.radians k x') := by
  refine (mul_paired precise left (.refl constants.pi)).andThen ?_
  intro _ _ same
  exact div_paired precise same (.refl rfl)

theorem sinReduced_paired (left : SameNumber x x') : Paired SameNumber (c.sinReduced k x) (c.sinReduced k x') := by
  refine (reduceAngle_paired precise constants left).andThen ?_
  intro _ _ reduced
  refine (sinSeries_paired precise reduced).andThen ?_
  intro _ _ same
  exact .ok same

end

end Context

end Reckoner.Decimal

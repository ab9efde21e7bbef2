import Reckoner.Decimal.Elementary
import Reckoner.Proofs.Decimal.Arithmetic

/-! Series of finite decimals have finite sums in every context, and so the constants are finite. -/

namespace Reckoner

theorem Decimal.lift_yields {β : Type} {holds : β → Prop} {result : Except Decimal.Signal β}
    (kept : Yields holds result) : Yields holds (liftM result : Decimal.Computed β) :=
  kept.mapError _

theorem Decimal.liftM_bind_eq {β γ : Type} (first : Except Decimal.Signal β) (next : β → Except Decimal.Signal γ) :
    (liftM (first >>= next) : Decimal.Computed γ) =
    (liftM first : Decimal.Computed β) >>= fun x => liftM (next x) := by
  cases first <;> rfl

namespace Decimal

/-- Whether all constants are finite. -/
structure Constants.AllFinite (k : Constants) : Prop where
  pi : k.pi.isFinite = true
  e : k.e.isFinite = true
  halfPi : k.halfPi.isFinite = true
  twoPi : k.twoPi.isFinite = true
  lnTwo : k.lnTwo.isFinite = true
  lnTen : k.lnTen.isFinite = true
  rootTwo : k.rootTwo.isFinite = true

namespace Context

variable (c : Context) {x : Decimal} {next : Nat → Decimal → Except Signal (Decimal × Decimal)}

/-- A series stays finite if its terms and the factors they are made of do. -/
theorem addTerms_isFinite (terms : ∀ index factor, factor.isFinite = true →
      Yields (fun made => made.1.isFinite = true ∧ made.2.isFinite = true) (next index factor))
    (epsilon : Decimal) (fuel index : Nat) {factor total : Decimal}
    (carried : factor.isFinite = true) (summed : total.isFinite = true) :
    Yields (·.total.isFinite = true) (c.addTerms epsilon next fuel index factor total) := by
  have rounds := rounds_isFinite c
  induction fuel generalizing index factor total with
  | zero => exact .ok summed
  | succ fuel ih =>
    unfold addTerms
    refine (terms index factor carried).andThen ?_
    rintro made ⟨carried, term⟩
    refine (rounds.add summed term).andThen ?_
    intro total summed
    refine .bind ?_
    intro size _
    refine .bind ?_
    intro small _
    exact .ite (.ok summed) (ih (index + 1) carried summed)

theorem sumSeries_isFinite (terms : ∀ index factor, factor.isFinite = true →
      Yields (fun made => made.1.isFinite = true ∧ made.2.isFinite = true) (next index factor))
    {first : Decimal} (given : first.isFinite = true) :
    Yields (·.total.isFinite = true) (c.sumSeries first next) :=
  .bind fun epsilon _ => c.addTerms_isFinite terms epsilon _ _ given given

theorem expSeries_isFinite (given : x.isFinite = true) :
    Yields (·.total.isFinite = true) (c.expSeries x) := by
  have rounds := rounds_isFinite c
  refine c.sumSeries_isFinite ?_ rfl
  intro index term kept
  refine (rounds.mul kept given).andThen ?_
  intro product kept
  exact (rounds.div kept rfl).andThen fun term kept => .ok ⟨kept, kept⟩

theorem atanhSeries_isFinite (given : x.isFinite = true) :
    Yields (·.total.isFinite = true) (c.atanhSeries x) := by
  have rounds := rounds_isFinite c
  refine (rounds.mul given given).andThen ?_
  intro square squared
  refine c.sumSeries_isFinite ?_ given
  intro index power kept
  refine (rounds.mul kept squared).andThen ?_
  intro power kept
  exact (rounds.div kept rfl).andThen fun term divided => .ok ⟨kept, divided⟩

theorem atanSeries_isFinite (given : x.isFinite = true) :
    Yields (·.total.isFinite = true) (c.atanSeries x) := by
  have rounds := rounds_isFinite c
  refine (rounds.mul given given).andThen ?_
  intro square squared
  refine c.sumSeries_isFinite ?_ given
  intro index power kept
  refine (rounds.neg kept).andThen ?_
  intro opposite kept
  refine (rounds.mul kept squared).andThen ?_
  intro power kept
  exact (rounds.div kept rfl).andThen fun term divided => .ok ⟨kept, divided⟩

theorem sinSeries_isFinite (given : x.isFinite = true) :
    Yields (·.total.isFinite = true) (c.sinSeries x) := by
  have rounds := rounds_isFinite c
  refine (rounds.mul given given).andThen ?_
  intro square squared
  refine c.sumSeries_isFinite ?_ given
  intro index term kept
  refine (rounds.neg kept).andThen ?_
  intro opposite kept
  refine (rounds.mul kept squared).andThen ?_
  intro product kept
  exact (rounds.div kept rfl).andThen fun term kept => .ok ⟨kept, kept⟩

theorem cosSeries_isFinite (given : x.isFinite = true) :
    Yields (·.total.isFinite = true) (c.cosSeries x) := by
  have rounds := rounds_isFinite c
  refine (rounds.mul given given).andThen ?_
  intro square squared
  refine c.sumSeries_isFinite ?_ rfl
  intro index term kept
  refine (rounds.neg kept).andThen ?_
  intro opposite kept
  refine (rounds.mul kept squared).andThen ?_
  intro product kept
  exact (rounds.div kept rfl).andThen fun term kept => .ok ⟨kept, kept⟩

theorem halveAngle_isFinite (fuel count : Nat) (given : x.isFinite = true) :
    Yields (·.2.isFinite = true) (c.halveAngle fuel count x) := by
  have rounds := rounds_isFinite c
  induction fuel generalizing count x with
  | zero => exact .ok given
  | succ fuel ih =>
    unfold halveAngle
    refine .bind ?_
    intro large _
    refine .ite ?_ (.ok given)
    refine (rounds.mul given given).andThen ?_
    intro square squared
    refine (rounds.add rfl squared).andThen ?_
    intro sum summed
    refine (rounds.sqrt summed).andThen ?_
    intro root rooted
    refine (rounds.add rfl rooted).andThen ?_
    intro denominator kept
    refine (rounds.div given kept).andThen ?_
    intro half halved
    exact ih (count + 1) halved

theorem atanReduced_isFinite (given : x.isFinite = true) :
    Yields (·.isFinite = true) (c.atanReduced x) := by
  refine (c.halveAngle_isFinite _ _ given).andThen ?_
  intro halved kept
  refine (c.atanSeries_isFinite kept).andThen ?_
  intro sum kept
  exact (rounds_isFinite c).mul kept rfl

end Context

namespace Constants

theorem derive_allFinite (precision : Nat) : Yields AllFinite (derive precision) := by
  have rounds := Context.rounds_isFinite (wideRange (precision + 5))
  refine (rounds.sqrt rfl).andThen ?_
  intro rootTwo rooted
  refine (Context.atanReduced_isFinite _ rfl).andThen ?_
  intro quarter kept
  refine (rounds.mul rfl kept).andThen ?_
  intro pi circle
  refine (rounds.sub rooted rfl).andThen ?_
  intro numerator above
  refine (rounds.add rooted rfl).andThen ?_
  intro denominator below
  refine (rounds.div above below).andThen ?_
  intro ratio divided
  refine (Context.atanhSeries_isFinite _ divided).andThen ?_
  intro sum kept
  refine (rounds.mul rfl kept).andThen ?_
  intro lnTwo two
  refine (rounds.div rfl rfl).andThen ?_
  intro ninth small
  refine (rounds.mul rfl two).andThen ?_
  intro thrice tripled
  refine (Context.atanhSeries_isFinite _ small).andThen ?_
  intro sum kept
  refine (rounds.mul rfl kept).andThen ?_
  intro twice doubled
  refine (rounds.add tripled doubled).andThen ?_
  intro lnTen ten
  refine (Context.expSeries_isFinite _ rfl).andThen ?_
  intro e base
  refine (rounds.div circle rfl).andThen ?_
  intro halfPi half
  refine (rounds.mul rfl circle).andThen ?_
  intro twoPi double
  exact .ok ⟨circle, base, half, double, two, ten, rooted⟩

theorem ofPrecision_allFinite (precision : Nat) : Yields AllFinite (ofPrecision precision) :=
  .ite (.ok ⟨rfl, rfl, rfl, rfl, rfl, rfl, rfl⟩) (derive_allFinite precision)

end Constants

end Decimal

end Reckoner

import Reckoner.Proofs.Decimal.Representation
import Reckoner.Proofs.NumberSystem.DecimalTrigonometry

/-! The sine of decimals in degrees depends on the rest of a full turn alone, digit for digit, and is zero for
multiples of 180. -/

namespace Reckoner.Decimal.Context.Guarded

variable {c : Context} (guarded : c.Guarded) {x y : Decimal} (first : x.isFinite = true)
  (second : y.isFinite = true) (rest : remainder x.value 360 = remainder y.value 360)
include guarded first second rest

omit guarded first second in
/-- Of two angles with one rest of a full turn, both or none are multiples of 180. -/
theorem halfTurn_of_remainder_eq : (∃ j : ℤ, x.value = 180 * j) ↔ ∃ j : ℤ, y.value = 180 * j := by
  unfold remainder at rest
  constructor
  · rintro ⟨j, same⟩
    refine ⟨j + 2 * (truncated (y.value / 360) - truncated (x.value / 360)), ?_⟩
    push_cast
    linear_combination same - rest
  · rintro ⟨j, same⟩
    refine ⟨j + 2 * (truncated (x.value / 360) - truncated (y.value / 360)), ?_⟩
    push_cast
    linear_combination same + rest

theorem sinWork_paired {k : Constants} (suits : (c.widen guardDigits).Suits k) :
    Paired SameNumber ((c.widen guardDigits).sinWork k true x) ((c.widen guardDigits).sinWork k true y) := by
  have working := guarded.working
  unfold sinWork
  rw [if_pos rfl, if_pos rfl]
  have left := halfTurn_reaches working guarded.refuses first
  have right := halfTurn_reaches working guarded.refuses second
  have tested : Paired (fun z z' : Decimal => z.isFinite = true ∧ z'.isFinite = true ∧ (z.value = 0 ↔ z'.value = 0))
      ((c.widen guardDigits).rem x (ofInt 180)) ((c.widen guardDigits).rem y (ofInt 180)) := by
    intro z z' found known
    obtain ⟨sound, exactly⟩ := left.yields z found
    obtain ⟨sound', exactly'⟩ := right.yields z' known
    exact ⟨sound, sound', exactly.trans ((halfTurn_of_remainder_eq rest).trans exactly'.symm)⟩
  refine tested.andThen ?_
  rintro z z' ⟨sound, sound', alike⟩
  rw [isEqual_eq sound rfl, isEqual_eq sound' rfl, value_zero, decide_eq_decide.mpr alike]
  refine .bind ?_
  intro whole _
  refine .ite (.ok (.refl rfl)) ?_
  have turned : Paired SameNumber ((c.widen guardDigits).rem x (ofInt 360))
      ((c.widen guardDigits).rem y (ofInt 360)) := by
    have left := rem_reaches working.precise (y := ofInt 360) first rfl
    have right := rem_reaches working.precise (y := ofInt 360) second rfl
    rw [value_ofInt, Int.cast_ofNat] at left right
    exact paired_of_reaches left (rest ▸ right)
  refine turned.andThen ?_
  intro r r' same
  refine (radians_paired working.precise suits.finite same).andThen ?_
  intro _ _ same
  exact sinReduced_paired working.precise suits.finite same

theorem sin_paired : Paired SameNumber (c.sin true x) (c.sin true y) := by
  refine .bind ?_
  intro k found
  have suits := lift_yields guarded.constants_reaches.yields k found
  refine (guarded.sinWork_paired first second rest suits).lift.andThen ?_
  intro _ _ same
  exact (plus_paired guarded.positive same).lift

omit second rest in
theorem sin_eq_zero (whole : ∃ j : ℤ, x.value = 180 * j) : Yields (fun v => v.value = 0) (c.sin true x) := by
  refine guarded.yields (fun k suits => lift_yields
    (sinWork_reaches guarded.working guarded.refuses suits first).yields) ?_
  rintro z ⟨sound, near⟩ v found
  obtain ⟨_, rounded⟩ := (plus_reaches guarded.positive sound).yields v found
  rcases near with ⟨_, zero⟩ | ⟨other, _⟩
  · exact (round_eq_zero_iff guarded.positive guarded.refuses rounded).mpr zero
  · exact absurd whole other

end Reckoner.Decimal.Context.Guarded

namespace Reckoner.NumberSystem.Decimals

open Reckoner.Decimal

/-- Angles in degrees that leave the same number of a full turn have the same number as their sine, if both have
one, and it is zero if they are multiples of 180. -/
theorem sine_periodic {precision range : Int} {c : Decimal.Context} (given : context? precision range = some c)
    (wide : 0 < range) {x y v w : Decimal} (first : x.isFinite = true) (second : y.isFinite = true)
    (rest : remainder x.value 360 = remainder y.value 360) (left : c.sin true x = .ok v)
    (right : c.sin true y = .ok w) : (∃ q, v.rational? = some q ∧ w.rational? = some q) ∧
      ((∃ j : ℤ, x.value = 180 * j) → v.isZero = true ∧ w.isZero = true) := by
  have guarded := Context.guarded_of_context? given wide
  have same := guarded.sin_paired first second rest v w left right
  refine ⟨?_, ?_⟩
  · have value_eq := same.value_eq
    obtain ⟨s, m, e, rfl⟩ := isFinite_iff.mp same.first
    obtain ⟨t, n, f, rfl⟩ := isFinite_iff.mp same.second
    exact ⟨_, rfl, congrArg some value_eq.symm⟩
  · intro whole
    have zero := guarded.sin_eq_zero first whole v left
    exact ⟨(Context.isZero_iff same.first).mpr zero, (Context.isZero_iff same.second).mpr (same.value_eq ▸ zero)⟩

/-- At six digits the sines of 30 and of 750.0 degrees. -/
theorem sine_periodic_sample : context? 6 defaultRange = some ⟨6, -999999, 999999, true⟩ ∧ 0 < defaultRange ∧
    remainder (Decimal.finite false 30 0).value 360 = remainder (Decimal.finite false 7500 (-1)).value 360 ∧
    ∃ v w, Decimal.Context.sin ⟨6, -999999, 999999, true⟩ true (.finite false 30 0) = .ok v ∧
      Decimal.Context.sin ⟨6, -999999, 999999, true⟩ true (.finite false 7500 (-1)) = .ok w ∧
      ∃ q, v.rational? = some q ∧ w.rational? = some q := by
  have given : context? 6 defaultRange = some ⟨6, -999999, 999999, true⟩ := rfl
  have left : Decimal.Context.sin ⟨6, -999999, 999999, true⟩ true (.finite false 30 0) =
      .ok (.finite false 500000 (-6)) := eq_ok_of_toOption (by with_unfolding_all decide)
  have right : Decimal.Context.sin ⟨6, -999999, 999999, true⟩ true (.finite false 7500 (-1)) =
      .ok (.finite false 500000 (-6)) := eq_ok_of_toOption (by with_unfolding_all decide)
  have rest : remainder (Decimal.finite false 30 0).value 360 =
      remainder (Decimal.finite false 7500 (-1)).value 360 := by
    have once : remainder ((30 : Nat) * 1) ((360 : Nat) * 1) = (30 % 360 : Nat) * 1 :=
      remainder_natCast_mul 30 (by decide) one_ne_zero
    have twice : remainder ((7500 : Nat) * 10 ^ (-1 : ℤ)) ((3600 : Nat) * 10 ^ (-1 : ℤ)) =
        (7500 % 3600 : Nat) * 10 ^ (-1 : ℤ) := remainder_natCast_mul 7500 (by decide) (pow_ten_pos (-1)).ne'
    norm_num [Context.value_finite, Context.signed] at once twice ⊢
    rw [once, twice]
  exact ⟨given, by decide, rest, _, _, left, right,
    (sine_periodic given (by decide) rfl rfl rest left right).1⟩

end Reckoner.NumberSystem.Decimals

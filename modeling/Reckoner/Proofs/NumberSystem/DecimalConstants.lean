import Reckoner.Library.Functions
import Reckoner.Proofs.Decimal.Exponential
import Reckoner.Proofs.NumberSystem.DecimalIntake

/-! The constants of decimals. Every context that is offered has numbers of one digit, so it has a zero and a one, and
the circle number and the base of the natural logarithm are rounded to numbers of it. Once they are rounded it keeps
them as they are. -/

namespace Reckoner.Decimal

/-! ### The constants of a working precision -/

namespace Constants

open Context

/-- Whether the circle number and the base of the natural logarithm have one digit before the point. -/
structure OneDigit (k : Constants) : Prop where
  pi : 1 ≤ k.pi.value ∧ k.pi.value ≤ 9
  e : 1 ≤ k.e.value ∧ k.e.value ≤ 9

theorem fortyDigits_oneDigit : fortyDigits.OneDigit := by
  constructor
  · rw [fortyDigits, value_finite]
    norm_num [signed]
  · rw [fortyDigits, value_finite]
    norm_num [signed]

/-- The base of the natural logarithm is the sum of its series, and what is computed before does not matter to it. -/
theorem derive_e {precision : Nat} (least : 6 ≤ precision) (most : precision ≤ 105) :
    Yields (fun k => 1 ≤ k.e.value ∧ k.e.value ≤ 9) (derive precision) := by
  have working := wideRange_working (show 6 ≤ precision + 5 by omega) (by omega)
  have fine := working.fine_real
  have unit : |one.value| ≤ 1 := by
    rw [value_one, abs_one]
  unfold derive
  iterate 13
    refine .bind ?_
    intro _ _
  refine (working.expSeries_near rfl unit).yields.andThen ?_
  rintro sum ⟨_, near⟩
  refine .bind ?_
  intro _ _
  refine .bind ?_
  intro _ _
  refine .ok ?_
  rw [value_one, Rat.cast_one] at near
  obtain ⟨low, high⟩ := abs_le.mp near
  have above := Real.exp_one_gt_d9
  have below := Real.exp_one_lt_d9
  constructor
  · refine (Rat.cast_le (K := ℝ)).mp ?_
    push_cast
    linarith
  · refine (Rat.cast_le (K := ℝ)).mp ?_
    push_cast
    linarith

/-- The constants for the digits of any context that is offered are found, and two of them have one digit before the
point. -/
theorem ofPrecision_oneDigit {precision : Nat} (least : 6 ≤ precision) (most : precision ≤ 105) :
    Settles (fun k => k.AllFinite ∧ k.OneDigit) (ofPrecision precision) := by
  have e : Yields (fun k => 1 ≤ k.e.value ∧ k.e.value ≤ 9) (ofPrecision precision) :=
    .ite (.ok fortyDigits_oneDigit.e) (derive_e least most)
  have circular := (ofPrecision_reaches least most).yields
  have settles := (((ofPrecision_settles least most).and (ofPrecision_allFinite _)).and circular).and e
  apply settles.mono
  rintro k ⟨⟨⟨_, finite⟩, near, _⟩, e⟩
  refine ⟨finite, ?_, e⟩
  have small : (10 : ℝ) ^ (-(precision : ℤ)) ≤ 1 / 10 ^ 6 := by
    have power : (10 : ℝ) ^ (-(precision : ℤ)) ≤ 10 ^ (-6 : ℤ) := zpow_le_zpow_right₀ (by norm_num) (by omega)
    exact power.trans_eq (by norm_num)
  obtain ⟨low, high⟩ := abs_le.mp near
  constructor
  · refine (Rat.cast_le (K := ℝ)).mp ?_
    push_cast
    linarith [Real.pi_gt_three]
  · refine (Rat.cast_le (K := ℝ)).mp ?_
    push_cast
    linarith [Real.pi_le_four]

end Constants

/-! ### Contexts that are offered -/

namespace Context

/-- Whether a context has some of the digits that constants are computed for, and numbers of one digit without an
exponent, and reports what is too small. -/
structure Offered (c : Context) : Prop where
  positive : 0 < c.precision
  most : c.precision ≤ 100
  least : c.least ≤ 0
  greatest : 0 ≤ c.greatest
  refuses : c.refusesSubnormal = true

variable {c : Context}

theorem finish_of_admits {x : Decimal} (admitted : c.Admits x) (nonzero : x.value ≠ 0) :
    c.finish x = .ok x := by
  obtain ⟨s, m, e, rfl⟩ := isFinite_iff.mp admitted.isFinite
  have some : m ≠ 0 := by
    rintro rfl
    rw [value_finite, signed_zero, Int.cast_zero, zero_mul] at nonzero
    exact nonzero rfl
  rw [finish, finishFinite_of_admits admitted, if_neg some]

variable (offered : c.Offered)
include offered

theorem Offered.rounds : c.Rounds c.Admits :=
  rounds_admits offered.refuses offered.positive offered.least offered.greatest

/-- A number from one to nine is in the range, and so is what it is rounded to. -/
theorem Offered.plus_settles {z : Decimal} (given : z.isFinite = true) (low : 1 ≤ z.value) (high : z.value ≤ 9) :
    Settles (·.value ≠ 0) (c.plus z) := by
  have positive : (0 : ℚ) < z.value := by linarith
  have unit : (10 : ℚ) ^ c.least ≤ |z.value| := by
    rw [abs_of_pos positive]
    exact (zpow_le_one_of_nonpos₀ (by norm_num) offered.least).trans low
  have normal : c.Normal z.value := .inr unit
  have top : (9 : ℚ) ≤ 10 ^ (c.greatest + 1) - 10 ^ (c.greatest + 1 - c.precision) := by
    have tens : (10 : ℚ) ≤ 10 ^ (c.greatest + 1) := by
      have power : (10 : ℚ) ^ (1 : ℤ) ≤ 10 ^ (c.greatest + 1) :=
        zpow_le_zpow_right₀ (by norm_num) (by linarith [offered.greatest])
      rwa [zpow_one] at power
    have tenth : (10 : ℚ) ^ (c.greatest + 1 - c.precision) ≤ 10 ^ (c.greatest + 1) / 10 := by
      have digits := offered.positive
      rw [div_eq_mul_inv, ← zpow_sub_one₀ (by norm_num)]
      exact zpow_le_zpow_right₀ (by norm_num) (by omega)
    linarith
  have fits : c.Fits z.value := by
    apply normal.fits_of_le offered.positive
    rw [abs_of_pos positive]
    exact high.trans top
  apply ((plus_gives offered.positive given).settles fits).mono
  intro x rounding
  have digits := offered.positive
  have first : c.lastPlace z.value ≤ Int.log 10 |z.value| := by
    rw [normal.lastPlace_eq positive.ne']
    omega
  have large := le_abs_roundAt first (pow_log_le (abs_pos.mpr positive.ne'))
  rw [← eq_roundAt_of_round rounding.rounded] at large
  exact abs_pos.mp ((pow_ten_pos _).trans_le large)

/-- A constant of one digit before the point is found, and the context keeps it as it is. -/
theorem Offered.constant_settles {constant : Constants → Decimal}
    (finite : ∀ k, k.AllFinite → (constant k).isFinite = true)
    (oneDigit : ∀ k, k.OneDigit → 1 ≤ (constant k).value ∧ (constant k).value ≤ 9) :
    Settles (fun x => c.Admits x ∧ c.finish x = .ok x) (c.guarded fun _ k => return constant k) := by
  have positive := offered.positive
  have most := offered.most
  have least : 6 ≤ (c.widen guardDigits).precision := show 6 ≤ c.precision + 5 by omega
  have most : (c.widen guardDigits).precision ≤ 105 := show c.precision + 5 ≤ 105 by omega
  have admits : Yields c.Admits (c.guarded fun _ k => return constant k) :=
    offered.rounds.guarded fun _ k all => .ok (finite k all)
  have works : ∀ k : Constants, k.AllFinite ∧ k.OneDigit →
      Settles (fun z => z.isFinite = true ∧ 1 ≤ z.value ∧ z.value ≤ 9) (return constant k : Computed Decimal) :=
    fun k ⟨all, digit⟩ => .ok ⟨finite k all, oneDigit k digit⟩
  have settles : Settles (·.value ≠ 0) (c.guarded fun _ k => return constant k) :=
    guarded_concludes (Constants.ofPrecision_oneDigit least most) works
      fun z ⟨given, low, high⟩ => lift_settles (offered.plus_settles given low high)
  apply (settles.and admits).mono
  rintro x ⟨nonzero, admitted⟩
  exact ⟨admitted, finish_of_admits admitted nonzero⟩

end Context

end Reckoner.Decimal

namespace Reckoner.NumberSystem.Decimals

open Reckoner.Decimal Reckoner.Library

variable {c : Decimal.Context}

theorem offered_of_context? {precision range : Int} (given : context? precision range = some c) : c.Offered := by
  unfold context? at given
  split at given
  · rename_i bounds
    obtain ⟨positive, most, least, _⟩ := bounds
    cases given
    have greatest : (maxPrecision : Int) = 100 := rfl
    refine ⟨?_, ?_, ?_, least, rfl⟩
    · change 0 < precision.toNat
      omega
    · change precision.toNat ≤ 100
      omega
    · exact Int.neg_nonpos_of_nonneg least
  · cases given

theorem ofInt_eq_ok {n : Int} (admitted : c.Admits (Decimal.ofInt n)) : ∃ x, (system c).ofInt n = .ok x := by
  obtain ⟨places, finished, _⟩ := Context.exists_finishFinite admitted
  exact ⟨_, congrArg reported finished⟩

theorem base_eq_ok (offered : c.Offered) : ∃ base, Base.of (system c) = .ok base := by
  have none : c.Admits (Decimal.ofInt 0) := offered.rounds.zero false
  have unit : c.Admits (Decimal.ofInt 1) := offered.rounds.unit false 0 (Nat.zero_le _)
  obtain ⟨zero, zeros⟩ := ofInt_eq_ok none
  obtain ⟨one, ones⟩ := ofInt_eq_ok unit
  rw [Base.of, zeros, ones]
  exact ⟨_, rfl⟩

/-- A context that is offered has both constants, and takes them in as they are. -/
theorem constants_eq_ok (offered : c.Offered) : ∃ pi e, constants c = .ok [("PI", pi), ("E", e)] ∧
    coerce c (.decimal pi) = .ok pi ∧ coerce c (.decimal e) = .ok e := by
  have kept {x : Decimal} (admitted : c.Admits x) (finished : c.finish x = .ok x) : coerce c (.decimal x) = .ok x := by
    obtain ⟨s, m, e, rfl⟩ := isFinite_iff.mp admitted.isFinite
    exact congrArg reported finished
  obtain ⟨pi, pis, piAdmitted, piKept⟩ :=
    (offered.constant_settles (fun k all => all.pi) fun k digit => digit.pi).exists_eq
  obtain ⟨e, es, eAdmitted, eKept⟩ :=
    (offered.constant_settles (fun k all => all.e) fun k digit => digit.e).exists_eq
  refine ⟨pi, e, ?_, kept piAdmitted piKept, kept eAdmitted eKept⟩
  rw [constants, Context.piConstant, Context.eConstant, pis, es]
  rfl

end Reckoner.NumberSystem.Decimals

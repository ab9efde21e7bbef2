import Reckoner.Proofs.Decimal.Settling

/-! Series that end by their terms. The terms of a series are below bounds that fade: each bound is the one before
times a rate and divided by a whole number, and the last one is below half of the epsilon. A rounding raises a bound by
a small part of it, for which the rate has room, so the bounds hold of the rounded terms too, and the last term that is
added cannot count. -/

namespace Reckoner.Decimal.Context

variable {c : Context}

/-! ### Roundings below a bound -/

theorem IsRounding.abs_le (precise : 0 < c.precision) {q bound : ℚ} {z : Decimal} (rounding : c.IsRounding q z)
    (below : |q| ≤ bound) (floor : 10 ^ c.least ≤ bound) : |z.value| ≤ (1 + 5 * c.grain) * bound := by
  have tiny := c.grain_pos
  have bottom := pow_ten_pos c.least
  rcases lt_or_ge |q| (10 ^ c.least) with small | large
  · have least := abs_round_le precise (by rw [tiniest]; omega) small.le rounding.rounded
    nlinarith
  · have normal : c.Normal q := .inr large
    have most := ((normal.within rounding).abs.bounds (abs_nonneg _)).2
    exact most.trans (mul_le_mul_of_nonneg_left below (by linarith))

/-- Whether a step raises a bound as a rounding does. -/
def Covers (c : Context) (turn : Decimal → Except Signal Decimal) : Prop :=
  ∀ x bound, x.isFinite = true → |x.value| ≤ bound → 10 ^ c.least ≤ bound →
    Reaches (fun z => z.isFinite = true ∧ |z.value| ≤ (1 + 5 * c.grain) * bound) (turn x)

theorem covers_pure : c.Covers pure := fun x bound given below _ => .ok ⟨given, by
  have nonneg := (abs_nonneg x.value).trans below
  nlinarith [c.grain_pos]⟩

theorem covers_neg (precise : 0 < c.precision) : c.Covers c.neg := fun _ _ given below floor =>
  (neg_reaches precise given).mono fun _ rounding =>
    ⟨rounding.isFinite, rounding.abs_le precise (by rwa [abs_neg]) floor⟩

/-! ### Bounds that fade -/

/-- Bounds that start at four; each is the one before times a rate and divided by a whole number. -/
def fading (rate : ℚ) (divisor : Nat → Int) : Nat → ℚ
  | 0 => 4
  | n + 1 => fading rate divisor n * rate / divisor (n + 1)

/-- Whether a context has the digits that the functions work with, and room for what is far smaller. -/
structure Deep (c : Context) : Prop extends Working c where
  bottom : c.least ≤ -700

/-- Whether such bounds fade below half of the epsilon, and none of them too fast. -/
structure Fades (c : Context) (rate : ℚ) (divisor : Nat → Int) : Prop where
  least : ∀ n, 1 ≤ n → 1 ≤ divisor n
  most : ∀ n, 1 ≤ n → n ≤ seriesBound → (divisor n : ℚ) ≤ 10 ^ 6 * rate
  gone : fading rate divisor seriesBound < c.grain / 2

namespace Fades

variable {rate : ℚ} {divisor : Nat → Int} (fades : c.Fades rate divisor)
include fades

theorem one_le {n : Nat} (counted : 1 ≤ n) : (1 : ℚ) ≤ divisor n := by exact_mod_cast fades.least n counted

theorem pow_le_fading {n : Nat} (within : n ≤ seriesBound) : 4 * (1 / 10 ^ 6) ^ n ≤ fading rate divisor n := by
  induction n with
  | zero => rw [pow_zero, mul_one, fading]
  | succ n ih =>
    have divides := fades.one_le (show 1 ≤ n + 1 by omega)
    have share : 1 / 10 ^ 6 ≤ rate / divisor (n + 1) := by
      rw [div_le_div_iff₀ (by norm_num) (by linarith), one_mul, mul_comm]
      exact fades.most (n + 1) (by omega) within
    have power : (0 : ℚ) ≤ 4 * (1 / 10 ^ 6) ^ n := by positivity
    rw [fading, mul_div_assoc, pow_succ, ← mul_assoc]
    exact mul_le_mul (ih (by omega)) share (by norm_num) (power.trans (ih (by omega)))

theorem floor (deep : c.Deep) {n : Nat} (within : n ≤ seriesBound) : 4 * 10 ^ c.least ≤ fading rate divisor n := by
  refine le_trans (mul_le_mul_of_nonneg_left ?_ (by norm_num)) (fades.pow_le_fading within)
  calc (10 : ℚ) ^ c.least ≤ 10 ^ (-600 : ℤ) := zpow_le_zpow_right₀ (by norm_num) (deep.bottom.trans (by decide))
    _ = (1 / 10 ^ 6) ^ seriesBound := by rw [one_div, inv_pow, ← pow_mul, zpow_neg]; rfl
    _ ≤ (1 / 10 ^ 6) ^ n := pow_le_pow_of_le_one (by norm_num) (by norm_num) within

theorem product_floor (deep : c.Deep) {n : Nat} (within : n < seriesBound) :
    4 * 10 ^ c.least ≤ fading rate divisor n * rate := by
  have divides := fades.one_le (show 1 ≤ n + 1 by omega)
  have last := fades.floor deep (show n + 1 ≤ seriesBound from within)
  have bottom := pow_ten_pos c.least
  rw [fading, le_div_iff₀ (by linarith)] at last
  exact (le_mul_of_one_le_right (by linarith) divides).trans last

end Fades

/-! ### The last term -/

/-- Whether the next factor and term of a series are below the next bound if the factor is below the one before. -/
def Sinks (next : Nat → Decimal → Except Signal (Decimal × Decimal)) (bound : Nat → ℚ) : Prop :=
  ∀ n factor, n < seriesBound → factor.isFinite = true → |factor.value| ≤ bound n →
    Reaches (fun made => made.1.isFinite = true ∧ |made.1.value| ≤ bound (n + 1) ∧
      made.2.isFinite = true ∧ |made.2.value| ≤ bound (n + 1)) (next (n + 1) factor)

section
variable (deep : c.Deep) {next : Nat → Decimal → Except Signal (Decimal × Decimal)} {bound : Nat → ℚ}
  (sinks : Sinks next bound) (gone : bound seriesBound < c.grain / 2)
include deep sinks gone

/-- By the last term a series has stopped. -/
theorem addTerms_settled {epsilon : Decimal} (small : epsilon.isFinite = true) (same : epsilon.value = c.grain)
    (fuel n : Nat) (some : 0 < fuel) (all : n + fuel = seriesBound) {factor total : Decimal}
    (carried : factor.isFinite = true) (summed : total.isFinite = true) (below : |factor.value| ≤ bound n) :
    Reaches (·.settled = true) (c.addTerms epsilon next fuel (n + 1) factor total) := by
  have precise := deep.precise
  induction fuel generalizing n factor total with
  | zero => exact absurd some (Nat.lt_irrefl 0)
  | succ fuel ih =>
    unfold addTerms
    apply (sinks n factor (by omega) carried below).andThen
    rintro made ⟨carried, below, term, less⟩
    apply (add_reaches precise summed term).andThen
    intro sum rounding
    apply (abs_reaches precise term).andThen
    intro size measured
    rw [isLess_eq measured.isFinite small, same]
    refine .ite (fun _ => .ok rfl) ?_
    intro counts
    have counts : c.grain ≤ size.value := by simpa using counts
    rcases Nat.eq_zero_or_pos fuel with last | later
    · -- The last bound is below half of the epsilon, and the rounding of a term less than another half.
      have final : n + 1 = seriesBound := by omega
      rw [final] at less
      have fine := deep.fine
      have near := measured.near deep.deep 0 (by rw [abs_abs, pow_zero]; linarith)
      rw [pow_zero] at near
      linarith [(abs_le.mp near).2]
    · exact ih (n + 1) later (by omega) carried rounding.isFinite below

theorem sumSeries_settled {first : Decimal} (given : first.isFinite = true) (below : |first.value| ≤ bound 0) :
    Reaches (·.settled = true) (c.sumSeries first next) := by
  apply (epsilon_reaches deep.precise deep.deep).andThen
  rintro _ ⟨small, same⟩
  exact addTerms_settled deep sinks gone small same seriesBound 0 (by decide) (Nat.zero_add _) given given below

end

/-! ### Terms made of the ones before -/

section
variable (deep : c.Deep) {turn : Decimal → Except Signal Decimal} (covers : c.Covers turn) {ratio : Decimal}
  (given : ratio.isFinite = true) {rate : ℚ} (size : 101 / 100 * |ratio.value| ≤ rate)
include deep covers given size

omit covers given size in
theorem Deep.raised_le : (1 + 5 * c.grain) ^ 3 ≤ 101 / 100 := by
  have tiny := c.grain_pos
  have fine := deep.fine
  calc (1 + 5 * c.grain) ^ 3 ≤ (1 + 5 * (1 / 10 ^ 6)) ^ 3 := by gcongr
    _ ≤ 101 / 100 := by norm_num

/-- A factor that is turned and multiplied is below what the rate makes of its bound. -/
theorem turnedProduct_reaches {factor : Decimal} {bound : ℚ} (carried : factor.isFinite = true)
    (below : |factor.value| ≤ bound) (floor : 10 ^ c.least ≤ bound) (last : 4 * 10 ^ c.least ≤ bound * rate) :
    Reaches (fun z => z.isFinite = true ∧ (1 + 5 * c.grain) * |z.value| ≤ bound * rate)
      (do c.mul (← turn factor) ratio) := by
  have precise := deep.precise
  have tiny := c.grain_pos
  have room := deep.raised_le
  have bottom := pow_ten_pos c.least
  have nonneg : 0 ≤ bound := bottom.le.trans floor
  apply (covers factor bound carried below floor).andThen
  rintro turned ⟨sound, raised⟩
  apply (mul_reaches precise sound given).mono
  intro z multiplied
  refine ⟨multiplied.isFinite, ?_⟩
  have product : |turned.value * ratio.value| ≤ (1 + 5 * c.grain) * bound * (100 / 101 * rate) := by
    rw [abs_mul]
    exact mul_le_mul raised (by linarith) (abs_nonneg _) (by positivity)
  have raises : bound * rate ≤ (1 + 5 * c.grain) * (bound * rate) :=
    le_mul_of_one_le_left (by linarith) (by linarith)
  have most := multiplied.abs_le precise product (by linarith)
  have positive : 0 ≤ bound * rate := by linarith
  calc (1 + 5 * c.grain) * |z.value| ≤
        (1 + 5 * c.grain) * ((1 + 5 * c.grain) * ((1 + 5 * c.grain) * bound * (100 / 101 * rate))) :=
        mul_le_mul_of_nonneg_left most (by linarith)
    _ = (1 + 5 * c.grain) ^ 3 * (100 / 101 * (bound * rate)) := by ring
    _ ≤ 101 / 100 * (100 / 101 * (bound * rate)) := mul_le_mul_of_nonneg_right room (by linarith)
    _ = bound * rate := by ring

variable {divisor : Nat → Int}

theorem product_sinks (fades : c.Fades rate divisor) :
    Sinks (c.productTerm turn ratio divisor) (fading rate divisor) := by
  intro n factor within carried below
  have precise := deep.precise
  have tiny := c.grain_pos
  have bottom := pow_ten_pos c.least
  have divides := fades.one_le (show 1 ≤ n + 1 by omega)
  have positive : (0 : ℚ) < divisor (n + 1) := by linarith
  have first := fades.floor deep within.le
  have last := fades.floor deep (show n + 1 ≤ seriesBound from within)
  rw [fading] at last ⊢
  have step : Reaches (fun made : Decimal × Decimal => made.1.isFinite = true ∧
      |made.1.value| ≤ fading rate divisor n * rate / divisor (n + 1) ∧ made.2.isFinite = true ∧
      |made.2.value| ≤ fading rate divisor n * rate / divisor (n + 1))
      ((do c.mul (← turn factor) ratio) >>= fun product => do
        let term ← c.div product (ofInt (divisor (n + 1)))
        return (term, term)) := by
    apply (turnedProduct_reaches deep covers given size carried below (by linarith)
      (fades.product_floor deep within)).andThen
    rintro z ⟨sound, raised⟩
    have nonzero : (ofInt (divisor (n + 1))).value ≠ 0 := by
      rw [value_ofInt]
      exact positive.ne'
    apply (div_reaches precise sound rfl nonzero).andThen
    intro term divided
    rw [value_ofInt] at divided
    have quotient : |z.value / divisor (n + 1)| ≤
        fading rate divisor n * rate / divisor (n + 1) / (1 + 5 * c.grain) := by
      rw [abs_div, abs_of_pos positive, div_right_comm]
      refine div_le_div_of_nonneg_right ?_ positive.le
      rw [le_div_iff₀ (by linarith), mul_comm]
      exact raised
    have fine := deep.fine
    have most := divided.abs_le precise quotient (by
      rw [le_div_iff₀ (by linarith)]
      nlinarith)
    rw [mul_div_cancel₀ _ (by linarith : 1 + 5 * c.grain ≠ 0)] at most
    exact .ok ⟨divided.isFinite, most, divided.isFinite, most⟩
  simpa only [productTerm, bind_assoc] using step

theorem odd_sinks (fades : c.Fades rate fun _ => 1) :
    Sinks (c.oddTerm turn ratio) (fading rate fun _ => 1) := by
  intro n power within carried below
  have precise := deep.precise
  have tiny := c.grain_pos
  have fine := deep.fine
  have bottom := pow_ten_pos c.least
  have first := fades.floor deep within.le
  have last := fades.product_floor deep within
  rw [fading, Int.cast_one, div_one]
  have step : Reaches (fun made : Decimal × Decimal => made.1.isFinite = true ∧
      |made.1.value| ≤ fading rate (fun _ => 1) n * rate ∧ made.2.isFinite = true ∧
      |made.2.value| ≤ fading rate (fun _ => 1) n * rate)
      ((do c.mul (← turn power) ratio) >>= fun power => do
        return (power, ← c.div power (ofInt (2 * ((n + 1 : Nat) : Int) + 1)))) := by
    apply (turnedProduct_reaches deep covers given size carried below (by linarith) last).andThen
    rintro z ⟨sound, raised⟩
    have width : (3 : ℚ) ≤ 2 * ((n + 1 : Nat) : ℚ) + 1 := by
      push_cast
      linarith [(Nat.cast_nonneg n : (0 : ℚ) ≤ n)]
    have value : (ofInt (2 * ((n + 1 : Nat) : Int) + 1)).value = 2 * ((n + 1 : Nat) : ℚ) + 1 := by
      rw [value_ofInt]
      push_cast
      ring
    apply (div_reaches precise sound rfl (by rw [value]; linarith)).andThen
    intro term divided
    rw [value] at divided
    have part : |z.value| ≤ fading rate (fun _ => 1) n * rate := by
      nlinarith [abs_nonneg z.value]
    have quotient : |z.value / (2 * ((n + 1 : Nat) : ℚ) + 1)| ≤ fading rate (fun _ => 1) n * rate / 3 := by
      rw [abs_div, abs_of_pos (by linarith : (0 : ℚ) < 2 * ((n + 1 : Nat) : ℚ) + 1)]
      exact div_le_div₀ (by linarith) part (by norm_num) width
    have most := divided.abs_le precise quotient (by linarith)
    refine .ok ⟨sound, part, divided.isFinite, most.trans ?_⟩
    nlinarith
  simpa only [oddTerm, bind_assoc] using step

end

/-! ### The series -/

theorem lt_half_grain {digits : Nat} (few : c.precision ≤ digits) {last : ℚ} (small : last < 1 / (2 * 10 ^ digits)) :
    last < c.grain / 2 := by
  have coarse : (10 : ℚ) ^ (-(digits : ℤ)) ≤ c.grain := zpow_le_zpow_right₀ (by norm_num) (by omega)
  rw [zpow_neg, zpow_natCast] at coarse
  have half : 1 / (2 * (10 : ℚ) ^ digits) = (10 ^ digits)⁻¹ / 2 := by
    rw [one_div, mul_inv]
    ring
  linarith

theorem fades_whole {rate : ℚ} (wide : 1 ≤ rate) {digits : Nat} (few : c.precision ≤ digits)
    (small : fading rate (fun n => n) seriesBound < 1 / (2 * 10 ^ digits)) : c.Fades rate fun n => n where
  least := fun n counted => by exact_mod_cast counted
  most := fun n _ within => by
    have hundred : (n : ℚ) ≤ 100 := by exact_mod_cast within
    rw [Int.cast_natCast]
    linarith
  gone := lt_half_grain few small

namespace Deep

variable (deep : c.Deep) {x : Decimal} (given : x.isFinite = true)
include deep

theorem fades_odd : c.Fades (41 / 1000) fun _ => 1 where
  least := fun _ _ => le_rfl
  most := fun _ _ _ => by norm_num
  gone := lt_half_grain deep.most (by decide +kernel)

theorem fades_factorial {divisor : Nat → Int} (least : ∀ n : Nat, 1 ≤ n → 1 ≤ divisor n)
    (most : ∀ n : Nat, divisor n ≤ 2 * n * (2 * n + 1))
    (small : fading (52 / 5) divisor seriesBound < 1 / (2 * 10 ^ 110)) : c.Fades (52 / 5) divisor where
  least := least
  most := fun n _ within => by
    have hundred : (n : ℤ) ≤ 100 := by exact_mod_cast within
    have bound : (divisor n : ℚ) ≤ 40200 := by exact_mod_cast (most n).trans (by nlinarith [Int.natCast_nonneg n])
    linarith
  gone := lt_half_grain deep.most small

theorem fades_sine : c.Fades (52 / 5) sineDivisor :=
  deep.fades_factorial (fun n counted => by
    have one : (1 : ℤ) ≤ n := by exact_mod_cast counted
    rw [sineDivisor]
    nlinarith) (fun _ => le_rfl) (by decide +kernel)

theorem fades_cosine : c.Fades (52 / 5) cosineDivisor :=
  deep.fades_factorial (fun n counted => by
    have one : (1 : ℤ) ≤ n := by exact_mod_cast counted
    rw [cosineDivisor]
    nlinarith) (fun n => by
    rw [cosineDivisor]
    nlinarith [Int.natCast_nonneg n]) (by decide +kernel)

include given

/-- The series of the exponential function stops in time, with few digits for larger arguments too. -/
theorem expSeries_settled (small : |x.value| ≤ 1 ∨ c.precision ≤ 6 ∧ |x.value| ≤ 25) :
    Reaches (·.settled = true) (c.expSeries x) := by
  suffices rated : ∃ rate, 101 / 100 * |x.value| ≤ rate ∧ c.Fades rate fun n => n by
    obtain ⟨rate, size, fades⟩ := rated
    exact sumSeries_settled deep (product_sinks deep covers_pure given size fades) fades.gone rfl
      (by rw [value_one, abs_one, fading]; norm_num)
  rcases small with one | ⟨six, large⟩
  · exact ⟨2, by linarith, fades_whole (by norm_num) deep.most (by decide +kernel)⟩
  · exact ⟨26, by linarith, fades_whole (by norm_num) six (by decide +kernel)⟩

section
variable (small : |x.value| ≤ 1 / 5)
include small

theorem oddSeries_settled {turn : Decimal → Except Signal Decimal} (covers : c.Covers turn) :
    Reaches (·.settled = true) (do c.sumSeries x (c.oddTerm turn (← c.mul x x))) := by
  have fine := deep.fine
  have square : x.value * x.value ≤ 1 / 25 := by
    rw [← pow_two, ← sq_abs]
    exact (pow_le_pow_left₀ (abs_nonneg _) small 2).trans_eq (by norm_num)
  apply (mul_reaches deep.precise given given).andThen
  intro found multiplied
  have near := multiplied.near deep.deep 0 (by rw [abs_of_nonneg (mul_self_nonneg _), pow_zero]; linarith)
  rw [pow_zero] at near
  have nonneg := multiplied.nonneg (mul_self_nonneg _)
  have size : 101 / 100 * |found.value| ≤ 41 / 1000 := by
    rw [abs_of_nonneg nonneg]
    linarith [(abs_le.mp near).2]
  exact sumSeries_settled deep (odd_sinks deep covers multiplied.isFinite size deep.fades_odd)
    deep.fades_odd.gone given
    (small.trans (by rw [fading]; norm_num))

theorem atanSeries_settled : Reaches (·.settled = true) (c.atanSeries x) :=
  deep.oddSeries_settled given small (covers_neg deep.precise)

theorem atanhSeries_settled : Reaches (·.settled = true) (c.atanhSeries x) :=
  deep.oddSeries_settled given small covers_pure

end

section
variable (small : |x.value| ≤ 16 / 5)
include small

theorem alternating_settled {divisor : Nat → Int} (fades : c.Fades (52 / 5) divisor) {first : Decimal}
    (sound : first.isFinite = true) (below : |first.value| ≤ 4) :
    Reaches (·.settled = true) (do c.sumSeries first (c.productTerm c.neg (← c.mul x x) divisor)) := by
  have fine := deep.fine
  apply (square_reaches deep.precise deep.deep given small).andThen
  rintro found ⟨squared, near⟩
  have square := sq_le_of_abs_le small
  have apart := abs_sub_abs_le_abs_sub found.value (x.value ^ 2)
  rw [abs_of_nonneg (sq_nonneg x.value)] at apart
  exact sumSeries_settled deep (product_sinks deep (covers_neg deep.precise) squared (by linarith) fades)
    fades.gone sound
    (by rwa [fading])

theorem sinSeries_settled : Reaches (·.settled = true) (c.sinSeries x) :=
  deep.alternating_settled given small deep.fades_sine given (small.trans (by norm_num))

theorem cosSeries_settled : Reaches (·.settled = true) (c.cosSeries x) :=
  deep.alternating_settled given small deep.fades_cosine rfl (by rw [value_one, abs_one]; norm_num)

end

end Deep

end Reckoner.Decimal.Context

import Reckoner.Proofs.Decimal.Range

/-! Computations that come to an end. In a context with room for three times its digits, series find all their
terms and sums, since a term that counts is not too small for the next one, and sums do not cancel below their
last digits. So the constants of a working precision are found. -/

namespace Reckoner.Decimal.Context

variable {c : Context}

/-! ### Room for terms -/

theorem epsilon_settles (precise : 0 < c.precision) (least : c.least ≤ -c.precision) (greatest : 0 ≤ c.greatest) :
    Settles (fun z => z.isFinite = true ∧ z.value = c.grain) c.epsilon := by
  have known := (epsilon_reaches precise (by omega)).yields
  have gives := scale_gives precise (x := one) rfl
    (show ((-(c.precision : ℤ)).natAbs : ℤ) ≤ 2 * (c.greatest + c.precision) by omega)
  have spans : c.Spans (one.value * 10 ^ (-(c.precision : ℤ))) := by
    have unit := pow_ten_pos (-(c.precision : ℤ))
    rw [value_one, one_mul]
    refine spans_of_le least greatest (abs_of_pos unit).ge ?_
    rw [abs_of_pos unit]
    exact zpow_le_zpow_right₀ (by norm_num) (by omega)
  apply ((gives.settles_of_spans precise spans).and known).mono
  intro _ known
  exact known.2

/-- Whether a context has the digits that the functions work with, and a range of three times as many. -/
structure Roomy (c : Context) : Prop extends Working c where
  below : c.least ≤ -(3 * c.precision + 5)
  above : c.precision + 5 ≤ c.greatest

namespace Roomy

variable (roomy : c.Roomy)
include roomy

/-- The range goes further down than the square of what counts beside one. -/
theorem bottom_le_square : (10 : ℚ) ^ c.least ≤ c.grain ^ 2 / 10 ^ 11 := by
  have power : c.grain ^ 3 / 10 ^ 5 = 10 ^ (-(3 * (c.precision : ℤ) + 5)) := by
    rw [grain, ← zpow_natCast, ← zpow_mul, ← zpow_natCast, ← zpow_sub₀ (by norm_num)]
    congr 1
    push_cast
    ring
  have bottom : (10 : ℚ) ^ c.least ≤ c.grain ^ 3 / 10 ^ 5 := by
    rw [power]
    exact zpow_le_zpow_right₀ (by norm_num) roomy.below
  have cube : c.grain ^ 3 ≤ c.grain ^ 2 * (1 / 10 ^ 6) := by
    rw [pow_succ]
    exact mul_le_mul_of_nonneg_left roomy.fine (sq_nonneg _)
  linarith

theorem bottom_le : (10 : ℚ) ^ c.least ≤ c.grain / 10 ^ 11 := by
  have square : c.grain ^ 2 ≤ c.grain := pow_le_of_le_one c.grain_pos.le (by linarith [roomy.fine]) (by norm_num)
  linarith [roomy.bottom_le_square]

theorem le_top : (10 : ℚ) ^ 5 ≤ 10 ^ c.greatest := by
  have above := roomy.above
  have power : (10 : ℚ) ^ (5 : ℤ) ≤ 10 ^ c.greatest := zpow_le_zpow_right₀ (by norm_num) (by omega)
  exact_mod_cast power

theorem spans {q : ℚ} (low : 10 ^ c.least ≤ |q|) (high : |q| ≤ 10 ^ 5) : c.Spans q :=
  ⟨.inr low, high.trans roomy.le_top⟩

theorem spans_of_grain {q : ℚ} (low : c.grain / 10 ^ 5 ≤ |q|) (high : |q| ≤ 10 ^ 5) : c.Spans q :=
  roomy.spans (by linarith [roomy.bottom_le, c.grain_pos]) high

theorem spans_of_within {q r error : ℚ} (within : Within error |r| q) (small : error ≤ 1 / 200)
    (low : q = 0 ∨ 101 / 100 * 10 ^ c.least ≤ q) (high : q ≤ 10 ^ 4) : c.Spans r := by
  have bottom := pow_ten_pos c.least
  rcases low with rfl | low
  · have zero : |r| ≤ 0 := by
      have bounds := within.bounds le_rfl
      linarith
    rw [abs_nonpos_iff.mp zero]
    exact Spans.zero c
  · have positive : 0 < q := by linarith
    obtain ⟨least, most⟩ := within.bounds positive.le
    have part := mul_le_mul_of_nonneg_right small positive.le
    refine roomy.spans ?_ ?_ <;> linarith

theorem epsilon_settles : Settles (fun z => z.isFinite = true ∧ z.value = c.grain) c.epsilon := by
  have below := roomy.below
  have above := roomy.above
  exact Context.epsilon_settles roomy.precise (by omega) (by omega)

end Roomy

/-! ### Series -/

/-- Whether a series with a factor and a total finds its next term and the sum with it. The sum has a property, and
what holds of the factor and the total holds again as long as terms count. -/
def Continues (c : Context) (next : Nat → Decimal → Except Signal (Decimal × Decimal))
    (holds : Nat → ℚ → ℚ → Prop) (known : ℚ → Prop) : Prop :=
  ∀ index factor, 1 ≤ index → index ≤ seriesBound → factor.isFinite = true → ∀ total, holds index factor.value total →
    Settles (fun made => made.1.isFinite = true ∧ made.2.isFinite = true ∧ c.Spans made.2.value ∧
      c.Spans (total + made.2.value) ∧ ∀ sum, c.IsRounding (total + made.2.value) sum → known sum.value ∧
        (99 / 100 * c.grain ≤ |made.2.value| → holds (index + 1) made.1.value sum.value))
      (next index factor)

section
variable (roomy : c.Roomy) {next : Nat → Decimal → Except Signal (Decimal × Decimal)} {holds : Nat → ℚ → ℚ → Prop}
  {known : ℚ → Prop} (continues : c.Continues next holds known)
include roomy continues

theorem addTerms_settles {epsilon : Decimal} (small : epsilon.isFinite = true) (same : epsilon.value = c.grain)
    (fuel : Nat) {index : Nat} (counted : 1 ≤ index) (all : index + fuel = seriesBound + 1) {factor total : Decimal}
    (carried : factor.isFinite = true) (summed : total.isFinite = true) (held : holds index factor.value total.value)
    (start : known total.value) :
    Settles (fun sum => sum.total.isFinite = true ∧ known sum.total.value)
      (c.addTerms epsilon next fuel index factor total) := by
  have precise := roomy.precise
  have tiny := c.grain_pos
  have fine := roomy.fine
  induction fuel generalizing index factor total with
  | zero => exact .ok ⟨summed, start⟩
  | succ fuel ih =>
    unfold addTerms
    apply (continues index factor counted (by omega) carried total.value held).andThen
    intro made continued
    obtain ⟨carried, term, spans, sums, later⟩ := continued
    apply ((add_gives precise summed term).settles_of_spans precise sums).andThen
    intro sum rounding
    have sizes : c.Spans |made.2.value| := by rwa [Spans, Normal, abs_eq_zero, abs_abs]
    apply ((abs_gives precise term).settles_of_spans precise sizes).andThen
    intro size measured
    obtain ⟨found, later⟩ := later sum rounding
    rw [isLess_eq measured.isFinite small, same]
    refine .ite (fun _ => .ok ⟨rounding.isFinite, found⟩) ?_
    intro counts
    have most := (sizes.1.within measured).bounds (abs_nonneg _)
    have least : c.grain ≤ size.value := by simpa using counts
    exact ih (by omega) (by omega) carried rounding.isFinite (later (by nlinarith)) found

theorem sumSeries_settles {first : Decimal} (given : first.isFinite = true) (held : holds 1 first.value first.value)
    (start : known first.value) :
    Settles (fun sum => sum.total.isFinite = true ∧ known sum.total.value) (c.sumSeries first next) := by
  apply roomy.epsilon_settles.andThen
  rintro _ ⟨small, same⟩
  exact addTerms_settles roomy continues small same seriesBound le_rfl (Nat.add_comm _ _) given given held start

end

/-! ### Terms made of the ones before -/

/-- Whether a step that may turn a sign is found. -/
def Turns (c : Context) (turn : Decimal → Except Signal Decimal) : Prop :=
  ∀ x, x.isFinite = true → c.Spans x.value →
    Settles (fun z => z.isFinite = true ∧ Within (5 * c.grain) |z.value| |x.value|) (turn x)

theorem turns_pure : c.Turns pure := fun x given _ =>
  .ok ⟨given, .refl (by linarith [c.grain_pos]) _⟩

theorem turns_neg (precise : 0 < c.precision) : c.Turns c.neg := by
  intro x given spans
  have opposite : c.Spans (-x.value) := by rwa [Spans, Normal, neg_eq_zero, abs_neg]
  apply ((neg_gives precise given).settles_of_spans precise opposite).mono
  intro z rounding
  refine ⟨rounding.isFinite, ?_⟩
  exact abs_neg x.value ▸ (opposite.1.within rounding).abs

/-- A term that is the one before, turned, times a number and divided by a whole one. -/
def productTerm (c : Context) (turn : Decimal → Except Signal Decimal) (by' : Decimal) (divisor : Nat → Int)
    (index : Nat) (term : Decimal) : Except Signal (Decimal × Decimal) := do
  let term ← c.div (← c.mul (← turn term) by') (ofInt (divisor index))
  return (term, term)

section
variable (roomy : c.Roomy) {turn : Decimal → Except Signal Decimal} (turns : c.Turns turn) {ratio : Decimal}
  (given : ratio.isFinite = true) (size : |ratio.value| ≤ 11)
include roomy turns given size

theorem productTerm_settles {term : Decimal} {divisor : Nat → Int} {index : Nat} (carried : term.isFinite = true)
    (spans : c.Spans term.value) (few : |term.value| ≤ 6) (least : 1 ≤ divisor index)
    (counts : term.value * ratio.value = 0 ∨ 11 / 10 * divisor index * 10 ^ c.least ≤ |term.value * ratio.value|) :
    Settles (fun made => made.1 = made.2 ∧ made.2.isFinite = true ∧ c.Spans made.2.value ∧
        Within (17 * c.grain) |made.2.value| (|term.value * ratio.value| / divisor index) ∧
        ∀ k : ℤ, 10 ^ k ≤ 9 / 10 * (|term.value * ratio.value| / divisor index) →
          MultipleOf (k - (c.precision - 1)) made.2.value)
      (c.productTerm turn ratio divisor index term) := by
  have precise := roomy.precise
  have tiny := c.grain_pos
  have fine := roomy.fine
  have bottom := pow_ten_pos c.least
  have low : (1 : ℚ) ≤ divisor index := by exact_mod_cast least
  have total : |term.value * ratio.value| ≤ 66 := by
    rw [abs_mul]
    exact (mul_le_mul few size (abs_nonneg _) (by norm_num)).trans_eq (by norm_num)
  have products : |term.value * ratio.value| = 0 ∨ 101 / 100 * 10 ^ c.least ≤ |term.value * ratio.value| := by
    apply counts.imp (fun zero => by rw [zero, abs_zero])
    intro counts
    refine le_trans ?_ counts
    exact mul_le_mul_of_nonneg_right (by linarith) bottom.le
  have quotients : |term.value * ratio.value| / divisor index = 0 ∨
      101 / 100 * 10 ^ c.least ≤ |term.value * ratio.value| / divisor index := by
    apply counts.imp (fun zero => by rw [zero, abs_zero, zero_div])
    intro counts
    rw [le_div_iff₀ (by linarith)]
    linarith [mul_nonneg bottom.le (zero_le_one.trans low)]
  apply (turns term carried spans).andThen
  rintro turned ⟨sound, same⟩
  have first : Within (5 * c.grain) |turned.value * ratio.value| |term.value * ratio.value| := by
    have scaled := same.mul_left |ratio.value|
    rwa [← abs_mul, ← abs_mul, mul_comm ratio.value, mul_comm ratio.value] at scaled
  have inside := roomy.spans_of_within first (by linarith) products (by linarith)
  apply ((mul_gives precise sound given).settles_of_spans precise inside).andThen
  intro product multiplied
  have nonzero : (ofInt (divisor index)).value ≠ 0 := by
    rw [value_ofInt]
    linarith
  have second := ((inside.1.within multiplied).abs.trans first (by linarith)).div_right (divisor index : ℚ)
  have quotient : |product.value| / divisor index = |product.value / (ofInt (divisor index)).value| := by
    rw [value_ofInt, abs_div, abs_of_pos (by linarith : (0 : ℚ) < divisor index)]
  rw [quotient] at second
  have square : c.grain * c.grain ≤ 1 / 10 ^ 6 * c.grain := mul_le_mul_of_nonneg_right fine tiny.le
  have below : |term.value * ratio.value| / divisor index ≤ 66 := (div_le_self (abs_nonneg _) low).trans total
  have spanned := roomy.spans_of_within second (by linarith) quotients (by linarith)
  apply ((div_gives precise multiplied.isFinite rfl nonzero).settles_of_spans precise spanned).andThen
  intro made divided
  refine .ok ⟨rfl, divided.isFinite, spanned.of_rounding precise divided, ?_, ?_⟩
  · refine ((spanned.1.within divided).abs.trans second (by linarith)).mono ?_
    linarith [mul_le_mul_of_nonneg_left square tiny.le, mul_le_mul_of_nonneg_right fine tiny.le]
  · intro k large
    have part : 0 ≤ |term.value * ratio.value| / divisor index := div_nonneg (abs_nonneg _) (by linarith)
    refine spanned.1.multipleOf divided (large.trans (le_trans ?_ (second.bounds part).1))
    exact mul_le_mul_of_nonneg_right (by linarith) part

end

/-- Whether the terms of a series shrink after the first one, and the first one is not too small. -/
structure Shrinks (c : Context) (ratio : ℚ) (divisor : Nat → Int) : Prop where
  least : ∀ n, 1 ≤ n → 1 ≤ divisor n
  most : ∀ n, n ≤ seriesBound → divisor n ≤ 40000
  size : |ratio| ≤ 11
  first : |ratio| ≤ 11 / 2 * divisor 1
  later : ∀ n, 2 ≤ n → |ratio| ≤ 9 / 10 * divisor n
  counts : ratio = 0 ∨ 11 / 10 * divisor 1 * 10 ^ c.least ≤ |ratio|

/-- Whether a term and the total with it belong to such a series: the first ones are one, and later ones are
multiples of a power of ten in the range. -/
structure Terms (c : Context) (ratio : ℚ) (index : Nat) (term total : ℚ) : Prop where
  few : |term| ≤ 6
  bounded : |total| ≤ 10 * index
  known : index = 1 ∧ term = 1 ∧ total = 1 ∨
    2 ≤ index ∧ 9 / 10 * c.grain ≤ |ratio| ∧ 9 / 10 * c.grain ≤ |term| ∧ MultipleOf (-(3 * c.precision + 5)) total

theorem pow_eq_grain (c : Context) (k : Nat) (less : ℤ) :
    (10 : ℚ) ^ (-(k * c.precision : ℤ) - less) = c.grain ^ k * 10 ^ (-less) := by
  rw [grain, ← zpow_natCast, ← zpow_mul, ← zpow_add₀ (by norm_num)]
  congr 1
  ring

section
variable (roomy : c.Roomy) {ratio : Decimal} {divisor : Nat → Int} (shrinks : c.Shrinks ratio.value divisor)
  {index : Nat} (counted : 1 ≤ index) (within : index ≤ seriesBound) {term total : ℚ}
  (terms : c.Terms ratio.value index term total)
include roomy shrinks counted within terms

omit shrinks counted within in
theorem Terms.spans : c.Spans term := by
  have tiny := c.grain_pos
  have fine := roomy.fine
  refine roomy.spans_of_grain ?_ (terms.few.trans (by norm_num))
  rcases terms.known with ⟨_, one, _⟩ | ⟨_, _, size, _⟩
  · rw [one, abs_one]
    linarith
  · linarith

theorem Terms.counts : term * ratio.value = 0 ∨ 11 / 10 * divisor index * 10 ^ c.least ≤ |term * ratio.value| := by
  have tiny := c.grain_pos
  have bottom := roomy.bottom_le_square
  rcases terms.known with ⟨rfl, one, _⟩ | ⟨_, large, size, _⟩
  · rw [one, one_mul]
    exact shrinks.counts
  · right
    have most : (divisor index : ℚ) ≤ 40000 := by exact_mod_cast shrinks.most index within
    have square : 81 / 100 * c.grain ^ 2 ≤ |term * ratio.value| := by
      rw [abs_mul]
      calc 81 / 100 * c.grain ^ 2 = 9 / 10 * c.grain * (9 / 10 * c.grain) := by ring
        _ ≤ |term| * |ratio.value| := mul_le_mul size large (by positivity) (abs_nonneg _)
    have positive := sq_nonneg c.grain
    have power := (pow_ten_pos c.least).le
    calc 11 / 10 * (divisor index : ℚ) * 10 ^ c.least ≤ 11 / 10 * 40000 * 10 ^ c.least := by gcongr
      _ ≤ |term * ratio.value| := by linarith

omit roomy within in
theorem Terms.ratio_le : |term * ratio.value| / divisor index ≤ 11 / 2 := by
  have least : (1 : ℚ) ≤ divisor index := by exact_mod_cast shrinks.least index counted
  rw [div_le_iff₀ (by linarith), abs_mul]
  rcases terms.known with ⟨rfl, one, _⟩ | ⟨later, _⟩
  · rw [one, abs_one, one_mul]
    exact shrinks.first
  · have part := shrinks.later index later
    calc |term| * |ratio.value| ≤ 6 * (9 / 10 * divisor index) :=
          mul_le_mul terms.few part (abs_nonneg _) (by norm_num)
      _ ≤ 11 / 2 * divisor index := by linarith

/-- A term that counts is a multiple of a power of ten in the range, and the total with it. -/
theorem Terms.multipleOf {made : ℚ} (near : Within (17 * c.grain) |made| (|term * ratio.value| / divisor index))
    (multiple : ∀ k : ℤ, 10 ^ k ≤ 9 / 10 * (|term * ratio.value| / divisor index) →
      MultipleOf (k - (c.precision - 1)) made) (some : index = 1 → 99 / 100 * c.grain ≤ |made|) :
    9 / 10 * c.grain ≤ |ratio.value| ∧ MultipleOf (-(3 * c.precision + 5)) (total + made) := by
  have tiny := c.grain_pos
  have fine := roomy.fine
  have least : (1 : ℚ) ≤ divisor index := by exact_mod_cast shrinks.least index counted
  have precise := roomy.precise
  rcases terms.known with ⟨first, one, start⟩ | ⟨_, large, size, sums⟩
  · have counts := some first
    rw [one, one_mul] at near multiple
    have part : 0 ≤ |ratio.value| / divisor index := div_nonneg (abs_nonneg _) (by linarith)
    have below := (near.bounds part).2
    have whole : |ratio.value| / divisor index ≤ |ratio.value| := div_le_self (abs_nonneg _) least
    have quotient : 98 / 100 * c.grain ≤ |ratio.value| / divisor index := by nlinarith
    have power := pow_eq_grain c 1 1
    rw [pow_one] at power
    have found := multiple (-((1 : Nat) * c.precision : ℤ) - 1) (by rw [power]; norm_num; linarith)
    refine ⟨by linarith, ?_⟩
    have unit : MultipleOf (-(3 * c.precision + 5)) (1 : ℚ) := by exact_mod_cast MultipleOf.ofInt 1 (by omega)
    rw [start]
    exact unit.add (found.mono (by push_cast; omega))
  · have most : (divisor index : ℚ) ≤ 40000 := by exact_mod_cast shrinks.most index within
    have square : 81 / 100 * c.grain ^ 2 ≤ |term * ratio.value| := by
      rw [abs_mul]
      calc 81 / 100 * c.grain ^ 2 = 9 / 10 * c.grain * (9 / 10 * c.grain) := by ring
        _ ≤ |term| * |ratio.value| := mul_le_mul size large (by positivity) (abs_nonneg _)
    have quotient : 81 / 4000000 * c.grain ^ 2 ≤ |term * ratio.value| / divisor index := by
      rw [le_div_iff₀ (by linarith)]
      nlinarith [sq_nonneg c.grain]
    have power := pow_eq_grain c 2 5
    have found := multiple (-((2 : Nat) * c.precision : ℤ) - 5) (by
      rw [power, show (10 : ℚ) ^ (-5 : ℤ) = 1 / 10 ^ 5 by norm_num]
      linarith [sq_nonneg c.grain])
    exact ⟨large, sums.add (found.mono (by push_cast; omega))⟩

end

theorem continues_product (roomy : c.Roomy) {turn : Decimal → Except Signal Decimal} (turns : c.Turns turn)
    {ratio : Decimal} (given : ratio.isFinite = true) {divisor : Nat → Int}
    (shrinks : c.Shrinks ratio.value divisor) :
    c.Continues (c.productTerm turn ratio divisor) (c.Terms ratio.value) c.Spans := by
  intro index term counted within carried total terms
  have tiny := c.grain_pos
  have fine := roomy.fine
  have below := roomy.below
  have above := roomy.above
  have count : (index : ℚ) ≤ 100 := by exact_mod_cast within
  have least : (1 : ℚ) ≤ divisor index := by exact_mod_cast shrinks.least index counted
  apply (productTerm_settles roomy turns given shrinks.size carried (terms.spans roomy) terms.few
    (shrinks.least index counted) (terms.counts roomy shrinks counted within)).mono
  rintro ⟨next, made⟩ ⟨same, sound, inside, near, multiple⟩
  obtain rfl : next = made := same
  have part : 0 ≤ |term.value * ratio.value| / divisor index := div_nonneg (abs_nonneg _) (by linarith)
  have few : |next.value| ≤ 6 := by
    have most := (near.bounds part).2
    nlinarith [terms.ratio_le shrinks counted]
  have size : |total + next.value| ≤ 10 * index + 6 := (abs_add_le _ _).trans (by linarith [terms.bounded])
  have multiples := terms.multipleOf roomy shrinks counted within near multiple
  have spans : c.Spans (total + next.value) := by
    by_cases start : index = 1 ∧ |next.value| < 99 / 100 * c.grain
    · obtain ⟨first, less⟩ := start
      have one : total = 1 := by
        rcases terms.known with ⟨_, _, one⟩ | ⟨later, _⟩
        · exact one
        · omega
      refine roomy.spans_of_grain ?_ (by linarith)
      have sum := abs_sub_abs_le_abs_add total next.value
      rw [one, abs_one] at sum
      rw [one]
      linarith
    · have counts : index = 1 → 99 / 100 * c.grain ≤ |next.value| := fun first =>
        not_lt.mp fun less => start ⟨first, less⟩
      refine spans_of_multipleOf (multiples counts).2 below (show (5 : ℤ) ≤ c.greatest by omega) ?_
      refine size.trans ?_
      norm_num
      linarith
  refine ⟨sound, sound, inside, spans, fun sum rounding =>
    ⟨spans.of_rounding roomy.precise rounding, fun counts => ⟨few, ?_, ?_⟩⟩⟩
  · have most := ((spans.1.within rounding).abs.bounds (abs_nonneg _)).2
    push_cast
    nlinarith
  · obtain ⟨large, sums⟩ := multiples fun _ => counts
    exact .inr ⟨by omega, large, by linarith, rounding.multipleOf sums⟩

namespace Roomy

variable (roomy : c.Roomy)
include roomy

theorem product_settles {turn : Decimal → Except Signal Decimal} (turns : c.Turns turn) {ratio : Decimal}
    (given : ratio.isFinite = true) {divisor : Nat → Int} (shrinks : c.Shrinks ratio.value divisor) :
    Settles (fun sum => sum.total.isFinite = true ∧ c.Spans sum.total.value)
      (c.sumSeries one (c.productTerm turn ratio divisor)) := by
  have start : c.Terms ratio.value 1 one.value one.value := by
    rw [value_one]
    exact ⟨by norm_num, by norm_num, .inl ⟨rfl, rfl, rfl⟩⟩
  exact sumSeries_settles roomy (continues_product roomy turns given shrinks) rfl start (start.spans roomy)

theorem expSeries_settles {x : Decimal} (given : x.isFinite = true) (small : |x.value| ≤ 1)
    (counts : x.value = 0 ∨ 11 / 10 * 10 ^ c.least ≤ |x.value|) :
    Settles (fun sum => sum.total.isFinite = true ∧ c.Spans sum.total.value) (c.expSeries x) := by
  suffices shrinks : c.Shrinks x.value fun n => n from roomy.product_settles turns_pure given shrinks
  refine ⟨fun n counted => by exact_mod_cast counted, ?_, by linarith, ?_, ?_, ?_⟩
  · intro n within
    exact_mod_cast le_trans within (by decide)
  · norm_num
    linarith
  · intro n later
    have two : (2 : ℚ) ≤ n := by exact_mod_cast later
    push_cast
    linarith
  · simpa using counts

theorem cosSeries_settles {x : Decimal} (given : x.isFinite = true) (small : |x.value| ≤ 16 / 5)
    (counts : x.value = 0 ∨ 5 / 2 * 10 ^ c.least ≤ x.value ^ 2) :
    Settles (fun sum => sum.total.isFinite = true ∧ c.Spans sum.total.value) (c.cosSeries x) := by
  have precise := roomy.precise
  have fine := roomy.fine
  have bottom := pow_ten_pos c.least
  have square := sq_le_of_abs_le small
  have positive := sq_nonneg x.value
  have squares : c.Spans (x.value * x.value) := by
    rw [← pow_two]
    rcases counts with zero | counts
    · rw [zero, zero_pow two_ne_zero]
      exact Spans.zero c
    · refine roomy.spans ?_ ?_ <;> rw [abs_of_nonneg positive] <;> linarith
  apply ((mul_gives precise given given).settles_of_spans precise squares).andThen
  intro found multiplied
  have near := (squares.1.within multiplied).abs
  rw [← pow_two, abs_of_nonneg positive] at near
  obtain ⟨low, high⟩ := near.bounds positive
  have tiny := c.grain_pos
  have most : |found.value| ≤ 51 / 5 + 1 / 10 := by nlinarith
  suffices shrinks : c.Shrinks found.value cosineDivisor from
    roomy.product_settles (turns_neg precise) multiplied.isFinite shrinks
  refine ⟨?_, ?_, by linarith, ?_, ?_, ?_⟩
  · intro n counted
    rw [cosineDivisor]
    have one : (1 : ℤ) ≤ n := by exact_mod_cast counted
    nlinarith
  · intro n within
    rw [cosineDivisor]
    have hundred : (n : ℤ) ≤ 100 := by exact_mod_cast within
    nlinarith
  · rw [show cosineDivisor 1 = 2 from rfl]
    push_cast
    linarith
  · intro n later
    have twelve := cosineDivisor_grows.twelve_le later
    linarith
  · rw [show cosineDivisor 1 = 2 from rfl]
    refine counts.imp ?_ ?_
    · intro zero
      rw [zero, zero_pow two_ne_zero, mul_zero] at high
      exact abs_nonpos_iff.mp high
    · intro counts
      push_cast
      nlinarith

end Roomy

/-! ### Odd powers over their exponents -/

/-- Whether a power and the total with it belong to the odd powers of a small number: the total stays near the
number itself. -/
structure OddTerms (c : Context) (x square : ℚ) (index : Nat) (power total : ℚ) : Prop where
  near : |total - x| + |power| / 10 ≤ x / 10 + 6 * c.grain * x * index
  known : index = 1 ∧ power = x ∨ 2 ≤ index ∧ c.grain ≤ square ∧ 9 / 10 * c.grain ≤ |power|

section
variable (roomy : c.Roomy) {x square : ℚ} (positive : 0 < x) (most : x ≤ 1 / 5) (large : 7 / 2 * 10 ^ c.least ≤ x ^ 3)
  (squared : Within (5 * c.grain) square (x ^ 2))
include roomy positive most large squared

omit large in
theorem square_le : 0 < square ∧ square ≤ 401 / 10000 := by
  have tiny := c.grain_pos
  have fine := roomy.fine
  have small : x ^ 2 ≤ 1 / 25 := (pow_le_pow_left₀ positive.le most 2).trans_eq (by norm_num)
  have size : 0 < x ^ 2 := by positivity
  obtain ⟨low, high⟩ := squared.bounds size.le
  constructor <;> nlinarith

variable {index : Nat} (counted : 1 ≤ index) (within : index ≤ seriesBound) {power total : ℚ}
  (terms : c.OddTerms x square index power total)
include counted within terms

omit most large squared counted in
theorem OddTerms.abs_le : |power| ≤ 101 / 100 * x ∧ |total - x| ≤ 101 / 1000 * x := by
  have tiny := c.grain_pos
  have fine := roomy.fine
  have count : (index : ℚ) ≤ 100 := by exact_mod_cast within
  have near := terms.near
  have drift : 6 * c.grain * x * index ≤ 1 / 1000 * x := by
    calc 6 * c.grain * x * index ≤ 6 * (1 / 10 ^ 6) * x * 100 := by gcongr
      _ ≤ 1 / 1000 * x := by linarith
  constructor <;> linarith [abs_nonneg (total - x), abs_nonneg power]

theorem OddTerms.counts : 102 / 100 * (2 * index + 1) * 10 ^ c.least ≤ |power| * square := by
  have tiny := c.grain_pos
  have fine := roomy.fine
  have bottom := roomy.bottom_le_square
  have floor := pow_ten_pos c.least
  have count : (index : ℚ) ≤ 100 := by exact_mod_cast within
  rcases terms.known with ⟨rfl, same⟩ | ⟨_, wide, size⟩
  · obtain ⟨low, _⟩ := squared.bounds (sq_nonneg x)
    have cube : (1 - 5 * c.grain) * x ^ 3 ≤ |power| * square := by
      rw [same, abs_of_pos positive, pow_succ]
      nlinarith
    push_cast
    nlinarith
  · have product : 9 / 10 * c.grain ^ 2 ≤ |power| * square := by
      rw [pow_two, ← mul_assoc]
      exact mul_le_mul size wide tiny.le (abs_nonneg _)
    have square := sq_nonneg c.grain
    calc 102 / 100 * (2 * (index : ℚ) + 1) * 10 ^ c.least ≤ 102 / 100 * (2 * 100 + 1) * 10 ^ c.least := by gcongr
      _ ≤ |power| * _ := by linarith

omit squared counted in
theorem OddTerms.spans : c.Spans power := by
  have tiny := c.grain_pos
  have fine := roomy.fine
  have floor := pow_ten_pos c.least
  have size := (terms.abs_le roomy positive within).1
  rcases terms.known with ⟨_, same⟩ | ⟨_, _, wide⟩
  · refine roomy.spans ?_ (by linarith)
    have square : x ^ 2 ≤ 1 / 25 := (pow_le_pow_left₀ positive.le most 2).trans_eq (by norm_num)
    have cube : x ^ 3 ≤ 1 / 25 * x := by
      rw [pow_succ]
      exact mul_le_mul_of_nonneg_right square positive.le
    rw [same, abs_of_pos positive]
    linarith
  · exact roomy.spans_of_grain (by linarith) (by linarith)

end

theorem oddTerm_settles (roomy : c.Roomy) {turn : Decimal → Except Signal Decimal} (turns : c.Turns turn)
    {square power : Decimal} (given : square.isFinite = true) (carried : power.isFinite = true) {index : Nat}
    (spans : c.Spans power.value) (size : 0 ≤ square.value) (below : |power.value| * square.value ≤ 10 ^ 3)
    (counts : 102 / 100 * (2 * index + 1) * 10 ^ c.least ≤ |power.value| * square.value) :
    Settles (fun made => made.1.isFinite = true ∧ made.2.isFinite = true ∧ c.Spans made.2.value ∧
        Within (11 * c.grain) |made.1.value| (|power.value| * square.value) ∧
        Within (17 * c.grain) |made.2.value| (|power.value| * square.value / (2 * index + 1)))
      (c.oddTerm turn square index power) := by
  have precise := roomy.precise
  have tiny := c.grain_pos
  have fine := roomy.fine
  have floor := pow_ten_pos c.least
  have width : (1 : ℚ) ≤ 2 * index + 1 := by linarith [(Nat.cast_nonneg index : (0 : ℚ) ≤ index)]
  have part : 0 ≤ |power.value| * square.value := mul_nonneg (abs_nonneg _) size
  have tiny_sq : c.grain * c.grain ≤ 1 / 10 ^ 6 * c.grain := mul_le_mul_of_nonneg_right fine tiny.le
  have products : 101 / 100 * 10 ^ c.least ≤ |power.value| * square.value :=
    (mul_le_mul_of_nonneg_right (by linarith) floor.le).trans counts
  have quotients : 101 / 100 * 10 ^ c.least ≤ |power.value| * square.value / (2 * index + 1) := by
    rw [le_div_iff₀ (by linarith)]
    linarith [mul_nonneg floor.le (show (0 : ℚ) ≤ 2 * index + 1 by linarith)]
  apply (turns power carried spans).andThen
  rintro turned ⟨sound, same⟩
  have first : Within (5 * c.grain) |turned.value * square.value| (|power.value| * square.value) := by
    have scaled := same.mul_left square.value
    rwa [mul_comm square.value, mul_comm square.value, ← abs_of_nonneg size, ← abs_mul, abs_of_nonneg size] at scaled
  have inside := roomy.spans_of_within first (by linarith) (.inr products) (by linarith)
  apply ((mul_gives precise sound given).settles_of_spans precise inside).andThen
  intro product multiplied
  have second := (inside.1.within multiplied).abs.trans first (by linarith)
  have nonzero : (ofInt (2 * index + 1)).value ≠ 0 := by
    rw [value_ofInt]
    push_cast
    linarith
  have quotient : |product.value| / (2 * index + 1) = |product.value / (ofInt (2 * index + 1)).value| := by
    rw [value_ofInt, abs_div]
    push_cast
    rw [abs_of_pos (by linarith : (0 : ℚ) < 2 * index + 1)]
  have third := second.div_right (2 * index + 1 : ℚ)
  rw [quotient] at third
  have less : |power.value| * square.value / (2 * index + 1) ≤ 10 ^ 3 := (div_le_self part width).trans below
  have spanned := roomy.spans_of_within third (by linarith) (.inr quotients) (by linarith)
  apply ((div_gives precise multiplied.isFinite rfl nonzero).settles_of_spans precise spanned).andThen
  intro made divided
  refine .ok ⟨multiplied.isFinite, divided.isFinite, spanned.of_rounding precise divided, ?_, ?_⟩
  · exact second.mono (by linarith)
  · refine ((spanned.1.within divided).abs.trans third (by linarith)).mono ?_
    linarith [mul_le_mul_of_nonneg_left tiny_sq tiny.le]

theorem continues_odd (roomy : c.Roomy) {turn : Decimal → Except Signal Decimal} (turns : c.Turns turn) {x : ℚ}
    (positive : 0 < x) (most : x ≤ 1 / 5) (large : 7 / 2 * 10 ^ c.least ≤ x ^ 3) {square : Decimal}
    (given : square.isFinite = true) (squared : Within (5 * c.grain) square.value (x ^ 2)) :
    c.Continues (c.oddTerm turn square) (c.OddTerms x square.value) fun total => |total - x| ≤ x / 5 := by
  intro index power counted within carried total terms
  have tiny := c.grain_pos
  have fine := roomy.fine
  have floor := pow_ten_pos c.least
  have count : (1 : ℚ) ≤ index := by exact_mod_cast counted
  obtain ⟨size, small⟩ := square_le roomy positive most squared
  obtain ⟨few, drift⟩ := terms.abs_le roomy positive within
  have part := abs_nonneg power.value
  have product : 0 ≤ |power.value| * square.value := mul_nonneg part size.le
  have shrinks : |power.value| * square.value ≤ 401 / 10000 * |power.value| := by
    rw [mul_comm]
    exact mul_le_mul_of_nonneg_right small part
  apply (oddTerm_settles roomy turns given carried (terms.spans roomy positive most large within) size.le (by linarith)
    (terms.counts roomy positive most large squared counted within)).mono
  rintro made ⟨next, term, inside, first, second⟩
  have powers := first.bounds product
  have terms' := second.bounds (div_nonneg product (by linarith))
  have quotient : |power.value| * square.value / (2 * index + 1) ≤ |power.value| * square.value / 3 :=
    div_le_div_of_nonneg_left product (by norm_num) (by linarith)
  have raised : (1 + 17 * c.grain) * (|power.value| * square.value / (2 * index + 1)) ≤
      101 / 100 * (|power.value| * square.value / 3) :=
    mul_le_mul (by linarith) quotient (div_nonneg product (by linarith)) (by norm_num)
  have term_le : |made.2.value| ≤ 14 / 1000 * |power.value| := by linarith
  have power_le : |made.1.value| ≤ 41 / 1000 * |power.value| := by
    have above := mul_le_mul_of_nonneg_right (show 1 + 11 * c.grain ≤ 101 / 100 by linarith) product
    linarith
  have near := abs_sub_abs_le_abs_sub (total + made.2.value) x
  have sums : |total + made.2.value - x| ≤ |total - x| + |made.2.value| := by
    rw [add_sub_right_comm]
    exact abs_add_le _ _
  have bounds := abs_le.mp (show |total + made.2.value - x| ≤ 12 / 100 * x by linarith)
  have spans : c.Spans (total + made.2.value) := by
    have square : x ^ 2 ≤ 1 / 25 := (pow_le_pow_left₀ positive.le most 2).trans_eq (by norm_num)
    have cube : x ^ 3 ≤ 1 / 25 * x := by
      rw [pow_succ]
      exact mul_le_mul_of_nonneg_right square positive.le
    refine roomy.spans ?_ ?_ <;> rw [abs_of_nonneg (by linarith)] <;> linarith
  refine ⟨next, term, inside, spans, ?_⟩
  intro sum rounding
  have error := spans.1.within rounding
  rw [Within, abs_of_nonneg (by linarith : 0 ≤ total + made.2.value)] at error
  have part_le : c.grain * x ≤ 1 / 10 ^ 6 * x := mul_le_mul_of_nonneg_right fine positive.le
  have slip : 5 * c.grain * (total + made.2.value) ≤ 5 * c.grain * (112 / 100 * x) :=
    mul_le_mul_of_nonneg_left (by linarith) (by linarith)
  have moved : |sum.value - x| ≤ |total - x| + |made.2.value| + 28 / 5 * (c.grain * x) := by
    linarith [abs_sub_le sum.value (total + made.2.value) x]
  refine ⟨by linarith, fun counts => ⟨?_, .inr ⟨by omega, ?_, ?_⟩⟩⟩
  · have start := terms.near
    have wide := mul_nonneg tiny.le positive.le
    push_cast
    linarith
  · have product_le : |power.value| * square.value ≤ 202 / 1000 * square.value :=
      mul_le_mul_of_nonneg_right (by linarith) size.le
    linarith
  · have below := mul_le_mul_of_nonneg_right (show 99 / 100 ≤ 1 - 11 * c.grain by linarith) product
    linarith

namespace Roomy

variable (roomy : c.Roomy)
include roomy

section
variable {x : Decimal} (given : x.isFinite = true) (positive : 0 < x.value) (most : x.value ≤ 1 / 5)
  (large : 7 / 2 * 10 ^ c.least ≤ x.value ^ 3)
include given positive most large

theorem odd_settles {turn : Decimal → Except Signal Decimal} (turns : c.Turns turn) :
    Settles (fun sum => sum.total.isFinite = true ∧ |sum.total.value - x.value| ≤ x.value / 5)
      (do c.sumSeries x (c.oddTerm turn (← c.mul x x))) := by
  have precise := roomy.precise
  have tiny := c.grain_pos
  have small : x.value ^ 2 ≤ 1 / 25 := (pow_le_pow_left₀ positive.le most 2).trans_eq (by norm_num)
  have cube : x.value ^ 3 ≤ x.value ^ 2 * (1 / 5) := by
    rw [pow_succ]
    exact mul_le_mul_of_nonneg_left most (sq_nonneg _)
  have floor := pow_ten_pos c.least
  have squares : c.Spans (x.value * x.value) := by
    rw [← pow_two]
    refine roomy.spans ?_ ?_ <;> rw [abs_of_nonneg (sq_nonneg _)] <;> linarith
  apply ((mul_gives precise given given).settles_of_spans precise squares).andThen
  intro square multiplied
  have squared := squares.1.within multiplied
  rw [← pow_two] at squared
  have start : c.OddTerms x.value square.value 1 x.value x.value := by
    refine ⟨?_, .inl ⟨rfl, rfl⟩⟩
    rw [sub_self, abs_zero, zero_add, abs_of_pos positive]
    exact le_add_of_nonneg_right (by positivity)
  refine sumSeries_settles roomy (continues_odd roomy turns positive most large multiplied.isFinite squared)
    given start ?_
  rw [sub_self, abs_zero]
  linarith

theorem atanSeries_settles :
    Settles (fun sum => sum.total.isFinite = true ∧ |sum.total.value - x.value| ≤ x.value / 5) (c.atanSeries x) :=
  roomy.odd_settles given positive most large (turns_neg roomy.precise)

/-- The series of the inverse hyperbolic tangent has a sum, near the argument. -/
theorem atanhSeries_settles :
    Settles (fun sum => sum.total.isFinite = true ∧ |sum.total.value - x.value| ≤ x.value / 5) (c.atanhSeries x) :=
  roomy.odd_settles given positive most large turns_pure

end

end Roomy

end Reckoner.Decimal.Context

import Reckoner.Proofs.Binary64.Value

/-! Rounding of doubles. The results of their arithmetic, and the doubles of ratios, are rounded faithfully: no double
lies between the exact result and the rounded one. -/

namespace Reckoner.Binary64

open Float.Model (Format UnpackedFloat totalExponent)
open Float.Model.UnpackedFloat
open Decimal (nearestEven nearestEven_near nearestEven_div nearestEven_neg)

/-! ### Faithful rounding -/

/-- Whether a number is a multiple of a unit that doubles have, with at most 53 bits. -/
def Fits (q : ℚ) : Prop := ∃ n place : ℤ, -1074 ≤ place ∧ |n| ≤ 2 ^ 53 ∧ q = n * 2 ^ place

theorem Fits.neg {q : ℚ} (fits : Fits q) : Fits (-q) := by
  obtain ⟨n, place, least, short, rfl⟩ := fits
  exact ⟨-n, place, least, by rwa [abs_neg], by push_cast; ring⟩

theorem fits_intCast {n : ℤ} (short : |n| ≤ 2 ^ 53) : Fits n := ⟨n, 0, by decide, short, by simp⟩

theorem fits_pow {place : ℤ} (least : -1074 ≤ place) : Fits (2 ^ place) :=
  ⟨1, place, least, by decide, by simp⟩

/-- Whether no double lies between a number and what it is rounded to. -/
structure Faithful (q rounded : ℚ) : Prop where
  le_of_le : ∀ {bound}, Fits bound → q ≤ bound → rounded ≤ bound
  ge_of_ge : ∀ {bound}, Fits bound → bound ≤ q → bound ≤ rounded

namespace Faithful

variable {q rounded : ℚ}

theorem refl (q : ℚ) : Faithful q q := ⟨fun _ below => below, fun _ above => above⟩

theorem neg (faithful : Faithful q rounded) : Faithful (-q) (-rounded) where
  le_of_le fits below := neg_le.mpr (faithful.ge_of_ge fits.neg (neg_le.mp below))
  ge_of_ge fits above := le_neg.mpr (faithful.le_of_le fits.neg (le_neg.mp above))

theorem eq_of_fits (faithful : Faithful q rounded) (fits : Fits q) : rounded = q :=
  le_antisymm (faithful.le_of_le fits le_rfl) (faithful.ge_of_ge fits le_rfl)

/-- What is rounded is off by at most the unit of any place that leaves it 53 bits. -/
theorem near (faithful : Faithful q rounded) {place : ℤ} (least : -1074 ≤ place) (short : |q| < 2 ^ 53 * 2 ^ place) :
    |rounded - q| ≤ 2 ^ place := by
  have unit : (0 : ℚ) < 2 ^ place := zpow_pos two_pos place
  obtain ⟨above, below⟩ := abs_lt.mp short
  rw [← neg_mul, ← lt_div_iff₀ unit] at above
  rw [← div_lt_iff₀ unit] at below
  have low : -2 ^ 53 ≤ ⌊q / 2 ^ place⌋ := Int.le_floor.mpr (by exact_mod_cast above.le)
  have high : ⌊q / 2 ^ place⌋ < 2 ^ 53 := Int.floor_lt.mpr (by exact_mod_cast below)
  have down : ⌊q / 2 ^ place⌋ * 2 ^ place ≤ q := (le_div_iff₀ unit).mp (Int.floor_le _)
  have up : q ≤ (⌊q / 2 ^ place⌋ + 1 : ℤ) * 2 ^ place :=
    (div_le_iff₀ unit).mp (by exact_mod_cast (Int.lt_floor_add_one (q / 2 ^ place)).le)
  have first := faithful.ge_of_ge ⟨_, place, least, abs_le.mpr ⟨by omega, by omega⟩, rfl⟩ down
  have last := faithful.le_of_le ⟨_, place, least, abs_le.mpr ⟨by omega, by omega⟩, rfl⟩ up
  push_cast at up last
  exact abs_le.mpr ⟨by linarith, by linarith⟩

end Faithful

/-! ### The last place -/

/-- Whether a number that is not negative keeps 53 bits at a place, or fewer at the least place. -/
structure Placed (q : ℚ) (place : ℤ) : Prop where
  least : -1074 ≤ place
  below : q < 2 ^ (place + 53)
  above : place = -1074 ∨ 2 ^ (place + 52) ≤ q

theorem pow_two_pos (place : ℤ) : (0 : ℚ) < 2 ^ place := zpow_pos two_pos place

theorem pow_place (bits : Nat) (place : ℤ) : (2 : ℚ) ^ (place + bits) = 2 ^ bits * 2 ^ place := by
  rw [zpow_add₀ two_ne_zero, zpow_natCast, mul_comm]

theorem nearestEven_le {q : ℚ} {n : ℤ} (below : q ≤ n) : nearestEven q ≤ n :=
  (Rounding.whole_bounds .halfEven q).2.trans (Int.ceil_le.mpr below)

theorem le_nearestEven {q : ℚ} {n : ℤ} (above : n ≤ q) : n ≤ nearestEven q :=
  (Int.le_floor.mpr above).trans (Rounding.whole_bounds .halfEven q).1

/-- A double above a number is above or at a multiple of the last place of the number. -/
theorem Fits.exists_multiple {q bound : ℚ} {place : ℤ} (fits : Fits bound)
    (full : place = -1074 ∨ 2 ^ (place + 52) ≤ |q|) (below : q ≤ bound) :
    ∃ n : ℤ, q ≤ n * 2 ^ place ∧ n * 2 ^ place ≤ bound := by
  obtain ⟨n, other, least, short, rfl⟩ := fits
  rcases le_or_gt place other with finer | coarser
  · obtain ⟨bits, rfl⟩ := Int.le.dest finer
    have multiple : ((n * 2 ^ bits : ℤ) : ℚ) * 2 ^ place = n * 2 ^ (place + bits) := by
      rw [pow_place]
      push_cast
      ring
    exact ⟨n * 2 ^ bits, by rwa [multiple], multiple.le⟩
  · -- A double with smaller units is no further from zero than the least number with this place.
    have power : (2 : ℚ) ^ (place + 52) = 2 ^ 52 * 2 ^ place := pow_place 52 place
    have least : 2 ^ 52 * 2 ^ place ≤ |q| := power ▸ full.resolve_left (by omega)
    have most : |(n : ℚ) * 2 ^ other| ≤ 2 ^ 52 * 2 ^ place := calc
      |(n : ℚ) * 2 ^ other| = |(n : ℚ)| * 2 ^ other := by rw [abs_mul, abs_of_pos (pow_two_pos other)]
      _ ≤ 2 ^ 53 * 2 ^ other := mul_le_mul_of_nonneg_right (by exact_mod_cast short) (pow_two_pos other).le
      _ = 2 ^ (other + 53) := (pow_place 53 other).symm
      _ ≤ 2 ^ (place + 52) := zpow_le_zpow_right₀ one_le_two (by omega)
      _ = 2 ^ 52 * 2 ^ place := power
    obtain ⟨low, high⟩ := abs_le.mp most
    rcases le_or_gt 0 q with positive | negative
    · rw [abs_of_nonneg positive] at least
      exact ⟨2 ^ 52, by push_cast; linarith, by push_cast; linarith⟩
    · rw [abs_of_neg negative] at least
      exact ⟨-2 ^ 52, by push_cast; linarith, by push_cast; linarith⟩

/-- The nearest multiple of the last place is faithful. -/
theorem faithful_nearest {q : ℚ} {place : ℤ} (full : place = -1074 ∨ 2 ^ (place + 52) ≤ |q|) :
    Faithful q (nearestEven (q / 2 ^ place) * 2 ^ place) := by
  have unit := pow_two_pos place
  have below {q bound : ℚ} (full : place = -1074 ∨ 2 ^ (place + 52) ≤ |q|) (fits : Fits bound) (le : q ≤ bound) :
      nearestEven (q / 2 ^ place) * 2 ^ place ≤ bound := by
    obtain ⟨n, above, under⟩ := fits.exists_multiple full le
    have nearest : nearestEven (q / 2 ^ place) ≤ n := nearestEven_le ((div_le_iff₀ unit).mpr above)
    exact (mul_le_mul_of_nonneg_right (by exact_mod_cast nearest) unit.le).trans under
  refine ⟨below full, ?_⟩
  intro bound fits ge
  have mirrored := below (by rwa [abs_neg]) fits.neg (neg_le_neg ge)
  rw [neg_div, nearestEven_neg] at mirrored
  push_cast at mirrored
  linarith

theorem Placed.faithful {q : ℚ} {place : ℤ} (placed : Placed q place) (nonneg : 0 ≤ q) :
    Faithful q (nearestEven (q / 2 ^ place) * 2 ^ place) :=
  faithful_nearest (by rw [abs_of_nonneg nonneg]; exact placed.above)

/-- The digits at the last place are those of a double, or one more with zeros. -/
theorem Placed.digits {q : ℚ} {place : ℤ} (placed : Placed q place) (nonneg : 0 ≤ q) {n : Nat}
    (same : (n : ℤ) = nearestEven (q / 2 ^ place)) :
    n ≤ 2 ^ 53 ∧ (place = -1074 ∨ 2 ^ 52 ≤ n) ∧ Faithful q (n * 2 ^ place) := by
  have unit := pow_two_pos place
  refine ⟨?_, placed.above.imp id ?_, ?_⟩
  · have most : nearestEven (q / 2 ^ place) ≤ ((2 ^ 53 : ℕ) : ℤ) := by
      refine nearestEven_le ((div_le_iff₀ unit).mpr ?_)
      push_cast
      exact placed.below.le.trans_eq (pow_place 53 place)
    exact_mod_cast same.trans_le most
  · intro above
    have least : ((2 ^ 52 : ℕ) : ℤ) ≤ nearestEven (q / 2 ^ place) := by
      refine le_nearestEven ((le_div_iff₀ unit).mpr ?_)
      push_cast
      exact (pow_place 52 place).symm.trans_le above
    exact_mod_cast least.trans_eq same.symm
  · have faithful := placed.faithful nonneg
    rw [← same] at faithful
    exact_mod_cast faithful

theorem nearestEven_mono {q r : ℚ} (ordered : q ≤ r) : nearestEven q ≤ nearestEven r := by
  by_contra above
  have half {s : ℚ} : |s - nearestEven s| ≤ 1 / 2 := by
    have near := nearestEven_near s
    linarith
  obtain ⟨first, -⟩ := abs_le.mp (half (s := q))
  obtain ⟨-, second⟩ := abs_le.mp (half (s := r))
  have next : (nearestEven r : ℚ) + 1 ≤ nearestEven q := by exact_mod_cast not_le.mp above
  -- Both are halfway between the two, so they are the same.
  have same : q = r := by linarith
  exact above (same ▸ le_rfl)

theorem Placed.nearest_le {q r : ℚ} {place other : ℤ} (first : Placed q place) (second : Placed r other)
    (nonneg : 0 ≤ q) (ordered : q ≤ r) :
    (nearestEven (q / 2 ^ place) : ℚ) * 2 ^ place ≤ nearestEven (r / 2 ^ other) * 2 ^ other := by
  have least := first.least
  rcases lt_trichotomy place other with finer | rfl | coarser
  · -- The power of two that the greater number starts with is between them.
    have between : q ≤ 2 ^ (other + 52) := first.below.le.trans (zpow_le_zpow_right₀ one_le_two (by omega))
    have above : 2 ^ (other + 52) ≤ r := second.above.resolve_left (by omega)
    have fits : Fits (2 ^ (other + 52)) := fits_pow (by omega)
    exact ((first.faithful nonneg).le_of_le fits between).trans
      ((second.faithful (nonneg.trans ordered)).ge_of_ge fits above)
  · have unit := pow_two_pos place
    have mono := nearestEven_mono ((div_le_div_iff_of_pos_right unit).mpr ordered)
    exact mul_le_mul_of_nonneg_right (by exact_mod_cast mono) unit.le
  · have above : (2 : ℚ) ^ (place + 52) ≤ q := first.above.resolve_left (by have := second.least; omega)
    have below : (2 : ℚ) ^ (other + 53) ≤ 2 ^ (place + 52) := zpow_le_zpow_right₀ one_le_two (by omega)
    exact absurd ((above.trans ordered).trans_lt (second.below.trans_le below)) (lt_irrefl _)

/-! ### Rounded parts -/

theorem apply_eq (sign : Sign) (n : ℕ) : sign.apply n = sign.apply 1 * n := by
  cases sign <;> simp [Sign.apply]

/-- Digits with their place, of which one too many is carried into the place. -/
def carried (sign : Sign) (digits : Nat) (place : ℤ) : UnpackedFloat :=
  if zero : digits = 0 then .zero sign
  else if digits < 2 ^ 53 then .finite sign digits place (Nat.pos_of_ne_zero zero)
  else .finite sign (2 ^ 52) (place + 1) (by decide)

theorem unpackedValue_carried (sign : Sign) {digits : Nat} (place : ℤ) (short : digits ≤ 2 ^ 53) :
    unpackedValue (carried sign digits place) = sign.apply digits * 2 ^ place := by
  unfold carried
  split
  · rename_i zero
    rw [zero]
    cases sign <;> simp [unpackedValue, Sign.apply]
  · split
    · rfl
    · obtain rfl : digits = 2 ^ 53 := by omega
      have power : (2 : ℚ) ^ (place + 1) = 2 ^ 1 * 2 ^ place := pow_place 1 place
      rw [unpackedValue, power]
      cases sign <;> simp only [Sign.apply] <;> push_cast <;> ring

/-- Digits of a double, or one more with zeros, make a double unless they are beyond the range. -/
theorem isDouble_carried (sign : Sign) {digits : Nat} {place : ℤ} (least : -1074 ≤ place)
    (full : place = -1074 ∨ 2 ^ 52 ≤ digits) (small : (digits : ℚ) * 2 ^ place < 2 ^ 1024) :
    IsDouble (carried sign digits place) := by
  have range (bits : Nat) (enough : 2 ^ bits ≤ digits) : place + bits < 1024 := by
    have power : (2 : ℚ) ^ (place + bits) < 2 ^ (1024 : ℤ) := calc
      (2 : ℚ) ^ (place + bits) = 2 ^ bits * 2 ^ place := pow_place bits place
      _ ≤ digits * 2 ^ place := mul_le_mul_of_nonneg_right (by exact_mod_cast enough) (pow_two_pos place).le
      _ < 2 ^ (1024 : ℤ) := small
    exact (zpow_lt_zpow_iff_right₀ one_lt_two).mp power
  unfold carried
  split
  · trivial
  · split
    · rename_i below
      refine ⟨⟨below, least, full⟩, ?_⟩
      rcases full with rfl | enough
      · decide
      · have := range 52 enough
        omega
    · rename_i long
      have := range 53 (Nat.not_lt.mp long)
      exact ⟨⟨by decide, by omega, .inr le_rfl⟩, by omega⟩

theorem isFinite_carried (sign : Sign) (digits : Nat) (place : ℤ) : (carried sign digits place).isFinite = true := by
  unfold carried
  split
  · rfl
  · split <;> rfl

theorem isInf_carried (sign : Sign) (digits : Nat) (place : ℤ) : (carried sign digits place).isInf = false := by
  unfold carried
  split
  · rfl
  · split <;> rfl

theorem unpack_ofModel {u : UnpackedFloat} (double : IsDouble u) : (Float.ofModel (.pack u)).toModel.unpack = u :=
  unpack_pack double

/-- Whether an unpacked number is a positive one rounded to its last place, or zero, with a sign. -/
def IsRounded (sign : Sign) (q : ℚ) (u : UnpackedFloat) : Prop :=
  ∃ place, Placed q place ∧ ∃ digits : Nat, (digits : ℤ) = nearestEven (q / 2 ^ place) ∧ u = carried sign digits place

/-- Whether a double is finite and a number rounded faithfully. -/
def Represents (q : ℚ) (x : Float) : Prop := x.isFinite = true ∧ Faithful q (value x)

theorem represents_of_unpack {x : Float} {u : UnpackedFloat} (parts : x.toModel.unpack = u)
    (finite : u.isFinite = true) : Represents (unpackedValue u) x := by
  refine ⟨(congrArg UnpackedFloat.isFinite parts).trans finite, ?_⟩
  rw [value, parts]
  exact .refl _

theorem represents_ofModel {u : UnpackedFloat} (double : IsDouble u) (finite : u.isFinite = true) :
    Represents (unpackedValue u) (Float.ofModel (.pack u)) :=
  represents_of_unpack (unpack_ofModel double) finite

theorem IsRounded.value_eq {sign : Sign} {q : ℚ} {u : UnpackedFloat} {x : Float} (rounded : IsRounded sign q u)
    (unpacked : IsDouble u → x.toModel.unpack = u) (nonneg : 0 ≤ q) (small : q ≤ 2 ^ 1023) :
    x.isFinite = true ∧ ∃ place, Placed q place ∧
      value x = sign.apply 1 * (nearestEven (q / 2 ^ place) * 2 ^ place) := by
  obtain ⟨place, placed, digits, same, rfl⟩ := rounded
  obtain ⟨short, full, faithful⟩ := placed.digits nonneg same
  have bound : (digits : ℚ) * 2 ^ place ≤ 2 ^ (1023 : ℤ) := faithful.le_of_le (fits_pow (by decide)) small
  have range : (2 : ℚ) ^ (1023 : ℤ) < 2 ^ 1024 := by
    rw [← zpow_natCast]
    exact zpow_lt_zpow_right₀ one_lt_two (by decide)
  have parts := unpacked (isDouble_carried sign placed.least full (bound.trans_lt range))
  have finite : x.isFinite = (carried sign digits place).isFinite := congrArg UnpackedFloat.isFinite parts
  refine ⟨finite.trans (isFinite_carried sign digits place), place, placed, ?_⟩
  rw [value, parts, unpackedValue_carried sign place short, apply_eq, ← same]
  push_cast
  ring

theorem IsRounded.represents {sign : Sign} {q : ℚ} {u : UnpackedFloat} {x : Float} (rounded : IsRounded sign q u)
    (unpacked : IsDouble u → x.toModel.unpack = u) (nonneg : 0 ≤ q) (small : q ≤ 2 ^ 1023) :
    Represents (sign.apply 1 * q) x := by
  obtain ⟨finite, place, placed, same⟩ := rounded.value_eq unpacked nonneg small
  refine ⟨finite, ?_⟩
  have faithful := placed.faithful nonneg
  rw [same]
  cases sign with
  | positive => simpa [Sign.apply] using faithful
  | negative => simpa [Sign.apply] using faithful.neg

/-! ### The rounding of the arithmetic -/

/-- What is left of a significand after shifts, with the last bit shifted out and whether others were. -/
theorem shift_succ (significand count : Nat) :
    (⟨significand, false, false⟩ : ExtendedMantissa) >>> (count + 1) =
      ⟨significand / 2 ^ (count + 1), significand / 2 ^ count % 2 != 0, significand % 2 ^ count != 0⟩ := by
  induction count with
  | zero => simp [HShiftRight.hShiftRight, Nat.repeat, ExtendedMantissa.shiftRightOne, Nat.mod_one]
  | succ count ih =>
    show ExtendedMantissa.shiftRightOne ((⟨significand, false, false⟩ : ExtendedMantissa) >>> (count + 1)) = _
    have rest : significand % 2 ^ (count + 1) = significand % 2 ^ count + 2 ^ count * (significand / 2 ^ count % 2) :=
      Nat.mod_pow_succ
    have sticky : ((significand / 2 ^ count % 2 != 0) || (significand % 2 ^ count != 0)) =
        (significand % 2 ^ (count + 1) != 0) := by
      rw [rest, Bool.eq_iff_iff]
      simp
      tauto
    rw [ih, ExtendedMantissa.shiftRightOne, sticky, Nat.div_div_eq_div_mul, ← Nat.pow_succ]

theorem roundedMantissa_eq (whole : Nat) {bit low half : Nat} (small : low < half) (binary : bit < 2) :
    (⟨whole, bit != 0, low != 0⟩ : ExtendedMantissa).roundedMantissa =
      if Rounding.halfEven.goesUp false whole (low + half * bit) (2 * half) then whole + 1 else whole := by
  simp only [ExtendedMantissa.roundedMantissa, Rounding.goesUp, Bool.or_eq_true, decide_eq_true_eq, Bool.and_eq_true,
    beq_iff_eq]
  obtain rfl | rfl : bit = 0 ∨ bit = 1 := by omega
  · rw [if_neg (by omega)]
    cases low <;> rfl
  · cases low with
    | zero =>
      show whole + whole % 2 = _
      split <;> omega
    | succ low =>
      show whole + 1 = _
      rw [if_pos (by omega)]

theorem roundedMantissa_shift (significand count : Nat) :
    ((⟨significand, false, false⟩ : ExtendedMantissa) >>> count).roundedMantissa =
      Rounding.halfEven.quotient false significand (2 ^ count) := by
  cases count with
  | zero =>
    rw [Rounding.quotient_of_mod_eq_zero _ _ Nat.one_pos (Nat.mod_one _), Nat.div_one]
    rfl
  | succ count =>
    have rest : significand % 2 ^ (count + 1) = significand % 2 ^ count + 2 ^ count * (significand / 2 ^ count % 2) :=
      Nat.mod_pow_succ
    rw [shift_succ, Rounding.quotient, rest, Nat.pow_succ']
    exact roundedMantissa_eq _ (Nat.mod_lt _ (Nat.two_pow_pos count)) (Nat.mod_lt _ two_pos)

/-- The place that the arithmetic rounds to. -/
def lastPlace (significand : Nat) (exponent : ℤ) : ℤ := max (significand.log2 + exponent - 52) (-1074)

theorem targetExponent_eq (significand : Nat) (exponent : ℤ) :
    Format.binary64.targetExponent (totalExponent significand exponent) = lastPlace significand exponent := by
  have bits : ((Format.binary64.mantissaBits : Nat) : ℤ) = 53 := rfl
  have least : Format.binary64.minExponent = -1074 := rfl
  rw [Format.targetExponent, totalExponent, bits, least, lastPlace]
  omega

theorem placed_lastPlace {significand : Nat} (positive : 0 < significand) (exponent : ℤ) :
    Placed (significand * 2 ^ exponent) (lastPlace significand exponent) := by
  have unit := pow_two_pos exponent
  have least : ((2 ^ significand.log2 : ℕ) : ℚ) ≤ significand := by exact_mod_cast Nat.log2_self_le positive.ne'
  have most : (significand : ℚ) < (2 ^ (significand.log2 + 1) : ℕ) := by exact_mod_cast Nat.lt_log2_self
  push_cast at least most
  refine ⟨le_max_right _ _, ?_, ?_⟩
  · calc
      (significand : ℚ) * 2 ^ exponent < 2 ^ (significand.log2 + 1) * 2 ^ exponent := mul_lt_mul_of_pos_right most unit
      _ = 2 ^ (exponent + (significand.log2 + 1 : ℕ)) := (pow_place _ _).symm
      _ ≤ 2 ^ (lastPlace significand exponent + 53) := zpow_le_zpow_right₀ one_le_two (by rw [lastPlace]; omega)
  · rcases le_or_gt (significand.log2 + exponent - 52) (-1074) with low | high
    · exact .inl (max_eq_right low)
    · refine .inr ?_
      have place : lastPlace significand exponent + 52 = exponent + significand.log2 := by rw [lastPlace]; omega
      rw [place, pow_place]
      exact mul_le_mul_of_nonneg_right least unit.le

/-- Digits of a double stay as they are, and one more with zeros is carried. -/
theorem shiftToTargetExponent_digits {digits : Nat} {place : ℤ} (short : digits ≤ 2 ^ 53) (least : -1074 ≤ place) :
    shiftToTargetExponent .binary64 digits place .exact =
      if digits < 2 ^ 53 then (⟨digits, false, false⟩, place) else (⟨2 ^ 52, false, false⟩, place + 1) := by
  unfold shiftToTargetExponent shiftToExponent
  rw [targetExponent_eq]
  split
  · rename_i below
    have bits : digits.log2 ≤ 52 := by
      rcases Nat.eq_zero_or_pos digits with rfl | positive
      · decide
      · exact Nat.le_of_lt_succ ((Nat.log2_lt positive.ne').mpr below)
    have none : (lastPlace digits place - place).toNat = 0 := by
      rw [lastPlace]
      omega
    simp only [none, Nat.cast_zero, add_zero]
    rfl
  · obtain rfl : digits = 2 ^ 53 := by omega
    have single : (lastPlace (2 ^ 53) place - place).toNat = 1 := by
      rw [lastPlace, Nat.log2_two_pow]
      omega
    simp only [single]
    rfl

/-- A positive number is rounded to its last place, to which its significand has to be shifted to the right. -/
theorem roundWithAccuracy_isRounded (sign : Sign) {significand : Nat} {exponent : ℤ} (positive : 0 < significand)
    (long : exponent ≤ lastPlace significand exponent) :
    IsRounded sign (significand * 2 ^ exponent) (roundWithAccuracy .binary64 sign significand exponent .exact) := by
  have placed := placed_lastPlace positive exponent
  obtain ⟨count, place⟩ := Int.le.dest long
  have shift : (lastPlace significand exponent - exponent).toNat = count := by omega
  have same : ((Rounding.halfEven.quotient false significand (2 ^ count) : ℕ) : ℤ) =
      nearestEven (significand * 2 ^ exponent / 2 ^ lastPlace significand exponent) := by
    have unit := pow_two_pos exponent
    rw [← nearestEven_div significand (Nat.two_pow_pos count), ← place, pow_place]
    congr 1
    push_cast
    field_simp
  have nonneg : (0 : ℚ) ≤ significand * 2 ^ exponent := mul_nonneg (Nat.cast_nonneg _) (pow_two_pos exponent).le
  obtain ⟨short, -, -⟩ := placed.digits nonneg same
  refine ⟨_, placed, _, same, ?_⟩
  have first : shiftToTargetExponent .binary64 significand exponent .exact =
      ((⟨significand, false, false⟩ : ExtendedMantissa) >>> count, lastPlace significand exponent) := by
    unfold shiftToTargetExponent shiftToExponent
    simp only [targetExponent_eq, shift, place]
    rfl
  unfold roundWithAccuracy
  simp only [first, roundedMantissa_shift, shiftToTargetExponent_digits short placed.least, carried]
  by_cases below : Rounding.halfEven.quotient false significand (2 ^ count) < 2 ^ 53
  · simp only [if_pos below]
  · have some : ¬ Rounding.halfEven.quotient false significand (2 ^ count) = 0 := by omega
    simp only [if_neg below, dif_neg some]
    rfl

/-- A positive number is rounded to its last place, whatever significand and exponent stand for it. -/
theorem round_isRounded (sign : Sign) {significand : Nat} (exponent : ℤ) (positive : 0 < significand) :
    IsRounded sign (significand * 2 ^ exponent) (UnpackedFloat.round .binary64 sign significand exponent) := by
  have shift : UnpackedFloat.round .binary64 sign significand exponent = roundWithAccuracy .binary64 sign
      (significand * 2 ^ (exponent - lastPlace significand exponent).toNat)
      (exponent - (exponent - lastPlace significand exponent).toNat) .exact := by
    unfold UnpackedFloat.round decreaseExponent
    simp only [targetExponent_eq, Nat.shiftLeft_eq]
  generalize count_eq : (exponent - lastPlace significand exponent).toNat = count at shift
  have log : (significand * 2 ^ count).log2 = significand.log2 + count := by
    refine (Nat.log2_eq_iff (by positivity)).mpr ⟨?_, ?_⟩
    · rw [Nat.pow_add]
      exact Nat.mul_le_mul_right _ (Nat.log2_self_le positive.ne')
    · rw [Nat.add_right_comm, Nat.pow_add]
      exact Nat.mul_lt_mul_of_pos_right Nat.lt_log2_self (Nat.two_pow_pos count)
  have long : exponent - count ≤ lastPlace (significand * 2 ^ count) (exponent - count) := by
    rw [lastPlace, log]
    rw [lastPlace] at count_eq
    omega
  have same : ((significand * 2 ^ count : ℕ) : ℚ) * 2 ^ (exponent - count) = significand * 2 ^ exponent := by
    have split : exponent = exponent - count + count := by omega
    conv_rhs => rw [split, pow_place]
    push_cast
    ring
  rw [shift, ← same]
  exact roundWithAccuracy_isRounded sign (by positivity) long

theorem normalize_represents (significand exponent : ℤ) (zeroSign : Sign)
    (small : |(significand : ℚ) * 2 ^ exponent| ≤ 2 ^ 1023) :
    Represents (significand * 2 ^ exponent)
      (Float.ofModel (.pack (UnpackedFloat.normalize .binary64 significand exponent zeroSign))) := by
  have size (n : ℕ) (same : |significand| = n) : (n : ℚ) * 2 ^ exponent ≤ 2 ^ 1023 := by
    rw [abs_mul, abs_of_pos (pow_two_pos exponent), ← Int.cast_abs, same] at small
    exact small
  unfold UnpackedFloat.normalize
  rcases lt_trichotomy significand 0 with negative | rfl | positive
  · obtain ⟨n, rfl⟩ : ∃ n : ℕ, significand = -n := ⟨significand.natAbs, by omega⟩
    have rounded := round_isRounded .negative exponent (show 0 < n by omega)
    have represents := rounded.represents unpack_ofModel
      (mul_nonneg (Nat.cast_nonneg _) (pow_two_pos exponent).le) (size n (by simp))
    rw [compare_lt_iff_lt.mpr negative]
    simpa [Sign.apply] using represents
  · rw [compare_eq_iff_eq.mpr rfl, Int.cast_zero, zero_mul]
    exact represents_ofModel (u := .zero zeroSign) trivial rfl
  · obtain ⟨n, rfl⟩ := Int.eq_ofNat_of_zero_le positive.le
    have rounded := round_isRounded .positive exponent (show 0 < n by omega)
    have represents := rounded.represents unpack_ofModel
      (mul_nonneg (Nat.cast_nonneg _) (pow_two_pos exponent).le) (size n (by simp))
    rw [compare_gt_iff_gt.mpr positive]
    simpa [Sign.apply] using represents

/-! ### Arithmetic -/

theorem IsDouble.cases {u : UnpackedFloat} (double : IsDouble u) (finite : u.isFinite = true) :
    (∃ sign, u = .zero sign) ∨ ∃ sign significand exponent positive,
      u = .finite sign significand exponent positive ∧ Canonical significand exponent := by
  cases u with
  | notANumber => cases finite
  | infinity => cases finite
  | zero sign => exact .inl ⟨sign, rfl⟩
  | finite sign significand exponent positive => exact .inr ⟨sign, significand, exponent, positive, rfl, double.1⟩

theorem isDouble (x : Float) : IsDouble x.toModel.unpack := isDouble_unpack _

theorem abs_value_lt {x : Float} (finite : x.isFinite = true) : |value x| < 2 ^ 1024 := by
  have double := isDouble x
  have some : x.toModel.unpack.isFinite = true := finite
  rw [value]
  cases parts : x.toModel.unpack with
  | notANumber => rw [parts] at some; cases some
  | infinity => rw [parts] at some; cases some
  | zero sign =>
    rw [unpackedValue_zero, abs_zero]
    exact pow_pos two_pos 1024
  | finite sign n place positive =>
    rw [parts] at double
    obtain ⟨⟨short, -, -⟩, small⟩ := double
    have digits : |((sign.apply n : ℤ) : ℚ)| < 2 ^ 53 := by
      rw [← Int.cast_abs]
      cases sign <;> simp only [Sign.apply, abs_neg, Nat.abs_cast] <;> exact_mod_cast short
    calc
      |(sign.apply n : ℚ) * 2 ^ place| = |(sign.apply n : ℚ)| * 2 ^ place := by
        rw [abs_mul, abs_of_pos (pow_two_pos place)]
      _ < 2 ^ 53 * 2 ^ place := mul_lt_mul_of_pos_right digits (pow_two_pos place)
      _ = 2 ^ (place + 53) := (pow_place 53 place).symm
      _ ≤ 2 ^ (1024 : ℤ) := zpow_le_zpow_right₀ one_le_two (by omega)

theorem apply_mul (sign other : Sign) : (sign * other).apply 1 = sign.apply 1 * other.apply 1 := by
  cases sign <;> cases other <;> rfl

theorem abs_apply_one (sign : Sign) : |sign.apply 1| = 1 := by
  cases sign <;> rfl

section Unpacked

variable {u v : UnpackedFloat} (left : IsDouble u) (right : IsDouble v) (finite : u.isFinite = true)
  (bounded : v.isFinite = true)
include left right finite bounded

theorem mul_unpacked (small : |unpackedValue u * unpackedValue v| ≤ 2 ^ 1023) :
    Represents (unpackedValue u * unpackedValue v) (Float.ofModel (.pack (UnpackedFloat.mul .binary64 u v))) := by
  rcases left.cases finite with ⟨sign, rfl⟩ | ⟨sign, n, place, some, rfl, canonical⟩
  · rw [unpackedValue_zero, zero_mul]
    rcases right.cases bounded with ⟨other, rfl⟩ | ⟨other, m, unit, more, rfl, -⟩
    · exact represents_ofModel (u := .zero (sign * other)) trivial rfl
    · exact represents_ofModel (u := .zero (sign * other)) trivial rfl
  rcases right.cases bounded with ⟨other, rfl⟩ | ⟨other, m, unit, more, rfl, short⟩
  · rw [unpackedValue_zero, mul_zero]
    exact represents_ofModel (u := .zero (sign * other)) trivial rfl
  have product : unpackedValue (.finite sign n place some) * unpackedValue (.finite other m unit more) =
      (sign * other).apply 1 * ((n * m : ℕ) * 2 ^ (place + unit)) := by
    rw [unpackedValue, unpackedValue, apply_eq sign, apply_eq other, apply_mul, zpow_add₀ two_ne_zero]
    push_cast
    ring
  have nonneg : (0 : ℚ) ≤ (n * m : ℕ) * 2 ^ (place + unit) :=
    mul_nonneg (Nat.cast_nonneg _) (pow_two_pos _).le
  have long : place + unit ≤ lastPlace (n * m) (place + unit) := by
    have bits (enough : 2 ^ 52 ≤ n * m) : 52 ≤ (n * m).log2 := (Nat.le_log2 (Nat.mul_pos some more).ne').mpr enough
    rw [lastPlace]
    rcases canonical.full with rfl | first
    · rcases short.full with rfl | second
      · omega
      · have := bits (second.trans (Nat.le_mul_of_pos_left m some))
        omega
    · have := bits (first.trans (Nat.le_mul_of_pos_right n more))
      omega
  rw [product, abs_mul, ← Int.cast_abs, abs_apply_one, Int.cast_one, one_mul, abs_of_nonneg nonneg] at small
  rw [product]
  exact (roundWithAccuracy_isRounded (sign * other) (Nat.mul_pos some more) long).represents
    unpack_ofModel nonneg small

omit left right finite bounded in
theorem decreaseExponent_eq (sign : Sign) (n : ℕ) {place unit : ℤ} (lower : unit ≤ place) :
    ((sign.apply (decreaseExponent n place unit).1 : ℤ) : ℚ) * 2 ^ unit = sign.apply n * 2 ^ place := by
  obtain ⟨bits, rfl⟩ := Int.le.dest lower
  have count : (unit + bits - unit).toNat = bits := by omega
  rw [apply_eq, apply_eq sign n, decreaseExponent, pow_place]
  simp only [count, Nat.shiftLeft_eq]
  push_cast
  ring

theorem add_unpacked (small : |unpackedValue u + unpackedValue v| ≤ 2 ^ 1023) :
    Represents (unpackedValue u + unpackedValue v) (Float.ofModel (.pack (UnpackedFloat.add .binary64 u v))) := by
  rcases left.cases finite with ⟨sign, rfl⟩ | ⟨sign, n, place, some, rfl, -⟩
  · rw [unpackedValue_zero, zero_add]
    rcases right.cases bounded with ⟨other, rfl⟩ | ⟨other, m, unit, more, rfl, -⟩
    · have zeros : ∃ result, UnpackedFloat.add .binary64 (.zero sign) (.zero other) = .zero result := by
        cases sign <;> cases other <;> exact ⟨_, rfl⟩
      obtain ⟨result, same⟩ := zeros
      rw [same]
      exact represents_ofModel (u := .zero result) trivial rfl
    · exact represents_ofModel right rfl
  rcases right.cases bounded with ⟨other, rfl⟩ | ⟨other, m, unit, more, rfl, -⟩
  · rw [unpackedValue_zero, add_zero]
    exact represents_ofModel left rfl
  have sum : unpackedValue (.finite sign n place some) + unpackedValue (.finite other m unit more) =
      ((sign.apply (decreaseExponent n place (min place unit)).1 +
        other.apply (decreaseExponent m unit (min place unit)).1 : ℤ) : ℚ) * 2 ^ min place unit := by
    rw [unpackedValue, unpackedValue, ← decreaseExponent_eq sign n (min_le_left place unit),
      ← decreaseExponent_eq other m (min_le_right place unit)]
    push_cast
    ring
  rw [sum] at small ⊢
  exact normalize_represents _ _ _ small

end Unpacked

theorem neg_apply (sign : Sign) (n : ℕ) : (-sign).apply n = -sign.apply n := by
  cases sign
  · exact (neg_neg (n : ℤ)).symm
  · rfl

theorem unpackedValue_neg (u : UnpackedFloat) : unpackedValue u.neg = -unpackedValue u := by
  cases u with
  | finite sign n place positive =>
    simp only [UnpackedFloat.neg, unpackedValue, neg_apply]
    push_cast
    ring
  | _ => exact neg_zero.symm

theorem sub_eq_add_opposite (u v : UnpackedFloat) :
    UnpackedFloat.sub .binary64 u v = UnpackedFloat.add .binary64 u v.neg := by
  cases u with
  | finite sign n place some =>
    cases v with
    | finite other m unit more =>
      simp only [UnpackedFloat.sub, UnpackedFloat.add, UnpackedFloat.neg, neg_apply, sub_eq_add_neg]
    | _ => rfl
  | _ => cases v <;> rfl

variable {x y : Float} (left : x.isFinite = true) (right : y.isFinite = true)
include left right

theorem mul_represents (small : |value x * value y| ≤ 2 ^ 1023) : Represents (value x * value y) (x * y) :=
  mul_unpacked (isDouble x) (isDouble y) left right small

theorem add_represents (small : |value x + value y| ≤ 2 ^ 1023) : Represents (value x + value y) (x + y) :=
  add_unpacked (isDouble x) (isDouble y) left right small

theorem sub_represents (small : |value x - value y| ≤ 2 ^ 1023) : Represents (value x - value y) (x - y) := by
  have double : IsDouble y.toModel.unpack.neg := by
    have kept := isDouble y
    cases parts : y.toModel.unpack <;> rw [parts] at kept <;> exact kept
  have bounded : y.toModel.unpack.neg.isFinite = true := by
    have finite : y.toModel.unpack.isFinite = true := right
    cases parts : y.toModel.unpack <;> rw [parts] at finite <;> exact finite
  have sum := add_unpacked (isDouble x) double left bounded
  rw [unpackedValue_neg, ← sub_eq_add_neg, ← sub_eq_add_opposite] at sum
  exact sum small

/-! ### Comparisons -/

omit left right in
/-- Of two doubles with their significands as long as they can be, the one with the smaller exponent is less. -/
theorem Canonical.lt {n m : ℕ} {place unit : ℤ} (first : Canonical n place) (second : Canonical m unit)
    (less : place < unit ∨ place = unit ∧ n < m) : (n : ℚ) * 2 ^ place < m * 2 ^ unit := by
  rcases less with lower | ⟨rfl, less⟩
  · have long : ((2 ^ 52 : ℕ) : ℚ) ≤ m := by
      have least := first.least
      exact_mod_cast second.full.resolve_left (by omega)
    have short : (n : ℚ) < (2 ^ 53 : ℕ) := by exact_mod_cast first.short
    push_cast at long short
    calc
      (n : ℚ) * 2 ^ place < 2 ^ 53 * 2 ^ place := mul_lt_mul_of_pos_right short (pow_two_pos place)
      _ = 2 ^ (place + 53) := (pow_place 53 place).symm
      _ ≤ 2 ^ (unit + 52) := zpow_le_zpow_right₀ one_le_two (by omega)
      _ = 2 ^ 52 * 2 ^ unit := pow_place 52 unit
      _ ≤ m * 2 ^ unit := mul_le_mul_of_nonneg_right long (pow_two_pos unit).le
  · exact mul_lt_mul_of_pos_right (by exact_mod_cast less) (pow_two_pos place)

theorem value_lt_of_lt (less : x < y) : value x < value y := by
  have below : x.toModel < y.toModel := of_decide_eq_true less
  have compared : UnpackedFloat.compare x.toModel.unpack y.toModel.unpack = some .lt := beq_iff_eq.mp below
  have scaled {n : ℕ} (place : ℤ) (some : 0 < n) : (0 : ℚ) < n * 2 ^ place :=
    mul_pos (Nat.cast_pos.mpr some) (pow_two_pos place)
  unfold value
  rcases (isDouble x).cases left with ⟨sign, zero⟩ | ⟨sign, n, place, some, parts, canonical⟩
  · rw [zero] at compared ⊢
    rcases (isDouble y).cases right with ⟨other, zero⟩ | ⟨other, m, unit, more, parts, -⟩
    · rw [zero] at compared
      cases compared
    · rw [parts] at compared ⊢
      cases other with
      | negative => cases compared
      | positive => exact scaled unit more
  rcases (isDouble y).cases right with ⟨other, zero⟩ | ⟨other, m, unit, more, others, short⟩
  · rw [parts, zero] at compared ⊢
    cases sign with
    | negative => simpa [unpackedValue, Sign.apply] using scaled place some
    | positive => cases compared
  rw [parts, others] at compared ⊢
  cases sign with
  | negative =>
    cases other with
    | negative =>
      have reversed := Ordering.swap_eq_lt.mp (Option.some.inj compared)
      rw [Ordering.then_eq_gt, compare_gt_iff_gt, compare_eq_iff_eq, compare_gt_iff_gt] at reversed
      simpa [unpackedValue, Sign.apply] using short.lt canonical (reversed.imp id (And.imp_left Eq.symm))
    | positive =>
      have first := scaled place some
      have second := scaled unit more
      simp only [unpackedValue, Sign.apply]
      push_cast
      linarith
  | positive =>
    cases other with
    | negative => cases compared
    | positive =>
      have ordered := Option.some.inj compared
      rw [Ordering.then_eq_lt, compare_lt_iff_lt, compare_eq_iff_eq, compare_lt_iff_lt] at ordered
      exact canonical.lt short ordered

end Reckoner.Binary64

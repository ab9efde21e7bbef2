import Reckoner.Proofs.Binary64.Faithful

/-! Doubles of ratios. The double that is found for a ratio is the ratio rounded faithfully; whole numbers of at most
53 bits are their own doubles. -/

namespace Reckoner.Binary64

open Float.Model (Format UnpackedFloat)
open Float.Model.UnpackedFloat
open Decimal (nearestEven nearestEven_div nearestEven_neg)

/-! ### Assembled doubles -/

theorem unpack_ofBits (bits : UInt64) : (Float.ofBits bits).toModel.unpack = unpack .binary64 bits.toBitVec :=
  unpack_pack (isDouble_unpack _)

/-- The sign of a flag. -/
def signOf (negative : Bool) : Sign := if negative then .negative else .positive

theorem fields_ofNat (negative : Bool) {field fraction : Nat} (narrow : field < 2048) (short : fraction < 2 ^ 52) :
    let bits := (UInt64.ofNat ((if negative then 0x8000000000000000 else 0) + field <<< 52 + fraction)).toBitVec
    (@unpackExponent .binary64 bits).toNat = field ∧ (@unpackMantissa .binary64 bits).toNat = fraction ∧
      Sign.ofBitVec (@unpackSign .binary64 bits) = signOf negative := by
  intro bits
  have shifted : field <<< 52 = field * 2 ^ 52 := Nat.shiftLeft_eq field 52
  have total : bits.toNat = (if negative then 2 ^ 63 else 0) + field * 2 ^ 52 + fraction := by
    have small : (if negative then 2 ^ 63 else 0) + field * 2 ^ 52 + fraction < 2 ^ 64 := by
      split <;> omega
    rw [← Nat.mod_eq_of_lt small, ← shifted]
    exact BitVec.toNat_ofNat _ _
  clear_value bits
  have sign := unpackSign_toNat bits
  rw [unpackExponent_toNat, unpackMantissa_toNat]
  rw [total] at sign ⊢
  cases negative with
  | false =>
    simp only [Bool.false_eq_true, if_false, Nat.zero_add] at sign ⊢
    have bit : @unpackSign .binary64 bits = 0#1 :=
      BitVec.eq_of_toNat_eq (sign.trans (Nat.div_eq_of_lt (by omega)))
    exact ⟨by omega, by omega, by rw [bit]; rfl⟩
  | true =>
    simp only [if_true] at sign ⊢
    have first : (2 ^ 63 + field * 2 ^ 52 + fraction) / 2 ^ 63 = 1 := by omega
    have bit : @unpackSign .binary64 bits = 1#1 := BitVec.eq_of_toNat_eq (sign.trans first)
    exact ⟨by omega, by omega, by rw [bit]; rfl⟩

theorem unpack_assemble_of_lt (negative : Bool) {digits : Nat} {place : ℤ} (canonical : Canonical digits place)
    (small : place ≤ 971) :
    (assemble negative digits place).toModel.unpack = carried (signOf negative) digits place := by
  obtain ⟨short, least, full⟩ := canonical
  generalize narrow : (if digits < 2 ^ 52 then 0 else (place + 1075).toNat) = field
  have below : field < 2047 := by
    rw [← narrow]
    split <;> omega
  have put : assemble negative digits place =
      Float.ofBits (UInt64.ofNat ((if negative then 0x8000000000000000 else 0) + field <<< 52 + digits % 2 ^ 52)) := by
    have apart : ¬ digits = 2 * leadingBit := short.ne
    have inside : ¬ 0x7ff ≤ field := by omega
    have bits : leadingBit = 2 ^ 52 := rfl
    unfold assemble
    simp only [if_neg apart]
    simp only [bits, narrow, if_neg inside]
    rfl
  obtain ⟨exponent, fraction, sign⟩ :=
    fields_ofNat negative (below.trans (by decide)) (Nat.mod_lt digits (Nat.two_pow_pos 52))
  rw [put, unpack_ofBits, carried]
  by_cases normal : digits < 2 ^ 52
  · rw [if_pos normal] at narrow
    rw [← narrow] at exponent fraction sign ⊢
    obtain rfl := full.resolve_right (Nat.not_le.mpr normal)
    rw [Nat.mod_eq_of_lt normal] at exponent fraction sign ⊢
    by_cases zero : digits = 0
    · rw [dif_pos zero, unpack_of_zero exponent (fraction.trans zero), sign]
    · rw [dif_neg zero, if_pos short, unpack_of_subnormal exponent (fraction.trans_ne zero)]
      simp only [sign, fraction]
  · rw [if_neg normal] at narrow
    rw [dif_neg (show ¬ digits = 0 by omega), if_pos short, unpack_of_normal (by omega) (by omega)]
    simp only [sign, UnpackedFloat.finite.injEq, exponent, fraction, true_and]
    omega

theorem assemble_carried (negative : Bool) (exponent : Int) :
    assemble negative (2 * leadingBit) exponent = assemble negative leadingBit (exponent + 1) := by
  have apart : ¬ leadingBit = 2 * leadingBit := by decide
  simp only [assemble, if_neg apart, if_true]

theorem unpack_assemble (negative : Bool) {digits : Nat} {place : ℤ} (short : digits ≤ 2 ^ 53) (least : -1074 ≤ place)
    (full : place = -1074 ∨ 2 ^ 52 ≤ digits) (double : IsDouble (carried (signOf negative) digits place)) :
    (assemble negative digits place).toModel.unpack = carried (signOf negative) digits place := by
  rcases short.lt_or_eq with below | rfl
  · refine unpack_assemble_of_lt negative ⟨below, least, full⟩ ?_
    rcases full with rfl | enough
    · decide
    · rw [carried, dif_neg (show ¬ digits = 0 by omega), if_pos below] at double
      exact double.2
  · have moved : assemble negative (2 ^ 53) place = assemble negative leadingBit (place + 1) :=
      assemble_carried negative place
    rw [moved, unpack_assemble_of_lt negative ⟨by decide, by omega, .inr (by decide)⟩ double.2]
    rfl

/-! ### Ratios -/

theorem ratio_bounds {n d : Nat} (positive : 0 < n) (some : 0 < d) :
    (2 : ℚ) ^ ((n.log2 : ℤ) - d.log2 - 1) ≤ n / d ∧ (n : ℚ) / d < 2 ^ ((n.log2 : ℤ) - d.log2 + 1) := by
  have bounds {m : Nat} (positive : 0 < m) : (2 : ℚ) ^ (m.log2 : ℤ) ≤ m ∧ (m : ℚ) < 2 ^ ((m.log2 : ℤ) + 1) := by
    have low : ((2 ^ m.log2 : ℕ) : ℚ) ≤ m := by exact_mod_cast Nat.log2_self_le positive.ne'
    have high : (m : ℚ) < (2 ^ (m.log2 + 1) : ℕ) := by exact_mod_cast Nat.lt_log2_self
    exact ⟨by exact_mod_cast low, by exact_mod_cast high⟩
  obtain ⟨low, high⟩ := bounds positive
  obtain ⟨least, most⟩ := bounds some
  have divisor : (0 : ℚ) < d := Nat.cast_pos.mpr some
  constructor
  · rw [le_div_iff₀ divisor]
    calc
      (2 : ℚ) ^ ((n.log2 : ℤ) - d.log2 - 1) * d ≤ 2 ^ ((n.log2 : ℤ) - d.log2 - 1) * 2 ^ ((d.log2 : ℤ) + 1) :=
        mul_le_mul_of_nonneg_left most.le (pow_two_pos _).le
      _ = 2 ^ (n.log2 : ℤ) := by rw [← zpow_add₀ two_ne_zero]; congr 1; ring
      _ ≤ n := low
  · rw [div_lt_iff₀ divisor]
    calc
      (n : ℚ) < 2 ^ ((n.log2 : ℤ) + 1) := high
      _ = 2 ^ ((n.log2 : ℤ) - d.log2 + 1) * 2 ^ (d.log2 : ℤ) := by rw [← zpow_add₀ two_ne_zero]; congr 1; ring
      _ ≤ 2 ^ ((n.log2 : ℤ) - d.log2 + 1) * d := mul_le_mul_of_nonneg_left least (pow_two_pos _).le

theorem signed_eq (negative : Bool) (q : ℚ) :
    ((signOf negative).apply 1 : ℚ) * q = if negative then -q else q := by
  cases negative <;> simp [signOf, Sign.apply]

/-- The digits of a positive ratio are found at its last place, from a guess that is off by at most one. -/
theorem ofRatio_placed (negative : Bool) {n d : Nat} (positive : 0 < n) (some : 0 < d)
    (small : (n : ℚ) / d ≤ 2 ^ 1023) :
    ∃ place, Placed ((n : ℚ) / d) place ∧ ofRatio negative n d = assemble negative
      (Rounding.halfEven.quotient false (scaleRatio n d place).1 (scaleRatio n d place).2) place := by
  obtain ⟨low, high⟩ := ratio_bounds positive some
  generalize guessed : (n.log2 : ℤ) - d.log2 = guess at low high
  obtain ⟨unit, scaled⟩ := scaleRatio_eq n some guess
  generalize chosen : (if (scaleRatio n d guess).1 < (scaleRatio n d guess).2 then guess - 1 else guess) = top
  have bounds : (2 : ℚ) ^ top ≤ n / d ∧ (n : ℚ) / d < 2 ^ (top + 1) := by
    have less : (scaleRatio n d guess).1 < (scaleRatio n d guess).2 ↔ (n : ℚ) / d < 2 ^ guess := by
      rw [← div_lt_one (pow_two_pos guess), ← scaled, div_lt_one (Nat.cast_pos.mpr unit), Nat.cast_lt]
    rw [← chosen]
    split
    · rename_i below
      rw [sub_add_cancel]
      exact ⟨low, less.mp below⟩
    · rename_i above
      exact ⟨not_lt.mp (less.not.mp above), high⟩
  have near : top ≤ 1023 := by
    have power : (2 : ℚ) ^ top ≤ 2 ^ (1023 : ℤ) := bounds.1.trans small
    exact (zpow_le_zpow_iff_right₀ one_lt_two).mp power
  generalize rounded : max (top - 52) (-1074) = place
  refine ⟨place, ⟨rounded ▸ le_max_right _ _, ?_, ?_⟩, ?_⟩
  · exact bounds.2.trans_le (zpow_le_zpow_right₀ one_le_two (by omega))
  · rcases le_or_gt (top - 52) (-1074) with tiny | normal
    · exact .inl (by omega)
    · have same : place + 52 = top := by omega
      exact .inr (same ▸ bounds.1)
  · have opposite : Rounding.halfEven.quotient negative (scaleRatio n d place).1 (scaleRatio n d place).2 =
        Rounding.halfEven.quotient false (scaleRatio n d place).1 (scaleRatio n d place).2 := by
      cases negative
      · rfl
      · exact Rounding.quotient_opposite .halfEven _ _
    simp only [ofRatio, if_neg positive.ne', guessed, chosen, rounded, opposite]
    rw [if_neg (by omega)]

/-- The double that is found for a ratio is the ratio rounded to its last place. -/
theorem ofRatio_isRounded (negative : Bool) (n : Nat) {d : Nat} (some : 0 < d) (small : (n : ℚ) / d ≤ 2 ^ 1023) :
    ∃ u, IsRounded (signOf negative) (n / d) u ∧ (IsDouble u → (ofRatio negative n d).toModel.unpack = u) := by
  rcases Nat.eq_zero_or_pos n with rfl | positive
  · have none : nearestEven 0 = 0 := by
      rw [nearestEven]
      norm_num
    refine ⟨.zero (signOf negative), ⟨-1074, ⟨le_rfl, ?_, .inl rfl⟩, 0, ?_, rfl⟩, ?_⟩
    · rw [Nat.cast_zero, zero_div]
      exact pow_two_pos _
    · rw [Nat.cast_zero, Nat.cast_zero, zero_div, zero_div, none]
    · intro _
      rw [ofRatio, if_pos rfl]
      cases negative <;> rfl
  · obtain ⟨place, placed, found⟩ := ofRatio_placed negative positive some small
    obtain ⟨divisor, quotient⟩ := scaleRatio_eq n some place
    have digits := (nearestEven_div (scaleRatio n d place).1 divisor).symm
    rw [quotient] at digits
    obtain ⟨short, full, -⟩ := placed.digits (div_nonneg (Nat.cast_nonneg n) (Nat.cast_nonneg d)) digits
    refine ⟨_, ⟨place, placed, _, digits, rfl⟩, ?_⟩
    rw [found]
    exact unpack_assemble negative short placed.least full

/-- The nearest double of a ratio is the ratio rounded faithfully. -/
theorem ofRatio_represents (negative : Bool) (n : Nat) {d : Nat} (some : 0 < d) (small : (n : ℚ) / d ≤ 2 ^ 1023) :
    Represents (if negative then -((n : ℚ) / d) else n / d) (ofRatio negative n d) := by
  obtain ⟨u, rounded, unpacked⟩ := ofRatio_isRounded negative n some small
  rw [← signed_eq]
  exact rounded.represents unpacked (div_nonneg (Nat.cast_nonneg n) (Nat.cast_nonneg d)) small

theorem value_ofRatio_mono {n d m e : Nat} (some : 0 < d) (other : 0 < e) (ordered : (n : ℚ) / d ≤ m / e)
    (small : (m : ℚ) / e ≤ 2 ^ 1023) : value (ofRatio false n d) ≤ value (ofRatio false m e) := by
  have nonneg (k l : Nat) : (0 : ℚ) ≤ k / l := div_nonneg (Nat.cast_nonneg k) (Nat.cast_nonneg l)
  obtain ⟨u, first, unpacked⟩ := ofRatio_isRounded false n some (ordered.trans small)
  obtain ⟨v, second, parts⟩ := ofRatio_isRounded false m other small
  obtain ⟨-, place, placed, left⟩ := first.value_eq unpacked (nonneg n d) (ordered.trans small)
  obtain ⟨-, unit, situated, right⟩ := second.value_eq parts (nonneg m e) small
  rw [left, right]
  simpa [signOf, Sign.apply] using placed.nearest_le situated (nonneg n d) ordered

/-- The nearest double of a whole number is the number rounded faithfully. -/
theorem ofInt_represents {n : Int} (small : |(n : ℚ)| ≤ 2 ^ 1023) : Represents n (ofInt n) := by
  have size : ((n.natAbs : ℕ) : ℚ) = |(n : ℚ)| := by rw [Nat.cast_natAbs, Int.cast_abs]
  have represents := ofRatio_represents (decide (n < 0)) n.natAbs Nat.one_pos (by simpa [size] using small)
  have same : (if decide (n < 0) then -(|(n : ℚ)| / (1 : ℕ)) else |(n : ℚ)| / (1 : ℕ)) = n := by
    rw [Nat.cast_one, div_one]
    rcases lt_or_ge n 0 with negative | positive
    · rw [if_pos (decide_eq_true negative), abs_of_neg (by exact_mod_cast negative), neg_neg]
    · rw [if_neg (by simpa using positive), abs_of_nonneg (by exact_mod_cast positive)]
  rw [size, same] at represents
  exact represents

theorem inRange_of_short {q : ℚ} (short : |q| ≤ 2 ^ 53) : |q| ≤ 2 ^ 1023 :=
  short.trans (pow_le_pow_right₀ one_le_two (by decide))

theorem value_ofInt {n : Int} (short : |n| ≤ 2 ^ 53) : (ofInt n).isFinite = true ∧ value (ofInt n) = n := by
  obtain ⟨finite, faithful⟩ := ofInt_represents (inRange_of_short (q := n) (by exact_mod_cast short))
  exact ⟨finite, faithful.eq_of_fits (fits_intCast short)⟩

end Reckoner.Binary64

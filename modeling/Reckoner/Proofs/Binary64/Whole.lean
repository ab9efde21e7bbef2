import Reckoner.Proofs.Binary64.Ratios

/-! Whole numbers as doubles. The nearest double of a whole number is infinite exactly if the number is at least as
far from zero as the middle between the greatest double and the next power of two. -/

namespace Reckoner.Binary64

open Float.Model (UnpackedFloat)

/-! ### Significands -/

theorem isInf_signedInfinity (negative : Bool) : (signedInfinity negative).isInf = true := by
  cases negative <;> rfl

theorem isInf_assemble_of_lt (negative : Bool) {significand : Nat} {exponent : Int} (least : leadingBit ≤ significand)
    (most : significand < 2 * leadingBit) (normal : -1074 ≤ exponent) :
    (assemble negative significand exponent).isInf = true ↔ 971 < exponent := by
  rcases lt_or_ge 971 exponent with large | small
  · have infinite : assemble negative significand exponent = signedInfinity negative := by
      have apart : ¬ significand = 2 * leadingBit := most.ne
      have enough : ¬ significand < leadingBit := Nat.not_lt.mpr least
      have beyond : 0x7ff ≤ (exponent + 1075).toNat := by omega
      simp only [assemble, if_neg apart, if_neg enough, if_pos beyond]
    rw [infinite]
    exact iff_of_true (isInf_signedInfinity negative) large
  · have finite : (assemble negative significand exponent).isInf = false := by
      have parts := unpack_assemble_of_lt negative ⟨most, normal, .inr least⟩ small
      exact (congrArg UnpackedFloat.isInf parts).trans (isInf_carried _ _ _)
    rw [finite]
    exact iff_of_false Bool.false_ne_true (not_lt.mpr small)

/-- What is assembled is infinite exactly if it is a power of two beyond the exponents or more. -/
theorem isInf_assemble (negative : Bool) {significand : Nat} {exponent : Int} (least : leadingBit ≤ significand)
    (most : significand ≤ 2 * leadingBit) (normal : -1074 ≤ exponent) :
    (assemble negative significand exponent).isInf = true ↔
      971 < exponent ∨ exponent = 971 ∧ significand = 2 * leadingBit := by
  rcases Nat.lt_or_eq_of_le most with below | rfl
  · rw [isInf_assemble_of_lt negative least below normal]
    omega
  · rw [assemble_carried, isInf_assemble_of_lt negative le_rfl (by decide) (by omega)]
    omega

/-- A number just below a power of two is rounded up to it from the middle below it on. -/
theorem quotient_eq_succ (negative : Bool) {n : Nat} (half top : Nat) (positive : 0 < half) (odd : top % 2 = 1)
    (below : n < 2 * half * (top + 1)) :
    Rounding.halfEven.quotient negative n (2 * half) = top + 1 ↔ 2 * half * top + half ≤ n := by
  have parts := Nat.div_add_mod n (2 * half)
  have rest := Nat.mod_lt n (show 0 < 2 * half by omega)
  have bounds := Rounding.quotient_bounds .halfEven negative n (2 * half)
  have most : n / (2 * half) ≤ top := Nat.lt_succ_iff.mp (Nat.div_lt_of_lt_mul below)
  rcases Nat.lt_or_eq_of_le most with less | same
  · have next : 2 * half * (n / (2 * half) + 1) ≤ 2 * half * top := Nat.mul_le_mul_left _ less
    rw [Nat.mul_add, Nat.mul_one] at next
    generalize Rounding.halfEven.quotient negative n (2 * half) = rounded at bounds
    constructor <;> intro <;> omega
  · unfold Rounding.quotient Rounding.goesUp
    simp only [same, odd, Bool.or_eq_true, decide_eq_true_eq, Bool.and_eq_true, beq_iff_eq, and_true]
    rw [same] at parts
    split <;> omega

/-! ### Whole numbers -/

theorem ofRatio_whole (negative : Bool) {n : Nat} (positive : n ≠ 0) :
    ofRatio negative n 1 =
      if 1100 < n.log2 then signedInfinity negative
      else assemble negative
        (Rounding.halfEven.quotient negative (n * 2 ^ (52 - n.log2)) (2 ^ (n.log2 - 52))) (n.log2 - 52) := by
  have power : 2 ^ n.log2 ≤ n := Nat.log2_self_le positive
  have one : Nat.log2 1 = 0 := by decide
  have first : scaleRatio n 1 ((n.log2 : Int) - (0 : Nat)) = (n, 2 ^ n.log2) := by
    rw [scaleRatio, if_pos (by omega), Nat.shiftLeft_eq, Nat.one_mul]
    rfl
  have second : scaleRatio n 1 ((n.log2 : Int) - 52) = (n * 2 ^ (52 - n.log2), 2 ^ (n.log2 - 52)) := by
    rw [scaleRatio]
    split
    · rename_i long
      have none : 52 - n.log2 = 0 := by omega
      have places : ((n.log2 : Int) - 52).toNat = n.log2 - 52 := by omega
      rw [none, places, Nat.shiftLeft_eq, Nat.one_mul, Nat.pow_zero, Nat.mul_one]
    · have none : n.log2 - 52 = 0 := by omega
      have places : (-((n.log2 : Int) - 52)).toNat = 52 - n.log2 := by omega
      rw [none, places, Nat.shiftLeft_eq, Nat.pow_zero]
  have top : max ((n.log2 : Int) - 52) (-1074) = n.log2 - 52 := by omega
  simp only [ofRatio, if_neg positive, one, first, if_neg (Nat.not_lt.mpr power)]
  rw [Nat.cast_zero, sub_zero, top, second]
  exact if_congr (by omega) rfl rfl

/-- The least whole number whose nearest double is infinite: the middle between the greatest double and the next power
of two. -/
def overflowBound : Nat := 2 ^ 1024 - 2 ^ 970

theorem overflowBound_le : overflowBound ≤ 2 ^ 1024 := Nat.sub_le _ _

theorem le_overflowBound : 2 ^ 1023 ≤ overflowBound := by
  have half : (2 : Nat) ^ 970 ≤ 2 ^ 1023 := pow_le_pow_right₀ one_le_two (by decide)
  rw [overflowBound, pow_succ 2 1023]
  omega

theorem significand_bounds (negative : Bool) {n : Nat} (positive : n ≠ 0) :
    leadingBit ≤ Rounding.halfEven.quotient negative (n * 2 ^ (52 - n.log2)) (2 ^ (n.log2 - 52)) ∧
      Rounding.halfEven.quotient negative (n * 2 ^ (52 - n.log2)) (2 ^ (n.log2 - 52)) ≤ 2 * leadingBit := by
  have least : 2 ^ n.log2 ≤ n := Nat.log2_self_le positive
  have most : n < 2 ^ (n.log2 + 1) := Nat.lt_log2_self
  obtain ⟨low, high⟩ := Rounding.quotient_bounds .halfEven negative (n * 2 ^ (52 - n.log2)) (2 ^ (n.log2 - 52))
  have unit : 0 < 2 ^ (n.log2 - 52) := Nat.pow_pos (by decide)
  have aligned (bits : Nat) : 2 ^ (52 + bits) * 2 ^ (n.log2 - 52) = 2 ^ (n.log2 + bits) * 2 ^ (52 - n.log2) := by
    rw [← Nat.pow_add, ← Nat.pow_add]
    congr 1
    omega
  have above : leadingBit ≤ n * 2 ^ (52 - n.log2) / 2 ^ (n.log2 - 52) := by
    rw [Nat.le_div_iff_mul_le unit]
    exact (aligned 0).le.trans (Nat.mul_le_mul_right _ least)
  have below : n * 2 ^ (52 - n.log2) / 2 ^ (n.log2 - 52) < 2 * leadingBit := by
    rw [Nat.div_lt_iff_lt_mul unit]
    exact (Nat.mul_lt_mul_of_pos_right most (Nat.pow_pos (by decide))).trans_eq (aligned 1).symm
  omega

/-- A number with the greatest exponent is infinite if it is rounded up to a power of two. -/
theorem quotient_greatest (negative : Bool) {n : Nat} (same : n.log2 = 1023) :
    Rounding.halfEven.quotient negative (n * 2 ^ (52 - n.log2)) (2 ^ (n.log2 - 52)) = 2 * leadingBit ↔
      overflowBound ≤ n := by
  have most : n < 2 ^ (n.log2 + 1) := Nat.lt_log2_self
  -- The numbers have units of twice the half, and the greatest significand is the top.
  obtain ⟨half, halfOf⟩ : ∃ half, half = 2 ^ 970 := ⟨_, rfl⟩
  obtain ⟨top, topOf⟩ : ∃ top, top + 1 = 2 * leadingBit := ⟨2 * leadingBit - 1, rfl⟩
  have bits : 2 * leadingBit = 2 ^ 53 := rfl
  have unit : 2 ^ (n.log2 - 52) = 2 * half := by
    have next : n.log2 - 52 = 970 + 1 := by omega
    calc
      2 ^ (n.log2 - 52) = 2 ^ (970 + 1) := congrArg (2 ^ ·) next
      _ = 2 * 2 ^ 970 := pow_succ' 2 970
      _ = 2 * half := congrArg (2 * ·) halfOf.symm
  have power : 2 ^ (n.log2 + 1) = 2 * half * (top + 1) := by
    have split : n.log2 + 1 = n.log2 - 52 + 53 := by omega
    rw [split, pow_add, unit, topOf, bits]
  have bound : overflowBound = 2 * half * top + half := by
    rw [same] at power
    rw [overflowBound, power, ← halfOf, Nat.mul_succ]
    omega
  have none : 52 - n.log2 = 0 := by omega
  rw [none, Nat.pow_zero, Nat.mul_one, unit, ← topOf, bound]
  have positive : 0 < half := halfOf ▸ pow_pos two_pos 970
  exact quotient_eq_succ negative half top positive (by omega) (most.trans_eq power)

theorem isInf_ofRatio_whole (negative : Bool) (n : Nat) :
    (ofRatio negative n 1).isInf = true ↔ overflowBound ≤ n := by
  rcases Nat.eq_zero_or_pos n with rfl | some
  · have finite : (ofRatio negative 0 1).isInf = false := by cases negative <;> rfl
    have positive : 0 < overflowBound := (pow_pos two_pos 1023).trans_le le_overflowBound
    rw [finite]
    exact ⟨nofun, fun above => absurd above (Nat.not_le.mpr positive)⟩
  have positive := Nat.ne_of_gt some
  have least : 2 ^ n.log2 ≤ n := Nat.log2_self_le positive
  have most : n < 2 ^ (n.log2 + 1) := Nat.lt_log2_self
  have beyond (long : 1024 ≤ n.log2) : overflowBound ≤ n := calc
    overflowBound ≤ 2 ^ 1024 := overflowBound_le
    _ ≤ 2 ^ n.log2 := pow_le_pow_right₀ one_le_two long
    _ ≤ n := least
  rw [ofRatio_whole negative positive]
  split
  · exact ⟨fun _ => beyond (by omega), fun _ => isInf_signedInfinity negative⟩
  obtain ⟨low, high⟩ := significand_bounds negative positive
  rw [isInf_assemble negative low high (by omega)]
  rcases Nat.lt_trichotomy n.log2 1023 with short | same | long
  · have finite : ¬ (971 : Int) ≤ n.log2 - 52 := by omega
    have below : n < overflowBound := calc
      n < 2 ^ (n.log2 + 1) := most
      _ ≤ 2 ^ 1023 := pow_le_pow_right₀ one_le_two short
      _ ≤ overflowBound := le_overflowBound
    constructor
    · rintro (above | ⟨exact, -⟩)
      · exact absurd above.le finite
      · exact absurd exact.ge finite
    · exact fun above => absurd above (Nat.not_le.mpr below)
  · -- The exponent is the greatest one, and only the carry leaves the range.
    rw [← quotient_greatest negative same]
    constructor
    · rintro (above | ⟨-, reached⟩)
      · exact absurd above (by omega)
      · exact reached
    · exact fun reached => .inr ⟨by omega, reached⟩
  · exact ⟨fun _ => beyond long, fun _ => .inl (by omega)⟩

/-- The nearest double of a whole number is infinite from the bound on, with either sign. -/
theorem isInf_ofInt (n : Int) : (ofInt n).isInf = true ↔ overflowBound ≤ n.natAbs := isInf_ofRatio_whole _ _

end Reckoner.Binary64

import Mathlib
import Reckoner.Binary64.Basic
import Reckoner.Proofs.Decimal.Whole

/-! Doubles as rational numbers. What is unpacked from a double is a significand of 53 bits, or of fewer with the least
exponent, and such parts are packed without a change. The whole numbers that a double is rounded to are those of its
value. -/

namespace Reckoner.Binary64

open Float.Model (Format UnpackedFloat)
open Float.Model.UnpackedFloat

/-! ### Packed parts -/

/-- Whether a significand has as many bits as its exponent asks for. -/
structure Canonical (significand : Nat) (exponent : Int) : Prop where
  short : significand < 2 ^ 53
  least : -1074 ≤ exponent
  full : exponent = -1074 ∨ 2 ^ 52 ≤ significand

/-- Whether a number is unpacked from some double. -/
def IsDouble : UnpackedFloat → Prop
  | .finite _ significand exponent _ => Canonical significand exponent ∧ exponent ≤ 971
  | _ => True

theorem unpackMantissa_toNat (bits : BitVec Format.binary64.numBits) :
    (unpackMantissa bits).toNat = bits.toNat % 2 ^ 52 := by
  rw [unpackMantissa, BitVec.toNat_cast, BitVec.extractLsb_toNat, Nat.shiftRight_zero]
  rfl

theorem unpackExponent_toNat (bits : BitVec Format.binary64.numBits) :
    (unpackExponent bits).toNat = bits.toNat / 2 ^ 52 % 2 ^ 11 := by
  rw [unpackExponent, BitVec.toNat_cast, BitVec.extractLsb_toNat, Nat.shiftRight_eq_div_pow]
  rfl

theorem unpackSign_toNat (bits : BitVec Format.binary64.numBits) : (unpackSign bits).toNat = bits.toNat / 2 ^ 63 := by
  rw [unpackSign, BitVec.toNat_cast, BitVec.extractLsb_toNat, Nat.shiftRight_eq_div_pow]
  have width : bits.toNat < 2 ^ 64 := bits.isLt
  show bits.toNat / 2 ^ 63 % 2 ^ 1 = bits.toNat / 2 ^ 63
  omega

theorem leading_append (bits : BitVec 52) : (1#1 ++ bits).toNat = 2 ^ 52 + bits.toNat := by
  have width := bits.isLt
  rw [BitVec.toNat_append, ← Nat.shiftLeft_add_eq_or_of_lt width, Nat.shiftLeft_eq]
  rfl

theorem unpack_of_normal {bits : BitVec Format.binary64.numBits} (some : (unpackExponent bits).toNat ≠ 0)
    (below : (unpackExponent bits).toNat < 2047) :
    unpack .binary64 bits = .finite (Sign.ofBitVec (unpackSign bits)) (2 ^ 52 + (unpackMantissa bits).toNat)
      ((unpackExponent bits).toNat - 1075) (Nat.add_pos_left (Nat.two_pow_pos 52) _) := by
  unfold unpack
  dsimp only
  rw [if_neg fun ones => below.ne (congrArg BitVec.toNat ones), if_neg fun zero => some (congrArg BitVec.toNat zero)]
  simp only [UnpackedFloat.finite.injEq, leading_append, true_and]
  rfl

theorem unpack_of_subnormal {bits : BitVec Format.binary64.numBits} (none : (unpackExponent bits).toNat = 0)
    (some : (unpackMantissa bits).toNat ≠ 0) :
    unpack .binary64 bits = .finite (Sign.ofBitVec (unpackSign bits)) (unpackMantissa bits).toNat (-1074)
      (Nat.pos_of_ne_zero some) := by
  have field : unpackExponent bits = 0#11 := BitVec.eq_of_toNat_eq none
  unfold unpack
  dsimp only
  rw [if_neg (by rw [field]; decide), if_pos field, dif_neg fun zero => some (congrArg BitVec.toNat zero)]
  simp only [UnpackedFloat.finite.injEq, field, true_and]
  rfl

theorem unpack_of_zero {bits : BitVec Format.binary64.numBits} (none : (unpackExponent bits).toNat = 0)
    (zero : (unpackMantissa bits).toNat = 0) :
    unpack .binary64 bits = .zero (Sign.ofBitVec (unpackSign bits)) := by
  have field : unpackExponent bits = 0#11 := BitVec.eq_of_toNat_eq none
  have fraction : unpackMantissa bits = 0#52 := BitVec.eq_of_toNat_eq zero
  unfold unpack
  dsimp only
  rw [if_neg (by rw [field]; decide), if_pos field, dif_pos fraction]

theorem not_isFinite_of_ones {bits : BitVec Format.binary64.numBits} (ones : (unpackExponent bits).toNat = 2047) :
    (unpack .binary64 bits).isFinite = false := by
  unfold unpack
  dsimp only
  rw [if_pos (BitVec.eq_of_toNat_eq ones)]
  split <;> rfl

theorem isDouble_unpack (bits : BitVec Format.binary64.numBits) : IsDouble (unpack .binary64 bits) := by
  have width : (unpackExponent bits).toNat < 2048 := (unpackExponent bits).isLt
  have short : (unpackMantissa bits).toNat < 2 ^ 52 := (unpackMantissa bits).isLt
  by_cases ones : (unpackExponent bits).toNat = 2047
  · have infinite := not_isFinite_of_ones ones
    revert infinite
    cases unpack .binary64 bits <;> simp [IsDouble, UnpackedFloat.isFinite]
  by_cases none : (unpackExponent bits).toNat = 0
  · by_cases zero : (unpackMantissa bits).toNat = 0
    · rw [unpack_of_zero none zero]
      trivial
    · rw [unpack_of_subnormal none zero]
      exact ⟨⟨short.trans (by decide), by decide, .inl rfl⟩, by decide⟩
  · rw [unpack_of_normal none (by omega)]
    exact ⟨⟨by omega, by omega, .inr (by omega)⟩, by omega⟩

theorem unpack_pack_finite (sign : Sign) {significand : Nat} {exponent : Int} (positive : 0 < significand)
    (canonical : Canonical significand exponent) (small : exponent ≤ 971) :
    unpack .binary64 (pack .binary64 (.finite sign significand exponent positive)) =
      .finite sign significand exponent positive := by
  obtain ⟨short, least, full⟩ := canonical
  have biased : (exponent + Format.binary64.exponentBias + Format.binary64.mantissaBitsWithoutImplicit).toNat =
      (exponent + 1075).toNat := by
    have bias : ((Format.binary64.exponentBias : Nat) : Int) = 1023 := rfl
    rw [bias]
    congr 1
    norm_num [add_assoc]
  unfold pack
  dsimp only
  rw [biased, if_neg (show ¬ 2 ^ 11 ≤ (exponent + 1075).toNat + 1 by omega)]
  by_cases normal : 2 ^ 52 ≤ significand
  · have length : significand.log2 + 1 = Format.binary64.mantissaBits := by
      have log : significand.log2 = 52 := (Nat.log2_eq_iff positive.ne').mpr ⟨normal, short⟩
      rw [log]
      rfl
    have field : (BitVec.ofNat 11 (exponent + 1075).toNat).toNat = (exponent + 1075).toNat :=
      Nat.mod_eq_of_lt (by omega)
    have fraction : (BitVec.ofNat 52 significand).toNat = significand - 2 ^ 52 := by
      rw [BitVec.toNat_ofNat, Nat.mod_eq_sub_mod normal, Nat.mod_eq_of_lt (by omega)]
    rw [if_pos length, unpack_of_normal]
    · simp only [unpackSign_packComponents, Sign.ofBitVec_toBitVec, unpackMantissa_packComponents,
        unpackExponent_packComponents, UnpackedFloat.finite.injEq, true_and]
      rw [field, fraction, Int.toNat_of_nonneg (by omega)]
      exact ⟨Nat.add_sub_of_le normal, by omega⟩
    · rw [unpackExponent_packComponents, field]
      omega
    · rw [unpackExponent_packComponents, field]
      omega
  · have length : significand.log2 + 1 ≠ Format.binary64.mantissaBits := by
      have log : significand.log2 < 52 := (Nat.log2_lt positive.ne').mpr (Nat.not_le.mp normal)
      have bits : Format.binary64.mantissaBits = 53 := rfl
      omega
    have fraction : (BitVec.ofNat 52 significand).toNat = significand := Nat.mod_eq_of_lt (Nat.not_le.mp normal)
    obtain rfl := full.resolve_right normal
    rw [if_neg length, unpack_of_subnormal]
    · simp only [unpackSign_packComponents, Sign.ofBitVec_toBitVec, unpackMantissa_packComponents,
        UnpackedFloat.finite.injEq, true_and, and_true]
      exact fraction
    · rw [unpackExponent_packComponents]
      rfl
    · rw [unpackMantissa_packComponents]
      exact fraction.trans_ne positive.ne'

theorem unpack_pack {u : UnpackedFloat} (double : IsDouble u) : unpack .binary64 (pack .binary64 u) = u := by
  cases u with
  | notANumber => rfl
  | infinity sign => cases sign <;> rfl
  | zero sign => cases sign <;> rfl
  | finite sign significand exponent positive => exact unpack_pack_finite sign positive double.1 double.2

/-! ### Values -/

/-- The number that parts stand for; infinities and what is no number have none. -/
def unpackedValue : UnpackedFloat → ℚ
  | .finite sign significand exponent _ => sign.apply significand * 2 ^ exponent
  | _ => 0

@[simp] theorem unpackedValue_zero (sign : Sign) : unpackedValue (.zero sign) = 0 := rfl

/-- The number that a finite double stands for. -/
def value (x : Float) : ℚ := unpackedValue x.toModel.unpack

theorem scaleRatio_eq (numerator : Nat) {denominator : Nat} (positive : 0 < denominator) (shift : Int) :
    0 < (scaleRatio numerator denominator shift).2 ∧
      ((scaleRatio numerator denominator shift).1 : ℚ) / (scaleRatio numerator denominator shift).2 =
        numerator / denominator / 2 ^ shift := by
  unfold scaleRatio
  split
  · rename_i forward
    obtain ⟨places, rfl⟩ := Int.eq_ofNat_of_zero_le forward
    simp only [Int.toNat_natCast, Nat.shiftLeft_eq, zpow_natCast]
    refine ⟨by positivity, ?_⟩
    push_cast
    rw [div_div]
  · rename_i backward
    obtain ⟨places, same⟩ := Int.eq_ofNat_of_zero_le (show 0 ≤ -shift by omega)
    obtain rfl : shift = -places := by omega
    simp only [neg_neg, Int.toNat_natCast, Nat.shiftLeft_eq, zpow_neg, zpow_natCast, div_inv_eq_mul]
    refine ⟨positive, ?_⟩
    push_cast
    ring

theorem exponentField_eq (x : Float) :
    ((x.toBits >>> 52) &&& 0x7ff).toNat = (@unpackExponent .binary64 x.toBits.toBitVec).toNat := by
  have mask : (0x7ff : UInt64).toNat = 2 ^ 11 - 1 := rfl
  rw [unpackExponent_toNat, UInt64.toNat_and, mask, Nat.and_two_pow_sub_one_eq_mod, UInt64.toNat_shiftRight,
    Nat.shiftRight_eq_div_pow]
  rfl

theorem fraction_eq (x : Float) :
    (x.toBits &&& 0xfffffffffffff).toNat = (@unpackMantissa .binary64 x.toBits.toBitVec).toNat := by
  have mask : (0xfffffffffffff : UInt64).toNat = 2 ^ 52 - 1 := rfl
  rw [unpackMantissa_toNat, UInt64.toNat_and, mask, Nat.and_two_pow_sub_one_eq_mod]
  rfl

theorem isNegative_iff (x : Float) :
    isNegative x = true ↔ (@unpackSign .binary64 x.toBits.toBitVec).toNat = 1 := by
  have shifted : (x.toBits >>> 63).toNat = x.toBits.toNat / 2 ^ 63 := by
    rw [UInt64.toNat_shiftRight, Nat.shiftRight_eq_div_pow]
    rfl
  rw [isNegative, beq_iff_eq, ← UInt64.toNat_inj, shifted, unpackSign_toNat]
  rfl

theorem apply_ofBitVec (bit : BitVec 1) (n : Int) :
    (Sign.ofBitVec bit).apply n = if bit.toNat = 1 then -n else n := by
  obtain rfl | rfl : bit = 0#1 ∨ bit = 1#1 := by
    revert bit
    decide
  · rfl
  · rfl

theorem value_eq_parts {x : Float} (finite : x.isFinite = true) :
    value x = (if (parts x).negative then -1 else 1) * (parts x).significand * 2 ^ (parts x).exponent := by
  have width : (@unpackExponent .binary64 x.toBits.toBitVec).toNat < 2048 := (unpackExponent _).isLt
  have below : (@unpackExponent .binary64 x.toBits.toBitVec).toNat ≠ 2047 := fun ones =>
    Bool.noConfusion ((not_isFinite_of_ones ones).symm.trans finite)
  have signed (n : Nat) : ((Sign.ofBitVec (@unpackSign .binary64 x.toBits.toBitVec)).apply n : ℚ) =
      (if isNegative x then -1 else 1) * n := by
    rw [apply_ofBitVec, ← if_congr (isNegative_iff x) rfl rfl]
    split <;> simp
  show unpackedValue (unpack .binary64 x.toBits.toBitVec) = _
  unfold parts
  dsimp only
  rw [exponentField_eq, fraction_eq]
  by_cases none : (@unpackExponent .binary64 x.toBits.toBitVec).toNat = 0
  · rw [if_pos none]
    by_cases zero : (@unpackMantissa .binary64 x.toBits.toBitVec).toNat = 0
    · rw [unpack_of_zero none zero, zero]
      simp [unpackedValue]
    · rw [unpack_of_subnormal none zero]
      exact congrArg (· * (2 : ℚ) ^ (-1074 : Int)) (signed _)
  · rw [if_neg none, unpack_of_normal none (by omega)]
    rw [Nat.add_comm _ leadingBit]
    exact congrArg (· * (2 : ℚ) ^ (_ : Int)) (signed _)

theorem toInt_eq (mode : Rounding) {x : Float} (finite : x.isFinite = true) : toInt mode x = mode.whole (value x) := by
  obtain ⟨positive, scaled⟩ := scaleRatio_eq (parts x).significand one_pos (-(parts x).exponent)
  rw [Nat.cast_one, div_one, zpow_neg, div_inv_eq_mul] at scaled
  have unsigned (mode : Rounding) := mode.whole_natCast_div
    (scaleRatio (parts x).significand 1 (-(parts x).exponent)).1 positive
  rw [value_eq_parts finite, mul_assoc, ← scaled, toInt, ratio]
  dsimp only
  cases (parts x).negative with
  | false => simpa using (unsigned mode).symm
  | true => simpa [Rounding.whole_neg, Rounding.quotient_opposite] using (unsigned mode.opposite).symm

end Reckoner.Binary64

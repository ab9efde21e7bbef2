import Reckoner.Proofs.Decimal.Degrees

/-! Numbers in the range of a context. What is zero or as large as the least and as small as the greatest power
of ten can be rounded, and the rounding moves it by a small part of itself. Multiples of a power of ten stay
multiples of it, so that a difference of two is zero or not too small. -/

namespace Reckoner.Decimal

/-! ### Relative errors -/

section
variable {K : Type} [Field K] [LinearOrder K] [IsStrictOrderedRing K] {x y z a b error more : K}

/-- Whether a number differs from another one by a part of that one. -/
def Within (error x y : K) : Prop := |x - y| ≤ error * |y|

namespace Within

theorem refl (nonneg : 0 ≤ error) (x : K) : Within error x x := by
  rw [Within, sub_self, abs_zero]
  positivity

theorem mono (within : Within error x y) (le : error ≤ more) : Within more x y :=
  le_trans within (mul_le_mul_of_nonneg_right le (abs_nonneg y))

theorem trans (first : Within error x y) (second : Within more y z) (nonneg : 0 ≤ error) :
    Within (error + more + error * more) x z := by
  have size : |y| ≤ (1 + more) * |z| := by
    have apart := abs_sub_abs_le_abs_sub y z
    unfold Within at second
    linarith
  calc |x - z| ≤ |x - y| + |y - z| := abs_sub_le x y z
    _ ≤ error * ((1 + more) * |z|) + more * |z| :=
        add_le_add (le_trans first (mul_le_mul_of_nonneg_left size nonneg)) second
    _ = (error + more + error * more) * |z| := by ring

theorem abs (within : Within error x y) : Within error |x| |y| := by
  unfold Within at within ⊢
  rw [abs_abs]
  exact (abs_abs_sub_abs_le x y).trans within

theorem mul_left (within : Within error x y) (a : K) : Within error (a * x) (a * y) := by
  unfold Within at within ⊢
  rw [← mul_sub, abs_mul, abs_mul, mul_left_comm]
  exact mul_le_mul_of_nonneg_left within (abs_nonneg a)

theorem div_right (within : Within error x y) (a : K) : Within error (x / a) (y / a) := by
  rw [div_eq_inv_mul, div_eq_inv_mul]
  exact within.mul_left a⁻¹

theorem mul (first : Within error x y) (second : Within more a b) (nonneg : 0 ≤ error) :
    Within (error + more + error * more) (x * a) (y * b) := by
  have left : Within error (x * a) (y * a) := by
    have turned := first.mul_left a
    rwa [mul_comm a, mul_comm a] at turned
  exact left.trans (second.mul_left y) nonneg

theorem add (first : Within error x y) (second : Within error a b) (left : 0 ≤ y) (right : 0 ≤ b) :
    Within error (x + a) (y + b) := by
  unfold Within at first second ⊢
  rw [abs_of_nonneg left] at first
  rw [abs_of_nonneg right] at second
  rw [abs_of_nonneg (add_nonneg left right), add_sub_add_comm, mul_add]
  exact (abs_add_le _ _).trans (add_le_add first second)

theorem bounds (within : Within error x y) (positive : 0 ≤ y) :
    (1 - error) * y ≤ x ∧ x ≤ (1 + error) * y := by
  unfold Within at within
  rw [abs_of_nonneg positive] at within
  obtain ⟨low, high⟩ := abs_le.mp within
  constructor <;> linarith

theorem plain (within : Within error x y) (small : error ≤ 1 / 100) (nonneg : 0 ≤ y) :
    99 / 100 * y ≤ x ∧ x ≤ 101 / 100 * y := by
  obtain ⟨low, high⟩ := (within.mono small).bounds nonneg
  constructor <;> linarith

theorem eq_zero (within : Within error x 0) : x = 0 := by
  rw [Within, abs_zero, mul_zero, sub_zero] at within
  exact abs_nonpos_iff.mp within

theorem div_left (within : Within error x y) (a : K) (small : error ≤ 1 / 100) (nonneg : 0 ≤ error)
    (positive : 0 < y) : Within (102 / 100 * error) (a / x) (a / y) := by
  obtain ⟨low, _⟩ := within.bounds positive.le
  have least : 0 < x := lt_of_lt_of_le (mul_pos (by linarith) positive) low
  have split : a / x - a / y = (y - x) / x * (a / y) := by
    field_simp
  have ratio : |(y - x) / x| ≤ 102 / 100 * error := by
    unfold Within at within
    rw [abs_div, abs_of_pos least, div_le_iff₀ least, abs_sub_comm]
    rw [abs_of_pos positive] at within
    refine within.trans ?_
    have room : y ≤ 102 / 100 * x := by nlinarith
    nlinarith
  rw [Within, split, abs_mul]
  exact mul_le_mul_of_nonneg_right ratio (abs_nonneg _)

end Within

end

theorem Within.cast {error x y : ℚ} (within : Within error x y) : Within (error : ℝ) x y := by
  unfold Within at within ⊢
  exact_mod_cast within

/-! ### Multiples of a power of ten -/

/-- Whether a number is a whole multiple of a power of ten. -/
def MultipleOf (place : ℤ) (q : ℚ) : Prop := ∃ n : ℤ, q = n * 10 ^ place

namespace MultipleOf

variable {place finer : ℤ} {q r : ℚ}

theorem neg (multiple : MultipleOf place q) : MultipleOf place (-q) := by
  obtain ⟨n, rfl⟩ := multiple
  exact ⟨-n, by push_cast; ring⟩

theorem add (first : MultipleOf place q) (second : MultipleOf place r) : MultipleOf place (q + r) := by
  obtain ⟨n, rfl⟩ := first
  obtain ⟨m, rfl⟩ := second
  exact ⟨n + m, by push_cast; ring⟩

theorem sub (first : MultipleOf place q) (second : MultipleOf place r) : MultipleOf place (q - r) :=
  sub_eq_add_neg q r ▸ first.add second.neg

theorem abs (multiple : MultipleOf place q) : MultipleOf place |q| := by
  obtain ⟨n, rfl⟩ := multiple
  exact ⟨|n|, by rw [abs_mul, abs_of_pos (pow_ten_pos place), Int.cast_abs]⟩

theorem mono (multiple : MultipleOf place q) (le : finer ≤ place) : MultipleOf finer q := by
  obtain ⟨n, rfl⟩ := multiple
  obtain ⟨m, _, same⟩ := exists_pow_eq_mul le
  exact ⟨n * m, by rw [same]; push_cast; ring⟩

theorem ofInt (n : ℤ) (le : place ≤ 0) : MultipleOf place n :=
  mono ⟨n, by simp⟩ le

theorem pow {k : ℤ} (le : place ≤ k) : MultipleOf place (10 ^ k) :=
  mono ⟨1, by simp⟩ le

theorem remainder {d : ℚ} (first : MultipleOf place q) (second : MultipleOf place d) :
    MultipleOf place (remainder q d) := by
  obtain ⟨m, same⟩ := second
  refine first.sub ⟨m * truncated (q / d), ?_⟩
  push_cast
  rw [mul_right_comm, ← same]

theorem le_abs (multiple : MultipleOf place q) (nonzero : q ≠ 0) : 10 ^ place ≤ |q| := by
  obtain ⟨n, rfl⟩ := multiple
  have whole : n ≠ 0 := by
    rintro rfl
    simp at nonzero
  rw [abs_mul, abs_of_pos (pow_ten_pos place)]
  exact le_mul_of_one_le_left (pow_ten_pos place).le (by exact_mod_cast Int.one_le_abs whole)

theorem roundAt_eq (multiple : MultipleOf place q) {coarse : ℤ} (le : coarse ≤ place) : roundAt coarse q = q := by
  obtain ⟨n, rfl⟩ := multiple.mono le
  exact roundAt_multiple coarse n

end MultipleOf

theorem multipleOf_roundAt (place : ℤ) (q : ℚ) : MultipleOf place (roundAt place q) := ⟨_, rfl⟩

theorem MultipleOf.abs_roundAt_le {place : ℤ} {q r : ℚ} (multiple : MultipleOf place r) (below : |q| ≤ r) :
    |roundAt place q| ≤ r := by
  obtain ⟨n, rfl⟩ := multiple
  obtain ⟨low, high⟩ := abs_le.mp below
  refine abs_le.mpr ⟨?_, roundAt_le high⟩
  have least := le_roundAt (n := -n) (show ((-n : ℤ) : ℚ) * 10 ^ place ≤ q by push_cast; linarith)
  push_cast at least
  linarith

theorem remainder_eq_self {q d : ℚ} (less : |q| < |d|) : remainder q d = q := by
  have ratio : |q / d| < 1 := by
    rw [abs_div]
    exact (div_lt_one ((abs_nonneg q).trans_lt less)).mpr less
  obtain ⟨low, high⟩ := abs_lt.mp ratio
  have none : truncated (q / d) = 0 := by
    unfold truncated
    split
    · exact Int.floor_eq_zero_iff.mpr ⟨‹_›, high⟩
    · exact Int.ceil_eq_zero_iff.mpr ⟨low, by linarith⟩
  rw [remainder, none, Int.cast_zero, mul_zero, sub_zero]

theorem Short.mono {few many : Nat} {q : ℚ} (short : Short few q) (le : few ≤ many) : Short many q := by
  obtain ⟨n, e, below, same⟩ := short
  exact ⟨n, e, below.trans_le (pow_le_pow_right₀ (by norm_num) le), same⟩

theorem Short.neg {digits : Nat} {q : ℚ} (short : Short digits q) : Short digits (-q) := by
  obtain ⟨n, e, few, rfl⟩ := short
  exact ⟨-n, e, by rwa [abs_neg], by push_cast; ring⟩

theorem Short.abs {digits : Nat} {q : ℚ} (short : Short digits q) : Short digits |q| := by
  obtain ⟨n, e, few, rfl⟩ := short
  refine ⟨|n|, e, by rwa [abs_abs], ?_⟩
  rw [abs_mul, abs_of_pos (pow_ten_pos e), Int.cast_abs]

namespace Context

variable {c : Context} {q r : ℚ} {z : Decimal}

theorem IsRounding.multipleOf (rounding : c.IsRounding q z) {place : ℤ} (multiple : MultipleOf place q) :
    MultipleOf place z.value := by
  rw [eq_roundAt_of_round rounding.rounded]
  rcases le_total (c.lastPlace q) place with fine | coarse
  · rwa [multiple.roundAt_eq fine]
  · exact (multipleOf_roundAt _ q).mono coarse

/-! ### The range -/

/-- Whether a number is zero or not too small for the range. -/
def Normal (c : Context) (q : ℚ) : Prop := q = 0 ∨ 10 ^ c.least ≤ |q|

/-- Whether a number is zero or between the powers of ten at the ends of the range. -/
def Spans (c : Context) (q : ℚ) : Prop := c.Normal q ∧ |q| ≤ 10 ^ c.greatest

theorem Spans.zero (c : Context) : c.Spans 0 := ⟨.inl rfl, by rw [abs_zero]; positivity⟩

theorem spans_of_le {low high : ℤ} (least : c.least ≤ low) (greatest : high ≤ c.greatest) (above : 10 ^ low ≤ |q|)
    (below : |q| ≤ 10 ^ high) : c.Spans q :=
  ⟨.inr ((zpow_le_zpow_right₀ (by norm_num) least).trans above),
    below.trans (zpow_le_zpow_right₀ (by norm_num) greatest)⟩

theorem spans_of_multipleOf {place high : ℤ} (multiple : MultipleOf place q) (least : c.least ≤ place)
    (greatest : high ≤ c.greatest) (below : |q| ≤ 10 ^ high) : c.Spans q := by
  by_cases zero : q = 0
  · exact zero ▸ Spans.zero c
  · exact spans_of_le least greatest (multiple.le_abs zero) below

theorem Spans.of_rounding (precise : 0 < c.precision) (spans : c.Spans q) (rounding : c.IsRounding q z) :
    c.Spans z.value := by
  obtain ⟨zero | low, high⟩ := spans
  · have rounded := rounding.rounded
    rw [zero, round_zero] at rounded
    rw [← Except.ok.inj rounded]
    exact Spans.zero c
  · have first := (zpow_le_zpow_iff_right₀ (by norm_num)).mp (low.trans high)
    exact ⟨.inr (le_abs_round precise (by rw [tiniest]; omega) low rounding.rounded),
      abs_round_le precise (by rw [tiniest]; omega) high rounding.rounded⟩

theorem normal_of_round (refuses : c.refusesSubnormal = true) (rounded : c.round q = .ok r) : c.Normal q := by
  by_cases zero : q = 0
  · exact .inl zero
  · exact .inr ((le_log_iff (abs_pos.mpr zero)).mp (least_le_of_round refuses rounded zero))

section
variable (normal : c.Normal q)
include normal

/-- What is not too small is rounded at a place that its first digit tells. -/
theorem Normal.lastPlace_eq (nonzero : q ≠ 0) : c.lastPlace q = Int.log 10 |q| - (c.precision - 1) := by
  have low := normal.resolve_left nonzero
  rw [lastPlace, if_neg (not_lt.mpr ((le_log_iff (abs_pos.mpr nonzero)).mpr low))]

/-- What is not too small and rounded to less than the next power of ten above the range can be rounded. -/
theorem Normal.fits (precise : 0 < c.precision) (below : |roundAt (c.lastPlace q) q| < 10 ^ (c.greatest + 1)) :
    c.Fits q := by
  by_cases zero : q = 0
  · exact ⟨0, by rw [zero, round_zero]⟩
  have positive := abs_pos.mpr zero
  have place := normal.lastPlace_eq zero
  rw [place] at below
  have large := le_abs_roundAt (show Int.log 10 |q| - (c.precision - 1) ≤ Int.log 10 |q| by omega)
    (pow_log_le positive)
  have last := (zpow_lt_zpow_iff_right₀ (by norm_num)).mp (large.trans_lt below)
  refine ⟨roundAt (Int.log 10 |q| - (c.precision - 1)) q, ?_⟩
  unfold round
  rw [if_neg zero, if_neg (by omega), if_neg (not_lt.mpr ((le_log_iff positive).mpr (normal.resolve_left zero))),
    if_pos below]

/-- Rounding leaves what is not too small and has as many digits as are kept. -/
theorem Normal.roundAt_eq (short : Short c.precision q) : roundAt (c.lastPlace q) q = q := by
  by_cases zero : q = 0
  · rw [zero, roundAt_zero]
  obtain ⟨n, e, few, rfl⟩ := short
  have unit := pow_ten_pos e
  have below : |(n : ℚ) * 10 ^ e| < 10 ^ (e + c.precision) := by
    rw [abs_mul, abs_of_pos unit, mul_comm, zpow_add₀ (by norm_num), zpow_natCast]
    exact mul_lt_mul_of_pos_left (by exact_mod_cast few) unit
  have first := (log_lt_iff (abs_pos.mpr zero)).mpr below
  refine MultipleOf.roundAt_eq ⟨n, rfl⟩ ?_
  rw [normal.lastPlace_eq zero]
  omega

theorem Normal.fits_of_short (precise : 0 < c.precision) (short : Short c.precision q)
    (below : |q| < 10 ^ (c.greatest + 1)) : c.Fits q :=
  normal.fits precise (by rwa [normal.roundAt_eq short])

/-- What is not above the greatest number of the digits that are kept can be rounded. -/
theorem Normal.fits_of_le (precise : 0 < c.precision)
    (below : |q| ≤ 10 ^ (c.greatest + 1) - 10 ^ (c.greatest + 1 - c.precision)) : c.Fits q := by
  have unit := pow_ten_pos (c.greatest + 1 - c.precision)
  refine normal.fits precise ?_
  by_cases zero : q = 0
  · rw [zero, roundAt_zero, abs_zero]
    exact pow_ten_pos _
  have first := (log_lt_iff (abs_pos.mpr zero)).mpr (show |q| < 10 ^ (c.greatest + 1) by linarith)
  have place := normal.lastPlace_eq zero
  have most : MultipleOf (c.lastPlace q) (10 ^ (c.greatest + 1) - 10 ^ (c.greatest + 1 - c.precision)) :=
    (MultipleOf.pow (by omega)).sub (.pow (by omega))
  linarith [most.abs_roundAt_le below]

variable (rounding : c.IsRounding q z)
include rounding

theorem Normal.within : Within (5 * c.grain) z.value q := by
  rw [Within]
  by_cases zero : q = 0
  · have rounded := rounding.rounded
    rw [zero, round_zero] at rounded
    rw [← Except.ok.inj rounded, zero]
    simp
  have positive := abs_pos.mpr zero
  have first := pow_log_le positive
  have place : (10 : ℚ) ^ c.lastPlace q = 10 * c.grain * 10 ^ Int.log 10 |q| := by
    rw [normal.lastPlace_eq zero, grain, ← zpow_one_add₀ (by norm_num), ← zpow_add₀ (by norm_num)]
    congr 1
    ring
  have error := roundAt_error (c.lastPlace q) q
  rw [← eq_roundAt_of_round rounding.rounded, place] at error
  nlinarith [c.grain_pos]

/-- What is not too small and has as many digits as are kept stays what it is. -/
theorem Normal.value_eq (short : Short c.precision q) : z.value = q := by
  rw [eq_roundAt_of_round rounding.rounded]
  exact normal.roundAt_eq short

theorem Normal.multipleOf {k : ℤ} (large : 10 ^ k ≤ |q|) : MultipleOf (k - (c.precision - 1)) z.value := by
  have positive := (pow_ten_pos k).trans_le large
  rw [eq_roundAt_of_round rounding.rounded]
  refine (multipleOf_roundAt _ q).mono ?_
  rw [normal.lastPlace_eq (abs_pos.mp positive)]
  have first := (le_log_iff positive).mpr large
  omega

end

theorem Spans.fits (precise : 0 < c.precision) (spans : c.Spans q) : c.Fits q := by
  refine spans.1.fits precise ?_
  by_cases zero : q = 0
  · rw [zero, roundAt_zero, abs_zero]
    exact pow_ten_pos _
  have first := (zpow_le_zpow_iff_right₀ (by norm_num)).mp
    ((pow_log_le (abs_pos.mpr zero)).trans spans.2)
  refine (abs_roundAt_le ?_ spans.2).trans_lt (zpow_lt_zpow_right₀ (by norm_num) (by omega))
  rw [spans.1.lastPlace_eq zero]
  omega

theorem Gives.settles_of_spans (precise : 0 < c.precision) {outcome : Except Signal Decimal}
    (gives : c.Gives q outcome) (spans : c.Spans q) : Settles (c.IsRounding q) outcome :=
  gives.settles (spans.fits precise)

/-! ### What a context admits -/

theorem adjusted_eq {x : Decimal} (given : x.isFinite = true) (nonzero : x.value ≠ 0) :
    x.adjusted = Int.log 10 |x.value| := by
  obtain ⟨s, m, e, rfl⟩ := isFinite_iff.mp given
  rw [value_finite] at nonzero ⊢
  have some : m ≠ 0 := by
    rintro rfl
    rw [signed_zero, Int.cast_zero, zero_mul] at nonzero
    exact nonzero rfl
  rw [abs_mul, abs_signed, abs_of_pos (pow_ten_pos e), log_eq_leading some]
  rfl

theorem Admits.multipleOf {x : Decimal} (admitted : c.Admits x) {k : ℤ} (large : 10 ^ k ≤ |x.value|) :
    MultipleOf (k - (c.precision - 1)) x.value := by
  have positive := (pow_ten_pos k).trans_le large
  have first := (le_log_iff positive).mpr large
  rw [← adjusted_eq admitted.isFinite (abs_pos.mp positive)] at first
  obtain ⟨s, m, e, rfl⟩ := isFinite_iff.mp admitted.isFinite
  have short : Numeral.digitCount m ≤ c.precision := admitted.1
  have place : k ≤ leading m e := first
  refine MultipleOf.mono ⟨signed s m, value_finite s m e⟩ ?_
  rw [leading] at place
  omega

namespace Admits

variable {x : Decimal} (admitted : c.Admits x)
include admitted

theorem short : Short c.precision x.value := by
  obtain ⟨s, m, e, rfl⟩ := isFinite_iff.mp admitted.isFinite
  have few : Numeral.digitCount m ≤ c.precision := admitted.1
  refine ⟨signed s m, e, ?_, value_finite s m e⟩
  have below : m < 10 ^ c.precision := (Numeral.lt_pow_digitCount m).trans_le (Nat.pow_le_pow_right (by decide) few)
  have size : |signed s m| = m := by
    cases s <;> simp [signed]
  rw [size]
  exact_mod_cast below

theorem bounds : c.Normal x.value ∧ |x.value| < 10 ^ (c.greatest + 1) := by
  obtain ⟨s, m, e, rfl⟩ := isFinite_iff.mp admitted.isFinite
  by_cases zero : m = 0
  · rw [zero, value_finite, signed_zero, Int.cast_zero, zero_mul, abs_zero]
    exact ⟨.inl rfl, pow_ten_pos _⟩
  obtain ⟨least, greatest⟩ := admitted.2.resolve_left zero
  have size : |(finite s m e).value| = m * 10 ^ e := by
    rw [value_finite, abs_mul, abs_signed, abs_of_pos (pow_ten_pos e)]
  rw [Normal, size]
  refine ⟨.inr ((zpow_le_zpow_right₀ (by norm_num) least).trans (pow_leading_le zero e)), ?_⟩
  exact (lt_pow_leading m e).trans_le (zpow_le_zpow_right₀ (by norm_num) (by omega))

theorem abs_le (precise : 0 < c.precision) :
    |x.value| ≤ 10 ^ (c.greatest + 1) - 10 ^ (c.greatest + 1 - c.precision) := by
  have top : (10 : ℚ) ^ (c.greatest + 1) = 10 * 10 ^ c.greatest := by rw [zpow_add_one₀ (by norm_num), mul_comm]
  have below := admitted.bounds.2
  rcases le_or_gt (10 ^ c.greatest) |x.value| with large | small
  · -- The next power of ten is a multiple of the same power, and a greater one.
    have multiple : MultipleOf (c.greatest - (c.precision - 1)) (10 ^ (c.greatest + 1) - |x.value|) :=
      (MultipleOf.pow (by omega)).sub (admitted.multipleOf large).abs
    have room := multiple.le_abs (sub_pos.mpr below).ne'
    rw [abs_of_pos (sub_pos.mpr below)] at room
    rw [show c.greatest + 1 - c.precision = c.greatest - (c.precision - 1) by ring]
    linarith
  · have coarse : (10 : ℚ) ^ (c.greatest + 1 - c.precision) ≤ 10 ^ c.greatest :=
      zpow_le_zpow_right₀ (by norm_num) (by omega)
    have unit := pow_ten_pos c.greatest
    linarith

end Admits

end Context

end Reckoner.Decimal

import Reckoner.Power
import Reckoner.Unicode.Blank
import Reckoner.Unicode.Digit

/-! Whole numbers as text. Numerals may use the decimal digits of every script; texts of more than
`digitLimit` digits are neither read nor written. -/

namespace Reckoner.Numeral

open Reckoner.Unicode

def digitLimit : Nat := 4300

/-- The number of decimal digits of a natural number; zero has one. The lower digits are split off
in one step, as many as the binary length guarantees. -/
def digitCount (n : Nat) : Nat :=
  if _ : n < 16 then
    if n < 10 then 1 else 2
  else
    let low := n.log2 * 3 / 10
    low + digitCount (n / 10 ^ low)
termination_by n
decreasing_by
  have length : 4 ≤ n.log2 := (Nat.le_log2 (by omega)).2 (by omega)
  have positive : 1 ≤ n.log2 * 3 / 10 := by omega
  exact Nat.div_lt_self (by omega) (Nat.one_lt_pow (by omega) (by omega))

/-- The digits split off in one step are fewer than the number has. -/
theorem pow_split_le {n : Nat} (positive : n ≠ 0) : 10 ^ (n.log2 * 3 / 10) ≤ n := by
  refine Nat.le_trans ?_ (Nat.log2_self_le positive)
  generalize n.log2 = k
  have apart : k = 10 * (k / 10) + k % 10 := (Nat.div_add_mod k 10).symm
  have rest : k % 10 < 10 := Nat.mod_lt k (by omega)
  have split : k * 3 / 10 = 3 * (k / 10) + k % 10 * 3 / 10 := by omega
  have thousands : 10 ^ (3 * (k / 10)) ≤ 2 ^ (10 * (k / 10)) := by
    rw [Nat.pow_mul, Nat.pow_mul]
    exact Nat.pow_le_pow_left (by decide) _
  have few : 10 ^ (k % 10 * 3 / 10) ≤ 2 ^ (k % 10) := by
    generalize k % 10 = r at rest
    revert r
    decide
  calc 10 ^ (k * 3 / 10) = 10 ^ (3 * (k / 10)) * 10 ^ (k % 10 * 3 / 10) := by
        rw [split, Nat.pow_add]
    _ ≤ 2 ^ (10 * (k / 10)) * 2 ^ (k % 10) := Nat.mul_le_mul thousands few
    _ = 2 ^ k := by rw [← Nat.pow_add, ← apart]

theorem digitCount_pos (n : Nat) : 0 < digitCount n := by
  fun_induction digitCount n with
  | case1 => decide
  | case2 => decide
  | case3 n _ low ih => omega

theorem lt_pow_digitCount (n : Nat) : n < 10 ^ digitCount n := by
  fun_induction digitCount n with
  | case1 n _ small => simpa using small
  | case2 n short _ => exact Nat.lt_trans short (by decide)
  | case3 n _ low ih =>
    rw [Nat.pow_add, Nat.mul_comm]
    exact (Nat.div_lt_iff_lt_mul (Nat.pow_pos (by decide))).1 ih

/-- A positive number is at least the power of ten with one zero less than it has digits. -/
theorem pow_digitCount_le {n : Nat} (positive : n ≠ 0) : 10 ^ (digitCount n - 1) ≤ n := by
  fun_induction digitCount n with
  | case1 n _ small => exact Nat.pos_of_ne_zero positive
  | case2 n _ large => simpa using large
  | case3 n large low ih =>
    have below : 10 ^ low ≤ n := pow_split_le positive
    have quotient : n / 10 ^ low ≠ 0 :=
      Nat.ne_of_gt (Nat.div_pos below (Nat.pow_pos (by decide)))
    have count := digitCount_pos (n / 10 ^ low)
    have places : low + digitCount (n / 10 ^ low) - 1 = digitCount (n / 10 ^ low) - 1 + low := by
      omega
    rw [places, Nat.pow_add]
    exact Nat.le_trans (Nat.mul_le_mul_right _ (ih quotient)) (Nat.div_mul_le_self n _)

def ofDigits (digits : List Nat) : Nat := digits.foldl (fun total digit => 10 * total + digit) 0

/-- Decimal digits with their values; `none` if another character occurs. -/
def digitValues? (text : List Char) : Option (List Nat) := text.mapM digitValue?

/-- Digit groups joined by single underscores, at least one digit in each. -/
def ungroup? (text : List Char) : Option (List Char) :=
  let groups := text.splitOn '_'
  if groups.all (fun group => !group.isEmpty) then some groups.flatten else none

def readNat? (text : List Char) : Option Nat := do
  let digits ← ungroup? text
  let values ← digitValues? digits
  if values.length ≤ digitLimit then some (ofDigits values) else none

def read? (text : List Char) : Option Int :=
  match strip text with
  | '-' :: digits => (readNat? digits).map fun n => -(n : Int)
  | '+' :: digits => (readNat? digits).map Int.ofNat
  | digits => (readNat? digits).map Int.ofNat

/-- The text of a whole number, if it is not too long. -/
def write? (n : Int) : Option String :=
  if digitCount n.natAbs ≤ digitLimit then some (toString n) else none

end Reckoner.Numeral

import Reckoner.Decimal.Context

/-! Arithmetic on decimals in a context: the exact result of the operation, rounded once. -/

namespace Reckoner.Decimal.Context

open Reckoner.Numeral

def signed (negative : Bool) (coefficient : Nat) : Int :=
  if negative then -(coefficient : Int) else coefficient

/-- The sum of two finite decimals, the first with the larger exponent. A second summand too small to
be seen in the rounded sum counts as one unit of a place below it, so far apart the places may be. -/
def sumAligned (c : Context) (s : Bool) (m : Nat) (e : Int) (t : Bool) (n : Nat) (f : Int) :
    Except Signal Decimal :=
  let digits := digitCount m
  let limit := e - 1 + if c.precision < digits then 0 else (digits : Int) - c.precision - 1
  let (n, f) := if m ≠ 0 ∧ leading n f < limit then (min n 1, limit) else (n, f)
  let m := if m = 0 then 0 else m * 10 ^ (e - f).toNat
  let sum := signed s m + signed t n
  c.finishFinite (if sum = 0 then s && t else sum < 0) sum.natAbs f

/-- The sum of two finite decimals. Opposite numbers have the sum `+0`. -/
def sumFinite (c : Context) (s : Bool) (m : Nat) (e : Int) (t : Bool) (n : Nat) (f : Int) :
    Except Signal Decimal :=
  if f ≤ e then c.sumAligned s m e t n f else c.sumAligned t n f s m e

/-- The sum, with the sign of the second summand turned if `turned`. -/
def sum (c : Context) (turned : Bool) (x y : Decimal) : Except Signal Decimal :=
  match x, y with
  | finite s m e, finite t n f => c.sumFinite s m e (t != turned) n f
  | infinite s, infinite t =>
    if s == (t != turned) then .ok (infinite s) else .error .invalid
  | infinite s, finite .. => .ok (infinite s)
  | finite .., infinite t => .ok (infinite (t != turned))
  | x, y => c.handOnEither x y

def add (c : Context) (x y : Decimal) : Except Signal Decimal := c.sum false x y

def sub (c : Context) (x y : Decimal) : Except Signal Decimal := c.sum true x y

def mul (c : Context) (x y : Decimal) : Except Signal Decimal :=
  match x, y with
  | finite s m e, finite t n f => c.finishFinite (s != t) (m * n) (e + f)
  | infinite s, infinite t => .ok (infinite (s != t))
  | infinite s, finite t n _ => if n = 0 then .error .invalid else .ok (infinite (s != t))
  | finite s m _, infinite t => if m = 0 then .error .invalid else .ok (infinite (s != t))
  | x, y => c.handOnEither x y

/-- The quotient of two coefficients. It has at least one digit more than the precision unless it is
exact; a last digit that would look like a tie or an exact result is raised if a rest follows it. An
exact quotient gets an exponent as near to `exponent` as its digits allow. -/
def quotientFinite (c : Context) (negative : Bool) (m n : Nat) (exponent : Int) :
    Except Signal Decimal :=
  let shift : Int := (digitCount n : Int) - digitCount m + c.precision + 1
  let numerator := m * 10 ^ shift.toNat
  let denominator := n * 10 ^ (-shift).toNat
  let quotient := numerator / denominator
  if numerator % denominator = 0 then
    let zeros := trailingZeros shift.toNat quotient
    c.finishFinite negative (quotient / 10 ^ zeros) (exponent - shift + zeros)
  else
    let sticky := if quotient % 5 = 0 then quotient + 1 else quotient
    c.finishFinite negative sticky (exponent - shift)

def div (c : Context) (x y : Decimal) : Except Signal Decimal :=
  match x, y with
  | finite s m e, finite t n f =>
    if n = 0 then .error (if m = 0 then .invalid else .divisionByZero)
    else if m = 0 then c.finishFinite (s != t) 0 (e - f)
    else c.quotientFinite (s != t) m n (e - f)
  | infinite _, infinite _ => .error .invalid
  | infinite s, finite t _ _ => .ok (infinite (s != t))
  | finite s _ _, infinite t => .ok (finite (s != t) 0 c.tiniest)
  | x, y => c.handOnEither x y

/-- The remainder of the truncated quotient, with the sign of the dividend; the quotient has to fit
the precision. -/
def remFinite (c : Context) (s : Bool) (m : Nat) (e : Int) (n : Nat) (f : Int) :
    Except Signal Decimal :=
  let ideal := min e f
  let apart := leading m e - leading n f
  if m = 0 then c.finishFinite s 0 ideal
  else if apart < 0 then c.finishFinite s (m * 10 ^ (e - ideal).toNat) ideal
  else if (c.precision : Int) < apart then .error .invalid
  else
    let dividend := m * 10 ^ (e - ideal).toNat
    let divisor := n * 10 ^ (f - ideal).toNat
    if 10 ^ c.precision ≤ dividend / divisor then .error .invalid
    else c.finishFinite s (dividend % divisor) ideal

def rem (c : Context) (x y : Decimal) : Except Signal Decimal :=
  match x, y with
  | finite s m e, finite _ n f => if n = 0 then .error .invalid else c.remFinite s m e n f
  | finite s m e, infinite _ => c.finishFinite s m e
  | infinite _, finite .. => .error .invalid
  | infinite _, infinite _ => .error .invalid
  | x, y => c.handOnEither x y

/-- The operand, rounded; a zero loses its sign. -/
def plus (c : Context) : Decimal → Except Signal Decimal
  | finite negative coefficient exponent =>
    c.finishFinite (negative && coefficient != 0) coefficient exponent
  | x => c.handOn x

def neg (c : Context) : Decimal → Except Signal Decimal
  | finite negative coefficient exponent =>
    c.finishFinite (!negative && coefficient != 0) coefficient exponent
  | infinite negative => .ok (infinite !negative)
  | x => c.handOn x

def abs (c : Context) (x : Decimal) : Except Signal Decimal :=
  if x.isNegative then c.neg x else c.plus x

/-- The square root, with half of the operand's exponent if it is exact. -/
def sqrt (c : Context) : Decimal → Except Signal Decimal
  | finite negative coefficient exponent =>
    let ideal := exponent.fdiv 2
    if coefficient = 0 then c.finishFinite negative 0 ideal
    else if negative then .error .invalid
    else
      let even := coefficient * 10 ^ (exponent - 2 * ideal).toNat
      let missing : Int := 2 * (c.precision + 1) - digitCount even
      let places := (missing.toNat + 1) / 2
      let scaled := even * 10 ^ (2 * places)
      let root := Nat.sqrt scaled
      if root * root = scaled then
        let zeros := trailingZeros places root
        c.finishFinite false (root / 10 ^ zeros) (ideal - places + zeros)
      else
        c.finishFinite false (if root % 5 = 0 then root + 1 else root) (ideal - places)
  | infinite negative => if negative then .error .invalid else .ok (infinite false)
  | x => c.handOn x

def scale (c : Context) (x : Decimal) (power : Int) : Except Signal Decimal :=
  match x with
  | finite negative coefficient exponent =>
    if 2 * (c.greatest + c.precision) < power.natAbs then .error .invalid
    else c.finishFinite negative coefficient (exponent + power)
  | infinite negative => .ok (infinite negative)
  | x => c.handOn x

/-- The operand, rounded, without zeros at the end of its coefficient. -/
def normalize (c : Context) (x : Decimal) : Except Signal Decimal :=
  match x with
  | notANumber .. => c.handOn x
  | x => do
    match ← c.finish x with
    | finite negative coefficient exponent =>
      if coefficient = 0 then return finite negative 0 0
      else
        let zeros := trailingZeros (min (digitCount coefficient) (c.greatest - exponent).toNat) coefficient
        return finite negative (coefficient / 10 ^ zeros) (exponent + zeros)
    | x => return x

end Reckoner.Decimal.Context

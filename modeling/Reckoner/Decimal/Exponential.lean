import Reckoner.Decimal.Context

/-! The natural logarithm and the exponential function, correctly rounded to any number of digits.
Both are approximated in fixed point, and the approximation gets more places until all numbers
within its error round to one decimal. -/

namespace Reckoner.Decimal

open Reckoner.Numeral

/-- The sum of `y ^ (2 i + 1) / (2 i + 1)` in fixed point. `power` is an odd power of `y` and `square`
the square of `y`, both times `unit`. -/
def atanhTail (square unit : Nat) : Nat → Nat → Nat → Nat
  | 0, _, _ => 0
  | fuel + 1, odd, power =>
    if power = 0 then 0
    else power / odd + atanhTail square unit fuel (odd + 2) (power * square / unit)

/-- The inverse hyperbolic tangent of a ratio of at most one half, times `10 ^ places`. -/
def atanhScaled (places numerator denominator : Nat) : Nat :=
  let unit := 10 ^ places
  let y := numerator * unit / denominator
  atanhTail (y * y / unit) unit (2 * places + 2) 1 y

def lnTwoScaled (places : Nat) : Nat := 2 * atanhScaled places 1 3

def lnTenScaled (places : Nat) : Nat := 3 * lnTwoScaled places + 2 * atanhScaled places 1 9

/-- The logarithm of `coefficient * 10 ^ exponent`, times `10 ^ places`. The number is brought between
3/4 and 3/2 by a power of ten and at most four powers of two. -/
def lnScaled (places coefficient : Nat) (exponent : Int) : Int :=
  let tens := leading coefficient exponent
  let ten := 10 ^ (digitCount coefficient - 1)
  let twos : Nat := if 2 * coefficient < 3 * ten then 0 else if coefficient < 3 * ten then 1
    else if coefficient < 6 * ten then 2 else 3
  let base := ten * 2 ^ twos
  let tail : Int :=
    if base ≤ coefficient then (atanhScaled places (coefficient - base) (coefficient + base) : Int)
    else -(atanhScaled places (base - coefficient) (coefficient + base) : Int)
  2 * tail + twos * lnTwoScaled places + tens * lnTenScaled places

/-- The sum of `x ^ i / i !` in fixed point, from the term `term` on. -/
def expTail (x : Int) (unit : Nat) : Nat → Nat → Int → Int
  | 0, _, _ => 0
  | fuel + 1, index, term =>
    if term = 0 then 0
    else term + expTail x unit fuel (index + 1) ((term * x).tdiv (unit * (index + 1)))

/-- Rounds a positive fixed-point number to `digits` digits: a coefficient of that length and the
number of digits dropped. -/
def roundScaled (digits value : Nat) : Nat × Int :=
  let count := digitCount value
  if count ≤ digits then (value * 10 ^ (digits - count), (count : Int) - digits)
  else
    let rounded := dropDigits value (count - digits)
    if rounded < 10 ^ digits then (rounded, count - digits) else (rounded / 10, count - digits + 1)

/-- A fixed-point number known up to `10 ^ error` units, if its rounding does not depend on the
error. -/
def roundKnown? (digits value error : Nat) : Option (Nat × Int) :=
  let low := roundScaled digits (value - 10 ^ error)
  if 10 ^ error < value ∧ low = roundScaled digits (value + 10 ^ error) then some low else none

def lnRounded (digits coefficient : Nat) (exponent : Int) : Nat → Nat → Bool × Nat × Int
  | 0, _ => (false, 0, 0)
  | fuel + 1, places =>
    let value := lnScaled places coefficient exponent
    match roundKnown? digits value.natAbs 8 with
    | some (rounded, dropped) => (value < 0, rounded, dropped - places)
    | none => lnRounded digits coefficient exponent fuel (2 * places)

/-- The exponential of a finite decimal, times `10 ^ places`, with the power of ten split off. -/
def expScaled (places : Nat) (negative : Bool) (coefficient : Nat) (exponent : Int) : Nat × Int :=
  let extra := (max (leading coefficient exponent) 0).toNat + 2
  let fine := places + extra
  let shifted := fine + exponent
  let magnitude :=
    if 0 ≤ shifted then coefficient * 10 ^ shifted.toNat
    else coefficient / 10 ^ (min (-shifted).toNat (digitCount coefficient))
  let x : Int := if negative then -(magnitude : Int) else magnitude
  let lnTen := lnTenScaled fine
  let tens := x.fdiv lnTen
  let rest := (x - tens * lnTen).fdiv (10 ^ extra : Nat)
  ((expTail rest (10 ^ places) (4 * places + 20) 0 (10 ^ places : Nat)).toNat, tens)

def expRounded (digits : Nat) (negative : Bool) (coefficient : Nat) (exponent : Int) :
    Nat → Nat → Nat × Int
  | 0, _ => (0, 0)
  | fuel + 1, places =>
    let (value, tens) := expScaled places negative coefficient exponent
    match roundKnown? digits value 8 with
    | some (rounded, dropped) => (rounded, dropped - places + tens)
    | none => expRounded digits negative coefficient exponent fuel (2 * places)

/-- How often the places are doubled at most. -/
def refinements : Nat := 24

/-- The correctly rounded logarithm of a positive decimal. The number of places starts with the
digits that a logarithm near zero loses. -/
def ln (digits coefficient : Nat) (exponent : Int) : Decimal :=
  let near := (exponent.natAbs + digitCount coefficient)
  let lost := if leading coefficient exponent = 0 ∨ leading coefficient exponent = -1 then near else 0
  let (negative, rounded, power) :=
    lnRounded digits coefficient exponent refinements (digits + lost + 20)
  finite negative rounded power

def exp (digits : Nat) (negative : Bool) (coefficient : Nat) (exponent : Int) : Decimal :=
  let (rounded, power) := expRounded digits negative coefficient exponent refinements (digits + 20)
  finite false rounded power

end Reckoner.Decimal

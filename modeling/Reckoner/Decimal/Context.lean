import Reckoner.Decimal.Basic

/-! Precision and range of decimal results. An operation computes its exact value, and `finish`
rounds that value to the precision and reports what does not fit. -/

namespace Reckoner.Decimal

inductive Signal where
  | invalid
  | divisionByZero
  | overflow
  | subnormal
  deriving Repr, DecidableEq

/-- The digits of a result and the range of its leading exponent. With `refusesSubnormal` a result
below `10 ^ least` is reported, else it keeps the digits down to `tiniest`. -/
structure Context where
  precision : Nat
  least : Int
  greatest : Int
  refusesSubnormal : Bool
  deriving Repr, DecidableEq

namespace Context

/-- The exponent of the last digit that a subnormal result can have. -/
def tiniest (c : Context) : Int := c.least - (c.precision - 1)

def widen (c : Context) (digits : Nat) : Context := { c with precision := c.precision + digits }

/-- The exponent of a zero, moved into the range. -/
def zeroExponent (c : Context) (exponent : Int) : Int :=
  if c.greatest < exponent then c.greatest else max exponent c.tiniest

/-- An exact finite result, rounded to the precision; a tie goes to the even neighbour. -/
def finishFinite (c : Context) (negative : Bool) (coefficient : Nat) (exponent : Int) :
    Except Signal Decimal :=
  let count := Numeral.digitCount coefficient
  let leading := exponent + count - 1
  if coefficient = 0 then .ok (finite negative 0 (c.zeroExponent exponent))
  else if c.greatest < leading then .error .overflow
  else if leading < c.least then
    if c.refusesSubnormal then .error .subnormal
    else if exponent < c.tiniest then
      .ok (finite negative (dropDigits coefficient (c.tiniest - exponent).toNat) c.tiniest)
    else .ok (finite negative coefficient exponent)
  else if count ≤ c.precision then .ok (finite negative coefficient exponent)
  else
    let excess := count - c.precision
    let rounded := dropDigits coefficient excess
    if rounded < 10 ^ c.precision then .ok (finite negative rounded (exponent + excess))
    else if c.greatest < leading + 1 then .error .overflow
    else .ok (finite negative (rounded / 10) (exponent + excess + 1))

def finish (c : Context) : Decimal → Except Signal Decimal
  | finite negative coefficient exponent => c.finishFinite negative coefficient exponent
  | infinite negative => .ok (infinite negative)
  | notANumber negative signaling payload =>
    .ok (notANumber negative signaling (payload % 10 ^ c.precision))

/-- The operand that an operation on no number hands on; a signalling one is reported. -/
def handOn (c : Context) (x : Decimal) : Except Signal Decimal :=
  if x.isSignaling then .error .invalid else c.finish x

def handOnEither (c : Context) (x y : Decimal) : Except Signal Decimal :=
  if x.isSignaling || y.isSignaling then .error .invalid
  else c.finish (if x.isNotANumber then x else y)

end Context

end Reckoner.Decimal

import Reckoner.NumberSystem.Basic
import Reckoner.Binary64.Elementary

/-! Doubles as a number system. No operation fails: undefined results are infinities or no number. -/

namespace Reckoner.NumberSystem.Floating

open Reckoner.Binary64

/-- Rounds a double to a whole one; only rounding to the nearest keeps the sign of a zero. -/
def roundTo (mode : Rounding) (x : Float) : Float :=
  if !x.isFinite then x
  else if mode = .halfUp then copySign (x.abs + 0.5).floor x
  else Binary64.ofInt (Binary64.toInt mode x)

/-- The quotient, with infinities for what is divided by zero. -/
def divide (x y : Float) : Float :=
  if y == 0.0 then
    if x == 0.0 || x.isNaN then nan else copySign infinity x * copySign 1.0 y
  else x / y

/-- The exact remainder; an infinite divisor leaves the dividend. -/
def remainderOf (x y : Float) : Float :=
  if y == 0.0 || !x.isFinite || y.isNaN then nan
  else if y.isInf then x
  else remainder x y

/-- The power, with infinities at the pole and beyond the range. -/
def powerOf (x y : Float) : Float :=
  match Binary64.power x y with
  | .ok value => value
  | .error .range => if x < 0.0 && isOdd y then -infinity else infinity
  | .error _ => if x == 0.0 then infinity else nan

def order (x y : Float) : Ordering := if x < y then .lt else if y < x then .gt else .eq

def ofFraction (numerator : Int) (denominator : Nat) : Outcome Float :=
  let value := ofRatio (numerator < 0) numerator.natAbs denominator
  if value.isInf then .error (.outOfRange "a fraction is too large for a double")
  else .ok value

def ofDecimal (value : Decimal) : Outcome Float :=
  if value.isSignaling then .error (.unsuitable "cannot convert signaling NaN to float")
  else .ok value.toFloat

def read (text : String) : Outcome Float :=
  match Binary64.read? text.toList with
  | some value => .ok value
  | none => .error (.unsuitable (Quoted.quote text ++ " is no double"))

def coerce : Datum → Outcome Float
  | .int n => .ok (Binary64.ofInt n)
  | .bool value => .ok (if value then 1.0 else 0.0)
  | .float x => .ok x
  | .decimal value => ofDecimal value
  | .fraction numerator denominator => ofFraction numerator denominator
  | .text text => read text
  | .absent | .complex _ | .list _ => .error .mistyped

def wholePart (x : Float) : Outcome Int :=
  if x.isFinite then .ok (Binary64.toInt .truncate x)
  else .error (.report .overflow ("Cannot convert " ++ Binary64.write x ++ " to an integer"))

def system : NumberSystem Float where
  name := "float"
  label := "FloatNumeric()"
  checked := false
  literals := .decimal
  native? := fun _ => none
  parse := fun literal => read (String.ofList literal)
  format := fun x => .ok (writePlain x)
  write := fun x => .ok (Binary64.write x)
  coerce := coerce
  toDatum := .float
  ofInt := fun n => .ok (Binary64.ofInt n)
  ofFloat := .ok
  toFloat := .ok
  toInt := wholePart
  constants := standardConstants coerce
  add := fun x y => .ok (x + y)
  sub := fun x y => .ok (x - y)
  mul := fun x y => .ok (x * y)
  div := fun x y => .ok (divide x y)
  rem := fun x y => .ok (remainderOf x y)
  neg := fun x => .ok (-x)
  pow := fun x y => .ok (powerOf x y)
  toIntegral := fun mode x => .ok (roundTo mode x)
  compare := fun x y => .ok (order x y)
  equals := fun x y => .ok (x == y)
  isZero := fun x => .ok (x == 0.0)
  isFinite := Float.isFinite
  isInteger := fun x => .ok (isWhole x)

end Reckoner.NumberSystem.Floating

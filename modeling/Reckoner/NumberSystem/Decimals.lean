import Reckoner.NumberSystem.Basic
import Reckoner.Decimal.Elementary

/-! Decimals of a fixed precision as a checked number system. Results that are out of range, too small
included, are reported; elementary functions are computed in decimals. -/

namespace Reckoner.NumberSystem.Decimals

open Reckoner.Decimal

/-- The greatest precision for which all series settle within their bound. -/
def maxPrecision : Nat := 100

def defaultPrecision : Nat := 28

def defaultRange : Int := 999999

def widestRange : Int := 999999999999999999

def context? (precision range : Int) : Option Decimal.Context :=
  if 1 ≤ precision ∧ precision ≤ maxPrecision ∧ 0 ≤ range ∧ range ≤ widestRange then
    some ⟨precision.toNat, -range, range, true⟩
  else none

def name : String := "decimal"

def ofSignal : Signal → Fault
  | .divisionByZero => divisionByZero
  | .overflow => overflow name "result"
  | .subnormal => overflow name "result magnitude"
  | .invalid => .report .invalidInput "Invalid decimal operation"

def ofFailure : Failure → Fault
  | .signal signal => ofSignal signal
  | .outside domain => .report .invalidInput domain.message

/-- A result whose signals are reported. -/
def reported (result : Except Signal Decimal) : Outcome Decimal := result.mapError ofSignal

def computed (result : Computed Decimal) : Outcome Decimal := result.mapError ofFailure

/-- A result whose signals stay what they are. -/
def raw {β : Type} (result : Except Signal β) : Outcome β := result.mapError Fault.ofSignal

/-- A decimal in the context; the digits of no number have to fit the precision. -/
def create (c : Decimal.Context) (x : Decimal) : Except Signal Decimal :=
  match x with
  | notANumber negative signaling payload =>
    if payload < 10 ^ c.precision then .ok (notANumber negative signaling payload)
    else .error .invalid
  | x => c.finish x

def read (c : Decimal.Context) (text : List Char) : Except Signal Decimal :=
  match Decimal.read? text with
  | some x => create c x
  | none => .error .invalid

/-- A literal is refused if its value does not fit the range. -/
def parse (c : Decimal.Context) (literal : List Char) : Outcome Decimal :=
  match read c literal with
  | .error .overflow | .error .subnormal =>
    .error (.unsuitable ("Decimal literal " ++ String.ofList literal ++ " is out of range"))
  | result => raw result

/-- The shortest text of a double gives the decimal. -/
def ofDouble (c : Decimal.Context) (x : Float) : Outcome Decimal :=
  let text := Binary64.write x
  if x.isFinite then reported (read c text.toList) else .error (overflow name ("value " ++ text))

def digitOf? : Datum → Option Nat
  | .int n => if 0 ≤ n ∧ n ≤ 9 then some n.toNat else none
  | _ => none

def ofParts? : List Datum → Option Decimal
  | [.int sign, .list digits, .int exponent] => do
    let digits ← digits.mapM digitOf?
    if sign = 0 ∨ sign = 1 then some (finite (sign = 1) (Numeral.ofDigits digits) exponent) else none
  | _ => none

def coerce (c : Decimal.Context) : Datum → Outcome Decimal
  | .float x => ofDouble c x
  | .int n => reported (create c (Decimal.ofInt n))
  | .bool value => reported (create c (if value then one else zero))
  | .decimal x => reported (create c x)
  | .text text => reported (read c text.toList)
  | .list values =>
    match ofParts? values with
    | some x => reported (create c x)
    | none => .error (.unsuitable "a list is no sign with digits and exponent")
  | .absent | .complex _ | .fraction .. => .error .mistyped

/-- Without zeros at the end; positional if the leading digit is near the point. -/
def format (c : Decimal.Context) (x : Decimal) : Outcome String := do
  let normalized ← raw (c.normalize x)
  if normalized.adjusted.natAbs < c.precision then return normalized.writePositional
  else return normalized.write

def toDouble (c : Decimal.Context) (x : Decimal) : Outcome Float := do
  if x.isSignaling then throw (.unsuitable "cannot convert signaling NaN to float")
  let value := x.toFloat
  if value.isFinite then return value else throw (overflow name ("value " ++ (← format c x)))

def wholePart (x : Decimal) : Outcome Int :=
  if x.isNotANumber then .error (.unsuitable "cannot convert NaN to integer")
  else if x.isInfinite then .error (.outOfRange "cannot convert Infinity to integer")
  else .ok x.toInt

def divide (c : Decimal.Context) (x y : Decimal) : Outcome Decimal := do
  if ← raw (isEqual y zero) then throw divisionByZero
  reported (c.div x y)

def remainderOf (c : Decimal.Context) (x y : Decimal) : Outcome Decimal := do
  if ← raw (isEqual y zero) then throw divisionByZero
  reported (c.rem x y)

def powerOf (c : Decimal.Context) (x y : Decimal) : Outcome Decimal := do
  if ← raw (isEqual x zero) then
    if ← raw (isLess y zero) then throw divisionByZero
  reported (c.power x y)

/-- Rounds to a whole number, whatever its length. -/
def roundTo (c : Decimal.Context) (mode : Rounding) (x : Decimal) : Except Signal Decimal :=
  if x.isNotANumber then c.handOn x else .ok (x.roundToWhole mode)

/-- Whether a decimal equals its rounded value, as infinities do. -/
def isInteger (x : Decimal) : Except Signal Bool := isEqual x (x.roundToWhole .halfEven)

/-- The elementary functions; angles are in degrees. -/
def native? (c : Decimal.Context) : Elementary → Option (List Decimal → Outcome Decimal)
  | .sqrt => some (onOne fun x => reported (c.sqrt x))
  | .cbrt => some (onOne fun x => computed (c.cbrt x))
  | .exp => some (onOne fun x => computed (c.exp x))
  | .ln => some (onOne fun x => computed (c.ln x))
  | .log => some (onOne fun x => computed (c.log10 x))
  | .sin => some (onOne fun x => computed (c.sin true x))
  | .cos => some (onOne fun x => computed (c.cos true x))
  | .tan => some (onOne fun x => computed (c.tan true x))
  | .asin => some (onOne fun x => computed (c.asin true x))
  | .acos => some (onOne fun x => computed (c.acos true x))
  | .atan => some (onOne fun x => computed (c.atan true x))
  | .atan2 => some fun arguments =>
    match arguments with
    | [y, x] => computed (c.atan2 true y x)
    | _ => .error .mistyped
  | .sinh => some (onOne fun x => computed (c.sinh x))
  | .cosh => some (onOne fun x => computed (c.cosh x))
  | .tanh => some (onOne fun x => computed (c.tanh x))
  | .asinh => some (onOne fun x => computed (c.asinh x))
  | .acosh => some (onOne fun x => computed (c.acosh x))
  | .atanh => some (onOne fun x => computed (c.atanh x))
  | .toRadians => some (onOne fun x => computed (c.toRadians x))
  | .toDegrees => some (onOne fun x => computed (c.toDegrees x))
  | .abs | .gamma => none

def constants (c : Decimal.Context) : Outcome (List (String × Decimal)) := do
  let pi ← computed c.piConstant
  let e ← computed c.eConstant
  return [("PI", pi), ("E", e)]

def system (c : Decimal.Context) : NumberSystem Decimal where
  name := name
  label := "DecimalNumeric(precision=" ++ toString c.precision ++ ")"
  checked := true
  literals := .decimal
  native? := native? c
  parse := parse c
  format := format c
  write := fun x => .ok x.write
  coerce := coerce c
  toDatum := .decimal
  ofInt := fun n => reported (create c (Decimal.ofInt n))
  ofFloat := ofDouble c
  toFloat := toDouble c
  toInt := wholePart
  constants := constants c
  add := fun x y => reported (c.add x y)
  sub := fun x y => reported (c.sub x y)
  mul := fun x y => reported (c.mul x y)
  div := divide c
  rem := remainderOf c
  neg := fun x => reported (c.neg x)
  pow := powerOf c
  toIntegral := fun mode x => raw (roundTo c mode x)
  compare := fun x y => raw (compareOrdered x y)
  equals := fun x y => raw (isEqual x y)
  isZero := fun x => raw (isEqual x zero)
  isFinite := fun _ => true
  isInteger := fun x => raw (isInteger x)

end Reckoner.NumberSystem.Decimals

import Reckoner.NumberSystem.Floating
import Reckoner.ComplexFloat.Elementary

/-! Complex numbers as a number system. Arithmetic does not fail; operations on an order need real
numbers. -/

namespace Reckoner.NumberSystem.Complex

open Reckoner.Binary64 Reckoner.ComplexFloat

def realPart (z : ComplexFloat) : Outcome Float :=
  if z.im != 0.0 then
    .error (.report .invalidInput (writePlain z ++ " has a non-zero imaginary part"))
  else .ok z.re

def ofNoValue : NoValue → Fault
  | .domain => .unsuitable "math domain error"
  | .range => .outOfRange "math range error"
  | .arguments => .mistyped

def ofNoPower : NoPower → Fault
  | .ofZero | .direction => .divisionByZero "0.0 to a negative or complex power"
  | .range => .outOfRange "complex exponentiation"

def absolute (z : ComplexFloat) : Outcome ComplexFloat :=
  let size := z.modulus
  if size.isInf && z.isFinite then .error (.outOfRange "absolute value too large")
  else .ok (ofReal size)

def ofValue (value : Value) : Outcome ComplexFloat := value.mapError ofNoValue

/-- The functions of one argument. Angles are in degrees. -/
def unary? : Elementary → Option (ComplexFloat → Outcome ComplexFloat)
  | .abs => some absolute
  | .sqrt => some fun z => .ok (ComplexFloat.sqrt z)
  | .cbrt => some fun z => (ComplexFloat.cbrt z).mapError ofNoPower
  | .exp => some fun z => ofValue (ComplexFloat.exp z)
  | .ln => some fun z => ofValue (ComplexFloat.ln z)
  | .log => some fun z => ofValue (ComplexFloat.log10 z)
  | .sin => some fun z => ofValue (ComplexFloat.sin (ComplexFloat.radiansOf z))
  | .cos => some fun z => ofValue (ComplexFloat.cos (ComplexFloat.radiansOf z))
  | .tan => some fun z => ofValue (ComplexFloat.tan (ComplexFloat.radiansOf z))
  | .asin => some fun z => .ok (ComplexFloat.degreesOf (ComplexFloat.asin z))
  | .acos => some fun z => .ok (ComplexFloat.degreesOf (ComplexFloat.acos z))
  | .atan => some fun z => ofValue ((ComplexFloat.atan z).map ComplexFloat.degreesOf)
  | .sinh => some fun z => ofValue (ComplexFloat.sinh z)
  | .cosh => some fun z => ofValue (ComplexFloat.cosh z)
  | .tanh => some fun z => ofValue (ComplexFloat.tanh z)
  | .asinh => some fun z => .ok (ComplexFloat.asinh z)
  | .acosh => some fun z => .ok (ComplexFloat.acosh z)
  | .atanh => some fun z => ofValue (ComplexFloat.atanh z)
  | .toRadians => some fun z => .ok (ComplexFloat.radiansOf z)
  | .toDegrees => some fun z => .ok (ComplexFloat.degreesOf z)
  | .gamma | .atan2 => none

/-- Reads a literal: a double, or one with an imaginary unit behind it. -/
def parse (literal : List Char) : Outcome ComplexFloat :=
  match literal.getLast? with
  | none => .error .missing
  | some last =>
    if last == 'i' || last == 'j' then
      (Floating.read (String.ofList literal.dropLast)).map fun y => ⟨0.0, y⟩
    else (Floating.read (String.ofList literal)).map ofReal

/-- Reads a number whose imaginary unit may be `i` at the end or `j`. -/
def read (text : List Char) : Outcome ComplexFloat :=
  let text := if text.getLast? = some 'i' then text.dropLast ++ ['j'] else text
  match ComplexFloat.read? text with
  | some z => .ok z
  | none => .error (.unsuitable (Quoted.quote (String.ofList text) ++ " is no complex number"))

def coerce : Datum → Outcome ComplexFloat
  | .int n => .ok (ofReal (Binary64.ofInt n))
  | .bool value => .ok (ofReal (if value then 1.0 else 0.0))
  | .float x => .ok (ofReal x)
  | .complex z => .ok z
  | .decimal value => (Floating.ofDecimal value).map ofReal
  | .fraction numerator denominator => (Floating.ofFraction numerator denominator).map ofReal
  | .text text => read text.toList
  | .absent | .list _ => .error .mistyped

/-- The quotient; division by zero gives no number for zero and infinities for all others. -/
def divide (z w : ComplexFloat) : ComplexFloat :=
  match div? z w with
  | some quotient => quotient
  | none => if z.isZero then ⟨nan, nan⟩ else ⟨infinity, infinity⟩

def powerOf (z w : ComplexFloat) : ComplexFloat :=
  match ComplexFloat.power z w with
  | .ok value => value
  | .error _ => ⟨infinity, infinity⟩

def system : NumberSystem ComplexFloat where
  name := "complex"
  label := "ComplexNumeric()"
  checked := false
  literals := .complex
  native? := fun function => (unary? function).map onOne
  parse := parse
  format := fun z => .ok (ComplexFloat.writePlain z)
  write := fun z => .ok z.write
  coerce := coerce
  toDatum := .complex
  ofInt := fun n => .ok (ofReal (Binary64.ofInt n))
  ofFloat := fun x => .ok (ofReal x)
  toFloat := realPart
  toInt := fun z => do Floating.wholePart (← realPart z)
  constants := do return (← standardConstants coerce) ++ [("i", ComplexFloat.i)]
  add := fun z w => .ok (ComplexFloat.add z w)
  sub := fun z w => .ok (ComplexFloat.sub z w)
  mul := fun z w => .ok (ComplexFloat.mul z w)
  div := fun z w => .ok (divide z w)
  rem := fun z w => do return ofReal (Floating.remainderOf (← realPart z) (← realPart w))
  neg := fun z => .ok (ComplexFloat.sub ⟨0.0, 0.0⟩ z)
  pow := fun z w => .ok (powerOf z w)
  toIntegral := fun mode z => .ok ⟨Floating.roundTo mode z.re, Floating.roundTo mode z.im⟩
  compare := fun z w => do return Floating.order (← realPart z) (← realPart w)
  equals := fun z w => .ok (equal z w)
  isZero := fun z => .ok z.isZero
  isFinite := ComplexFloat.isFinite
  isInteger := fun z => .ok (z.im == 0.0 && isWhole z.re)

end Reckoner.NumberSystem.Complex

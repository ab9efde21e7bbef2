import Reckoner.Binary64.Basic
import Reckoner.Elementary

/-! Elementary functions of doubles. A function has no value outside its domain, at its poles and
where the result is beyond the range; infinite arguments may have an infinite result. -/

namespace Reckoner.Binary64

inductive NoValue where
  /-- The argument is outside the domain, or a pole. -/
  | domain
  /-- The result is beyond the range. -/
  | range
  /-- The number of arguments is wrong. -/
  | arguments
  deriving Repr, DecidableEq

def pi : Float := 3.141592653589793

def isFinite (x : Float) : Bool := x.isFinite

def hypotenuse (x y : Float) : Float :=
  if x.isInf || y.isInf then infinity
  else if x.isNaN || y.isNaN then nan
  else
    let p := parts x
    let q := parts y
    let low := min p.exponent q.exponent
    let m := p.significand <<< (p.exponent - low).toNat
    let n := q.significand <<< (q.exponent - low).toNat
    let square := m * m + n * n
    let shift := 60 - min 60 (square.log2 / 2)
    let scaled := square <<< (2 * shift)
    let root := Nat.sqrt scaled
    let sticky := if root * root = scaled then 0 else 1
    let (numerator, denominator) := scaleRatio (2 * root + sticky) 1 (shift + 1 - low)
    ofRatio false numerator denominator

/-- The logarithm of `1 + x`, without the loss of digits that the sum would bring. -/
def logOnePlus (x : Float) : Float :=
  let u := 1.0 + x
  if u == 1.0 then x else if u.isInf then x.log else u.log * (x / (u - 1.0))

def sinPi (x : Float) : Float :=
  let y := remainder x.abs 2.0
  let half := (2.0 * y).round
  let value :=
    if half == 0.0 then (pi * y).sin
    else if half == 1.0 then (pi * (y - 0.5)).cos
    else if half == 2.0 then (pi * (1.0 - y)).sin
    else if half == 3.0 then -(pi * (y - 1.5)).cos
    else (pi * (y - 2.0)).sin
  if isNegative x then -value else value

def lanczosCoefficients : List (Float × Float) := [
  (23531376880.410759688572007674451636754734846804940, 0.0),
  (42919803642.649098768957899047001988850926355848959, 39916800.0),
  (35711959237.355668049440185451547166705960488635843, 120543840.0),
  (17921034426.037209699919755754458931112671403265390, 150917976.0),
  (6039542586.3520280050642916443072979210699388420708, 105258076.0),
  (1439720407.3117216736632230727949123939715485786372, 45995730.0),
  (248874557.86205415651146038641322942321632125127801, 13339535.0),
  (31426415.585400194380614231628318205362874684987640, 2637558.0),
  (2876370.6289353724412254090516208496135991145378768, 357423.0),
  (186056.26539522349504029498971604569928220784236328, 32670.0),
  (8071.6720023658162106380029022722506138218516325024, 1925.0),
  (210.82427775157934587250973392071336271166969580291, 66.0),
  (2.5066282746310002701649081771338373386264310793408, 1.0)]

/-- The rational function at a positive argument. From five on it is read in the powers of the
reciprocal, so that it stays in range. -/
def lanczosSum (x : Float) : Float :=
  let (numerator, denominator) :=
    if x < 5.0 then
      lanczosCoefficients.foldr
        (fun (a, b) (numerator, denominator) => (numerator * x + a, denominator * x + b)) (0.0, 0.0)
    else
      lanczosCoefficients.foldl
        (fun (numerator, denominator) (a, b) => (numerator / x + a, denominator / x + b)) (0.0, 0.0)
  numerator / denominator

def lanczosShift : Float := 6.024680040776729583740234375

/-- The gamma function where it is neither tiny nor huge; the power is split in two where it would be
out of range. -/
def gammaMiddle (x : Float) : Float :=
  let size := x.abs
  let half := lanczosShift - 0.5
  let y := size + half
  let error := if half < size then (y - size) - half else (y - half) - size
  let z := error * lanczosShift / y
  let first :=
    if x < 0.0 then -pi / sinPi size / size * y.exp / lanczosSum size else lanczosSum size / y.exp
  let corrected := if x < 0.0 then first - z * first else first + z * first
  if x < 0.0 then
    if size < 140.0 then corrected / y.pow (size - 0.5)
    else
      let root := y.pow (size / 2.0 - 0.25)
      corrected / root / root
  else
    if size < 140.0 then corrected * y.pow (size - 0.5)
    else
      let root := y.pow (size / 2.0 - 0.25)
      corrected * root * root

def smallFactorial (n : Nat) : Float :=
  ofInt ((List.range n).foldl (fun product i => product * (i + 1)) 1 : Nat)

/-- The gamma function. Its poles are zero and the negative whole numbers. -/
def gamma (x : Float) : Except NoValue Float :=
  if x.isNaN then .ok x
  else if x.isInf then if isNegative x then .error .domain else .ok x
  else if x == 0.0 then .error .domain
  else if isWhole x && x < 0.0 then .error .domain
  else if isWhole x && x <= 23.0 then .ok (smallFactorial ((toInt .truncate x).toNat - 1))
  else if x.abs < 1e-20 then
    let reciprocal := 1.0 / x
    if reciprocal.isInf then .error .range else .ok reciprocal
  else if 200.0 < x.abs then
    if x < 0.0 then .ok (0.0 / sinPi x) else .error .range
  else
    let value := gammaMiddle x
    if value.isInf then .error .range else .ok value

/-- The value of a function that never leaves the range of doubles, but may have poles. -/
def withPoles (function : Float → Float) (x : Float) : Except NoValue Float :=
  let value := function x
  if (value.isNaN && !x.isNaN) || (value.isInf && isFinite x) then .error .domain else .ok value

/-- The value of a function without poles that grows beyond the range of doubles. -/
def withOverflow (function : Float → Float) (x : Float) : Except NoValue Float :=
  let value := function x
  if value.isNaN && !x.isNaN then .error .domain
  else if value.isInf && isFinite x then .error .range
  else .ok value

def logarithm (function : Float → Float) (x : Float) : Except NoValue Float :=
  if x == 0.0 then .ok (-infinity) else withPoles function x

/-- Degrees per radian and radians per degree are rounded once each. -/
def radiansOf (x : Float) : Float := x * (pi / 180.0)

def degreesOf (x : Float) : Float := x * (180.0 / pi)

def power (x y : Float) : Except NoValue Float :=
  let value := x.pow y
  if isFinite x && isFinite y then
    if value.isNaN then .error .domain
    else if value.isInf then .error (if x == 0.0 then .domain else .range)
    else .ok value
  else .ok value

/-- The elementary functions of one argument. Angles are in degrees. -/
def unary? : Elementary → Option (Float → Except NoValue Float)
  | .sqrt => some (withPoles Float.sqrt)
  | .cbrt => some (withPoles Float.cbrt)
  | .exp => some (withOverflow Float.exp)
  | .ln => some (logarithm Float.log)
  | .log => some (logarithm Float.log10)
  | .gamma => some gamma
  | .toRadians => some fun x => .ok (radiansOf x)
  | .toDegrees => some fun x => .ok (degreesOf x)
  | .sin => some fun x => withPoles Float.sin (radiansOf x)
  | .cos => some fun x => withPoles Float.cos (radiansOf x)
  | .tan => some fun x => withPoles Float.tan (radiansOf x)
  | .asin => some fun x => (withPoles Float.asin x).map degreesOf
  | .acos => some fun x => (withPoles Float.acos x).map degreesOf
  | .atan => some fun x => (withPoles Float.atan x).map degreesOf
  | .sinh => some fun x =>
    let value := x.sinh
    .ok (if value.isInf then copySign infinity x else value)
  | .cosh => some (withOverflow Float.cosh)
  | .tanh => some (withPoles Float.tanh)
  | .asinh => some (withPoles Float.asinh)
  | .acosh => some (withPoles Float.acosh)
  | .atanh => some (withPoles Float.atanh)
  | .abs | .atan2 => none

def onArgument (apply : Float → Except NoValue Float) : List Float → Except NoValue Float
  | [x] => apply x
  | _ => .error .arguments

def elementary? (function : Elementary) : Option (List Float → Except NoValue Float) :=
  if function = .atan2 then
    some fun arguments =>
      match arguments with
      | [y, x] => .ok (degreesOf (Float.atan2 y x))
      | _ => .error .arguments
  else
    (unary? function).map onArgument

end Reckoner.Binary64

import Reckoner.Decimal.Constants
import Reckoner.Decimal.Power

/-! Elementary functions of decimals. Each one works with `guardDigits` more digits, brings its
argument into a range where a series converges fast, and rounds the result to the precision. -/

namespace Reckoner.Decimal

/-- How many digits more than its result a function works with. -/
def guardDigits : Nat := 5

namespace Context

def guarded (c : Context) (compute : Context → Constants → Computed Decimal) :
    Computed Decimal := do
  let work := c.widen guardDigits
  let result ← compute work (← Constants.ofPrecision work.precision)
  c.plus result

/-- `e ^ x = 2 ^ k * e ^ r` with `r` at most half of `ln 2`. -/
def expWork (c : Context) (k : Constants) (x : Decimal) : Computed Decimal := do
  let twos := (← c.div x k.lnTwo).roundToWhole .halfEven
  let rest ← c.sub x (← c.mul twos k.lnTwo)
  let sum ← c.expSeries rest
  c.mul sum.total (← c.power (ofInt 2) (ofInt twos.toInt))

/-- Halves a decimal until it is at most the square root of two; the count tells how often. -/
def halveToRoot (c : Context) (k : Constants) : Nat → Nat → Decimal → Except Signal (Nat × Decimal)
  | 0, count, m => .ok (count, m)
  | fuel + 1, count, m => do
    if ← isLess k.rootTwo m then
      c.halveToRoot k fuel (count + 1) (← c.div m (ofInt 2))
    else return (count, m)

/-- `x = m * 2 ^ halvings * 10 ^ tens`, and `ln m` is twice the inverse hyperbolic tangent of
`(m - 1) / (m + 1)`. -/
def lnWork (c : Context) (k : Constants) (x : Decimal) : Computed Decimal := do
  if ← isAtMost x zero then throw (.outside .logarithm)
  let tens := x.adjusted
  let (halvings, m) ← c.halveToRoot k halvingBound 0 (← c.scale x (-tens))
  let ratio ← c.div (← c.sub m one) (← c.add m one)
  let near ← c.mul (ofInt 2) (← c.atanhSeries ratio).total
  let sum ← c.add near (← c.mul (ofInt halvings) k.lnTwo)
  c.add sum (← c.mul (ofInt tens) k.lnTen)

def radians (c : Context) (k : Constants) (x : Decimal) : Except Signal Decimal := do
  c.div (← c.mul x k.pi) (ofInt 180)

def degrees (c : Context) (k : Constants) (x : Decimal) : Except Signal Decimal := do
  c.div (← c.mul x (ofInt 180)) k.pi

/-- The angle between `-π` and `π` of the same direction. -/
def reduceAngle (c : Context) (k : Constants) (x : Decimal) : Except Signal Decimal := do
  let x ← c.rem x k.twoPi
  if ← isLess k.pi x then c.sub x k.twoPi
  else if ← isLess x (← c.neg k.pi) then c.add x k.twoPi
  else return x

/-- A result that is zero up to the precision, though the angle is not, counts as zero. -/
def snap (c : Context) (result angle : Decimal) : Except Signal Decimal := do
  let epsilon ← c.epsilon
  if ← isLess (← c.abs result) epsilon then
    if ← isAtMost epsilon (← c.abs angle) then return zero
  return result

def sinReduced (c : Context) (k : Constants) (x : Decimal) : Except Signal Decimal := do
  return (← c.sinSeries (← c.reduceAngle k x)).total

def cosReduced (c : Context) (k : Constants) (x : Decimal) : Except Signal Decimal := do
  return (← c.cosSeries (← c.reduceAngle k x)).total

/-- The sine; in degrees its zeros are exact. -/
def sinWork (c : Context) (k : Constants) (inDegrees : Bool) (x : Decimal) :
    Except Signal Decimal := do
  if inDegrees then
    if ← isEqual (← c.rem x (ofInt 180)) zero then return zero
    c.sinReduced k (← c.radians k (← c.rem x (ofInt 360)))
  else c.snap (← c.sinReduced k x) x

def cosWork (c : Context) (k : Constants) (inDegrees : Bool) (x : Decimal) :
    Except Signal Decimal := do
  if inDegrees then
    if ← isEqual (← c.rem (← c.sub x (ofInt 90)) (ofInt 180)) zero then return zero
    c.cosReduced k (← c.radians k (← c.rem x (ofInt 360)))
  else c.snap (← c.cosReduced k x) x

/-- The inverse tangent by way of its reciprocal above one, and of half the angle above
`atanLimit`. -/
def atanWork (c : Context) (k : Constants) (x : Decimal) : Except Signal Decimal := do
  if ← isEqual x zero then return zero
  let negative ← isLess x zero
  let x ← c.abs x
  let inverted ← isLess one x
  let x ← if inverted then c.div one x else pure x
  let angle ← c.atanReduced x
  let angle ← if inverted then c.sub k.halfPi angle else pure angle
  if negative then c.neg angle else return angle

def asinWork (c : Context) (k : Constants) (x : Decimal) : Computed Decimal := do
  if ← isLess one (← c.abs x) then throw (.outside .inverseSine)
  if ← isEqual (← c.abs x) one then return k.halfPi.copySign x
  c.atanWork k (← c.div x (← c.sqrt (← c.sub one (← c.mul x x))))

def inUnit (c : Context) (k : Constants) (inDegrees : Bool) (angle : Decimal) :
    Except Signal Decimal :=
  if inDegrees then c.degrees k angle else .ok angle

/-- Newton's steps toward the cube root, until two neighbours agree to the precision. -/
def cubeRootSteps (c : Context) (epsilon a : Decimal) : Nat → Decimal → Except Signal Decimal
  | 0, y => .ok y
  | fuel + 1, y => do
    let doubled ← c.mul (ofInt 2) y
    let following ← c.div (← c.add doubled (← c.div a (← c.mul y y))) (ofInt 3)
    if ← isAtMost (← c.abs (← c.sub following y)) (← c.mul epsilon following) then return following
    c.cubeRootSteps epsilon a fuel following

def cubeRootWork (c : Context) (x : Decimal) : Except Signal Decimal := do
  if ← isEqual x zero then return zero
  let a ← c.abs x
  let start ← c.power (ofInt 10) (ofInt (a.adjusted.fdiv 3))
  let root ← c.cubeRootSteps (← c.epsilon) a seriesBound start
  return root.copySign x

/-- The angle of the point `(x, y)`. -/
def atan2Work (c : Context) (k : Constants) (y x : Decimal) : Except Signal Decimal := do
  if ← isLess zero x then c.atanWork k (← c.div y x)
  else if ← isLess x zero then
    let angle ← c.atanWork k (← c.div y x)
    let turn ← if ← isAtMost zero y then pure k.pi else c.neg k.pi
    c.add angle turn
  else if ← isLess zero y then return k.halfPi
  else if ← isLess y zero then c.neg k.halfPi
  else return zero

/-- The hyperbolic tangent; it is one up to the precision for large arguments. -/
def tanhWork (c : Context) (k : Constants) (x : Decimal) : Computed Decimal := do
  let size ← c.mul (ofInt 2) (← c.abs x)
  if ← isLess (← c.mul k.lnTen (ofInt (c.precision + 1))) size then return one.copySign x
  let square ← c.expWork k (← c.mul (ofInt 2) x)
  c.div (← c.sub square one) (← c.add square one)

def piConstant (c : Context) : Computed Decimal := c.guarded fun _ k => return k.pi

def eConstant (c : Context) : Computed Decimal := c.guarded fun _ k => return k.e

def exp (c : Context) (x : Decimal) : Computed Decimal := c.guarded fun w k => w.expWork k x

def ln (c : Context) (x : Decimal) : Computed Decimal := c.guarded fun w k => w.lnWork k x

def log10 (c : Context) (x : Decimal) : Computed Decimal :=
  c.guarded fun w k => do w.div (← w.lnWork k x) k.lnTen

def log (c : Context) (x base : Decimal) : Computed Decimal :=
  c.guarded fun w k => do w.div (← w.lnWork k x) (← w.lnWork k base)

def cbrt (c : Context) (x : Decimal) : Computed Decimal :=
  c.guarded fun w _ => w.cubeRootWork x

def sin (c : Context) (inDegrees : Bool) (x : Decimal) : Computed Decimal :=
  c.guarded fun w k => w.sinWork k inDegrees x

def cos (c : Context) (inDegrees : Bool) (x : Decimal) : Computed Decimal :=
  c.guarded fun w k => w.cosWork k inDegrees x

def tan (c : Context) (inDegrees : Bool) (x : Decimal) : Computed Decimal :=
  c.guarded fun w k => do w.div (← w.sinWork k inDegrees x) (← w.cosWork k inDegrees x)

def asin (c : Context) (inDegrees : Bool) (x : Decimal) : Computed Decimal :=
  c.guarded fun w k => do w.inUnit k inDegrees (← w.asinWork k x)

def acos (c : Context) (inDegrees : Bool) (x : Decimal) : Computed Decimal :=
  c.guarded fun w k => do w.inUnit k inDegrees (← w.sub k.halfPi (← w.asinWork k x))

def atan (c : Context) (inDegrees : Bool) (x : Decimal) : Computed Decimal :=
  c.guarded fun w k => do w.inUnit k inDegrees (← w.atanWork k x)

def atan2 (c : Context) (inDegrees : Bool) (y x : Decimal) : Computed Decimal :=
  c.guarded fun w k => do w.inUnit k inDegrees (← w.atan2Work k y x)

def sinh (c : Context) (x : Decimal) : Computed Decimal :=
  c.guarded fun w k => do
    let e ← w.expWork k x
    w.div (← w.sub e (← w.div one e)) (ofInt 2)

def cosh (c : Context) (x : Decimal) : Computed Decimal :=
  c.guarded fun w k => do
    let e ← w.expWork k x
    w.div (← w.add e (← w.div one e)) (ofInt 2)

def tanh (c : Context) (x : Decimal) : Computed Decimal :=
  c.guarded fun w k => w.tanhWork k x

def asinh (c : Context) (x : Decimal) : Computed Decimal :=
  c.guarded fun w k => do
    let a ← w.abs x
    let root ← w.sqrt (← w.add (← w.mul a a) one)
    return (← w.lnWork k (← w.add a root)).copySign x

def acosh (c : Context) (x : Decimal) : Computed Decimal :=
  c.guarded fun w k => do
    if ← isLess x one then throw (.outside .inverseHyperbolicCosine)
    let root ← w.sqrt (← w.sub (← w.mul x x) one)
    w.lnWork k (← w.add x root)

def atanh (c : Context) (x : Decimal) : Computed Decimal :=
  c.guarded fun w k => do
    if ← isAtMost one (← w.abs x) then throw (.outside .inverseHyperbolicTangent)
    let ratio ← w.div (← w.add one x) (← w.sub one x)
    w.div (← w.lnWork k ratio) (ofInt 2)

def toRadians (c : Context) (x : Decimal) : Computed Decimal :=
  c.guarded fun w k => w.radians k x

def toDegrees (c : Context) (x : Decimal) : Computed Decimal :=
  c.guarded fun w k => w.degrees k x

end Context

end Reckoner.Decimal

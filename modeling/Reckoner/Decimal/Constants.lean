import Reckoner.Decimal.Arithmetic

/-! Sums of power series in a decimal context, and the constants that the reductions of arguments
need. A series stops at the first term below `10 ^ (-precision)` and has a bound on its terms. -/

namespace Reckoner.Decimal

inductive Domain where
  | logarithm
  | inverseSine
  | inverseHyperbolicCosine
  | inverseHyperbolicTangent
  deriving Repr, DecidableEq

def Domain.message : Domain → String
  | logarithm => "Logarithm is only defined for positive values"
  | inverseSine => "Inverse sine is only defined for values in [-1, 1]"
  | inverseHyperbolicCosine => "Inverse hyperbolic cosine is only defined for values >= 1"
  | inverseHyperbolicTangent => "Inverse hyperbolic tangent is only defined for values in (-1, 1)"

inductive Failure where
  | signal (signal : Signal)
  | outside (domain : Domain)
  deriving Repr, DecidableEq

abbrev Computed := Except Failure

def lift {α : Type} (result : Except Signal α) : Computed α := result.mapError .signal

instance : MonadLift (Except Signal) (Except Failure) := ⟨lift⟩

/-- The order of two decimals; no number has a place in it. -/
def compareOrdered (x y : Decimal) : Except Signal Ordering :=
  if x.isNotANumber || y.isNotANumber then .error .invalid else .ok (order x y)

def isLess (x y : Decimal) : Except Signal Bool := (compareOrdered x y).map (· == .lt)

def isAtMost (x y : Decimal) : Except Signal Bool := (compareOrdered x y).map (· != .gt)

/-- Equality of values. No number equals nothing, and a signalling one is reported. -/
def isEqual (x y : Decimal) : Except Signal Bool :=
  if x.isSignaling || y.isSignaling then .error .invalid
  else .ok (!x.isNotANumber && !y.isNotANumber && order x y == .eq)

/-- The most terms that a series adds to its first one. -/
def seriesBound : Nat := 100

/-- A partial sum, and whether the last term was below the bound that ends the series. -/
structure PartialSum where
  total : Decimal
  settled : Bool

namespace Context

/-- Terms below this do not count. -/
def epsilon (c : Context) : Except Signal Decimal := c.scale one (-c.precision)

/-- Adds terms to a total. `next` gives, for the number of a term, the carried factor and the term. -/
def addTerms (c : Context) (epsilon : Decimal)
    (next : Nat → Decimal → Except Signal (Decimal × Decimal)) :
    Nat → Nat → Decimal → Decimal → Except Signal PartialSum
  | 0, _, _, total => .ok ⟨total, false⟩
  | fuel + 1, index, factor, total => do
    let (factor, term) ← next index factor
    let total ← c.add total term
    if ← isLess (← c.abs term) epsilon then return ⟨total, true⟩
    c.addTerms epsilon next fuel (index + 1) factor total

def sumSeries (c : Context) (first : Decimal)
    (next : Nat → Decimal → Except Signal (Decimal × Decimal)) : Except Signal PartialSum := do
  c.addTerms (← c.epsilon) next seriesBound 1 first first

def expSeries (c : Context) (x : Decimal) : Except Signal PartialSum :=
  c.sumSeries one fun index term => do
    let term ← c.div (← c.mul term x) (ofInt index)
    return (term, term)

def atanhSeries (c : Context) (y : Decimal) : Except Signal PartialSum := do
  let square ← c.mul y y
  c.sumSeries y fun index power => do
    let power ← c.mul power square
    return (power, ← c.div power (ofInt (2 * index + 1)))

def atanSeries (c : Context) (x : Decimal) : Except Signal PartialSum := do
  let square ← c.mul x x
  c.sumSeries x fun index power => do
    let power ← c.mul (← c.neg power) square
    return (power, ← c.div power (ofInt (2 * index + 1)))

def sinSeries (c : Context) (x : Decimal) : Except Signal PartialSum := do
  let square ← c.mul x x
  c.sumSeries x fun index term => do
    let term ← c.div (← c.mul (← c.neg term) square) (ofInt (2 * index * (2 * index + 1)))
    return (term, term)

def cosSeries (c : Context) (x : Decimal) : Except Signal PartialSum := do
  let square ← c.mul x x
  c.sumSeries one fun index term => do
    let term ← c.div (← c.mul (← c.neg term) square) (ofInt ((2 * index - 1) * (2 * index)))
    return (term, term)

/-- The most halvings of an argument of the inverse tangent or of the logarithm. The halvings themselves go on without
a bound, until the argument is near zero or one. A finite argument is there after two of them in the one loop and
three in the other, so that the bound is never reached; an infinite argument of the logarithm stays infinite and would
be halved without end, where here the loop ends with it. -/
def halvingBound : Nat := 8

def atanLimit : Decimal := finite false 2 (-1)

/-- Replaces `x` by the tangent of half its angle until it is small; the count tells how often. -/
def halveAngle (c : Context) : Nat → Nat → Decimal → Except Signal (Nat × Decimal)
  | 0, count, x => .ok (count, x)
  | fuel + 1, count, x => do
    if ← isLess atanLimit x then
      let root ← c.sqrt (← c.add one (← c.mul x x))
      c.halveAngle fuel (count + 1) (← c.div x (← c.add one root))
    else return (count, x)

def atanReduced (c : Context) (x : Decimal) : Except Signal Decimal := do
  let (doublings, x) ← c.halveAngle halvingBound 0 x
  c.mul (← c.atanSeries x).total (ofInt (2 ^ doublings))

end Context

structure Constants where
  pi : Decimal
  e : Decimal
  halfPi : Decimal
  twoPi : Decimal
  lnTwo : Decimal
  lnTen : Decimal
  rootTwo : Decimal
  deriving Repr, DecidableEq

namespace Constants

def fortyDigits : Constants where
  pi := finite false 3141592653589793238462643383279502884197 (-39)
  e := finite false 2718281828459045235360287471352662497757 (-39)
  halfPi := finite false 1570796326794896619231321691639751442099 (-39)
  twoPi := finite false 6283185307179586476925286766559005768394 (-39)
  lnTwo := finite false 6931471805599453094172321214581765680755 (-40)
  lnTen := finite false 2302585092994045684017991454684364207601 (-39)
  rootTwo := finite false 1414213562373095048801688724209698078570 (-39)

def wideRange (precision : Nat) : Context := ⟨precision, -999999, 999999, false⟩

/-- The constants from their series, with five more digits than asked for. -/
def derive (precision : Nat) : Except Signal Constants := do
  let c := wideRange (precision + 5)
  let rootTwo ← c.sqrt (ofInt 2)
  let pi ← c.mul (ofInt 4) (← c.atanReduced one)
  let ratio ← c.div (← c.sub rootTwo one) (← c.add rootTwo one)
  let lnTwo ← c.mul (ofInt 4) (← c.atanhSeries ratio).total
  let ninth ← c.div one (ofInt 9)
  let lnTen ← c.add (← c.mul (ofInt 3) lnTwo) (← c.mul (ofInt 2) (← c.atanhSeries ninth).total)
  let e ← c.expSeries one
  return {
    pi, lnTwo, lnTen, rootTwo
    e := e.total
    halfPi := ← c.div pi (ofInt 2)
    twoPi := ← c.mul (ofInt 2) pi }

/-- The constants good to a working precision. -/
def ofPrecision (precision : Nat) : Except Signal Constants :=
  if precision ≤ 40 then .ok fortyDigits else derive precision

end Constants

end Reckoner.Decimal

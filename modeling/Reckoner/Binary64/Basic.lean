import Reckoner.Power
import Reckoner.Rounding

/-! Double precision numbers as exact values: a finite one is a signed whole number times a power of
two, and every ratio of natural numbers has a nearest double. -/

namespace Reckoner.Binary64

def infinity : Float := Float.ofBits 0x7ff0000000000000

def nan : Float := Float.ofBits 0x7ff8000000000000

/-- The sign bit, which zeros and NaNs have too. -/
def isNegative (x : Float) : Bool := x.toBits >>> 63 == 1

def signedInfinity (negative : Bool) : Float := if negative then -infinity else infinity

def copySign (x sign : Float) : Float :=
  Float.ofBits ((x.toBits &&& 0x7fffffffffffffff) ||| (sign.toBits &&& 0x8000000000000000))

def fractionBits : Nat := 52

/-- The least significand of a double that is not subnormal. -/
def leadingBit : Nat := 2 ^ fractionBits

/-- A finite double: `significand * 2 ^ exponent`, negated if `negative`. -/
structure Parts where
  negative : Bool
  significand : Nat
  exponent : Int
  deriving Repr, DecidableEq

def parts (x : Float) : Parts :=
  let field := ((x.toBits >>> 52) &&& 0x7ff).toNat
  let fraction := (x.toBits &&& 0xfffffffffffff).toNat
  if field = 0 then ⟨isNegative x, fraction, -1074⟩
  else ⟨isNegative x, fraction + leadingBit, (field : Int) - 1075⟩

/-- The double `significand * 2 ^ exponent`, for a significand of at most `2 ^ 53` and an exponent of
at least -1074; with fewer than 53 bits the exponent has to be -1074. Infinite past the range. -/
def assemble (negative : Bool) (significand : Nat) (exponent : Int) : Float :=
  let (significand, exponent) :=
    if significand = 2 * leadingBit then (leadingBit, exponent + 1) else (significand, exponent)
  let field := if significand < leadingBit then 0 else (exponent + 1075).toNat
  if 0x7ff ≤ field then signedInfinity negative
  else
    let sign := if negative then 0x8000000000000000 else 0
    Float.ofBits (UInt64.ofNat (sign + field <<< fractionBits + significand % leadingBit))

/-- Numerator and denominator multiplied so that their quotient is divided by `2 ^ shift`. -/
def scaleRatio (numerator denominator : Nat) (shift : Int) : Nat × Nat :=
  if 0 ≤ shift then (numerator, denominator <<< shift.toNat)
  else (numerator <<< (-shift).toNat, denominator)

/-- The nearest double to a ratio with a positive denominator; a tie goes to the even neighbour. -/
def ofRatio (negative : Bool) (numerator denominator : Nat) : Float :=
  if numerator = 0 then if negative then -0.0 else 0.0
  else
    let guess := (numerator.log2 : Int) - denominator.log2
    let (n, d) := scaleRatio numerator denominator guess
    let top := if n < d then guess - 1 else guess
    let exponent := max (top - 52) (-1074)
    let (n, d) := scaleRatio numerator denominator exponent
    if 1100 < top then signedInfinity negative
    else assemble negative (Rounding.halfEven.quotient negative n d) exponent

def ofInt (n : Int) : Float := ofRatio (n < 0) n.natAbs 1

def ratio (x : Float) : Bool × Nat × Nat :=
  let p := parts x
  let (numerator, denominator) := scaleRatio p.significand 1 (-p.exponent)
  (p.negative, numerator, denominator)

def toInt (mode : Rounding) (x : Float) : Int :=
  let (negative, numerator, denominator) := ratio x
  let magnitude := mode.quotient negative numerator denominator
  if negative then -(magnitude : Int) else magnitude

def isWhole (x : Float) : Bool :=
  x.isFinite && (let (_, numerator, denominator) := ratio x; numerator % denominator == 0)

def isOdd (x : Float) : Bool := isWhole x && toInt .truncate x % 2 != 0

/-- The remainder of the truncated quotient of two finite doubles, the second not zero. It is exact
and has the sign of the first. -/
def remainder (x y : Float) : Float :=
  let (negative, n₁, d₁) := ratio x
  let (_, n₂, d₂) := ratio y
  ofRatio negative ((n₁ * d₂) % (n₂ * d₁)) (d₁ * d₂)

end Reckoner.Binary64

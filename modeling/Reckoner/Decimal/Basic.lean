import Reckoner.Rounding
import Reckoner.Text.Numeral

/-! Decimal numbers: a sign, a coefficient and an exponent, infinities, and quiet or signalling
values that are no number. `1.50` and `1.5` are two decimals of one value. -/

namespace Reckoner

/-- A decimal; `finite` stands for `coefficient * 10 ^ exponent`, negated if `negative`. -/
inductive Decimal where
  | finite (negative : Bool) (coefficient : Nat) (exponent : Int)
  | infinite (negative : Bool)
  | notANumber (negative signaling : Bool) (payload : Nat)
  deriving Repr, DecidableEq

namespace Decimal

open Reckoner.Numeral

def zero : Decimal := finite false 0 0

def one : Decimal := finite false 1 0

def ofInt (n : Int) : Decimal := finite (n < 0) n.natAbs 0

instance : Inhabited Decimal := ⟨zero⟩

def isFinite : Decimal → Bool
  | finite .. => true
  | _ => false

def isInfinite : Decimal → Bool
  | infinite _ => true
  | _ => false

def isNotANumber : Decimal → Bool
  | notANumber .. => true
  | _ => false

def isSignaling : Decimal → Bool
  | notANumber _ signaling _ => signaling
  | _ => false

def isZero : Decimal → Bool
  | finite _ coefficient _ => coefficient == 0
  | _ => false

/-- The sign, which zeros have too. -/
def isNegative : Decimal → Bool
  | finite negative .. => negative
  | infinite negative => negative
  | notANumber negative .. => negative

def withSign (negative : Bool) : Decimal → Decimal
  | finite _ coefficient exponent => finite negative coefficient exponent
  | infinite _ => infinite negative
  | notANumber _ signaling payload => notANumber negative signaling payload

def copySign (x sign : Decimal) : Decimal := x.withSign sign.isNegative

/-- The exponent that the first digit has in `coefficient * 10 ^ exponent`. -/
def leading (coefficient : Nat) (exponent : Int) : Int := exponent + digitCount coefficient - 1

/-- The exponent of the first digit, and zero for what is not finite. -/
def adjusted : Decimal → Int
  | finite _ coefficient exponent => leading coefficient exponent
  | _ => 0

/-- The order of `m * 10 ^ e` and `n * 10 ^ f`. The exponents of their first digits decide if they
differ, so the coefficients are aligned only if they are about as long as the exponents are apart. -/
def compareMagnitude (m : Nat) (e : Int) (n : Nat) (f : Int) : Ordering :=
  if m = 0 then if n = 0 then .eq else .lt
  else if n = 0 then .gt
  else
    match compare (leading m e) (leading n f) with
    | .eq =>
      if f ≤ e then compare (m * 10 ^ (e - f).toNat) n else compare m (n * 10 ^ (f - e).toNat)
    | apart => apart

/-- The order of two decimals by value; what is no number equals all. -/
def order : Decimal → Decimal → Ordering
  | finite s m e, finite t n f =>
    if m = 0 ∧ n = 0 then .eq
    else if m = 0 then if t then .gt else .lt
    else if n = 0 then if s then .lt else .gt
    else if s then if t then compareMagnitude n f m e else .lt
    else if t then .gt else compareMagnitude m e n f
  | finite .., infinite t => if t then .gt else .lt
  | infinite s, finite .. => if s then .lt else .gt
  | infinite s, infinite t => if s == t then .eq else if s then .lt else .gt
  | _, _ => .eq

/-- The coefficient of a value whose last `count` digits are dropped, rounded to the nearest one and
to the even neighbour in a tie. -/
def dropDigits (coefficient count : Nat) : Nat :=
  if digitCount coefficient < count then 0
  else Rounding.halfEven.quotient false coefficient (10 ^ count)

def roundToWhole (mode : Rounding) : Decimal → Decimal
  | finite negative coefficient exponent =>
    if 0 ≤ exponent then finite negative coefficient exponent
    else
      let places := (-exponent).toNat
      let unit := min places (digitCount coefficient + 1)
      finite negative (mode.quotient negative coefficient (10 ^ unit)) 0
  | x => x

def isWhole : Decimal → Bool
  | finite _ coefficient exponent =>
    coefficient == 0 || 0 ≤ exponent ||
      (exponent.natAbs ≤ digitCount coefficient && coefficient % 10 ^ exponent.natAbs == 0)
  | _ => false

def toInt : Decimal → Int
  | finite negative coefficient exponent =>
    let magnitude :=
      if 0 ≤ exponent then coefficient * 10 ^ exponent.toNat
      else coefficient / 10 ^ (min (-exponent).toNat (digitCount coefficient))
    if negative then -(magnitude : Int) else magnitude
  | _ => 0

def isOdd (x : Decimal) : Bool :=
  match x with
  | finite _ _ exponent => exponent ≤ 0 && x.isWhole && x.toInt % 2 != 0
  | _ => false

def trailingZeros : Nat → Nat → Nat
  | 0, _ => 0
  | most + 1, coefficient =>
    if coefficient % 10 = 0 then trailingZeros most (coefficient / 10) + 1 else 0

end Decimal

end Reckoner

import Reckoner.Decimal.Arithmetic
import Reckoner.Decimal.Exponential

/-! Powers of decimals. A whole exponent is worked off by squaring with a few digits more than the
result has; any other one by way of the logarithm. -/

namespace Reckoner.Decimal.Context

open Reckoner.Numeral

/-- Squares the power read so far once for every further bit of the exponent, and multiplies with the
base for a set one. -/
def powerBits (c : Context) (base : Decimal) : List Bool → Decimal → Except Signal Decimal
  | [], power => .ok power
  | bit :: bits, power => do
    let square ← c.mul power power
    let next ← if bit then c.mul square base else pure square
    if next.isZero then return next else c.powerBits base bits next

def lowerBits (n : Nat) : List Bool :=
  ((List.range n.log2).map fun place => n.testBit place).reverse

/-- A power with a whole exponent that is not zero. -/
def wholePower (c : Context) (negative : Bool) (base : Decimal) (below : Bool) (exponent length : Nat) :
    Except Signal Decimal := do
  let wide := c.widen (length + 2 + if below then 1 else 0)
  let base ← if below then wide.div one base else pure base
  let power ← wide.powerBits base (lowerBits exponent) base
  c.finish (power.withSign negative)

/-- A power of one: `1.000 ^ 2` keeps the digits that the exact power has, as many as fit. -/
def powerOfOne (c : Context) (negative : Bool) (places : Nat) (exponent : Decimal) : Decimal :=
  let most := c.precision - 1
  let shift :=
    if !exponent.isWhole then most
    else if exponent.isNegative || places == 0 then 0
    else if (digitCount most : Int) ≤ exponent.adjusted then most
    else min (exponent.toInt.toNat * places) most
  finite negative (10 ^ shift) (-shift)

/-- A lower bound of the exponent of the first digit of `log10 x`, for a positive `x` that is not
one. -/
def logarithmExponent (coefficient : Nat) (exponent : Int) : Int :=
  let top := leading coefficient exponent
  if 0 < top then (digitCount top.natAbs : Int) - 1
  else if top < -1 then (digitCount (top + 1).natAbs : Int) - 1
  else
    let unit := 10 ^ (-exponent).toNat
    let apart := if coefficient < unit then unit - coefficient else coefficient - unit
    leading apart exponent - if top = 0 then 2 else 1

/-- The work of `powerFinite` on what is left: a positive base that is neither zero nor one, with the
sign of the power apart, and an exponent that is not zero. Exponents with which the power is surely
out of range are told by their size. -/
def generalPower (c : Context) (negative : Bool) (m : Nat) (e : Int) (t : Bool) (n : Nat) (f : Int) :
    Except Signal Decimal :=
  let size := logarithmExponent m e + leading n f
  let grows := (leading m e < 0) == t
  if grows ∧ (digitCount c.greatest.natAbs : Int) < size then .error .overflow
  else if ¬ grows ∧ (digitCount c.tiniest.natAbs : Int) < size then
    c.finishFinite negative 1 (c.tiniest - 1)
  else if (finite t n f).isWhole then
    let length := ((digitCount n : Int) + f).toNat
    c.wholePower negative (finite false m e) t (finite false n f).toInt.toNat length
  else
    let digits := max (digitCount m) c.precision + 23
    let wide : Context := ⟨digits, -999999999999999999, 999999999999999999, false⟩
    do
      let product ← wide.mul (ln digits m e) (finite t n f)
      match product with
      | finite s k g => c.finish (exp digits s k g)
      | x => c.finish x

def powerFinite (c : Context) (s : Bool) (m : Nat) (e : Int) (t : Bool) (n : Nat) (f : Int) :
    Except Signal Decimal :=
  let exponent := finite t n f
  let negative := s && exponent.isOdd
  if m = 0 then
    if n = 0 then .error .invalid
    else .ok (if t then infinite negative else finite negative 0 0)
  else if s && !exponent.isWhole then .error .invalid
  else if n = 0 then .ok (finite negative 1 0)
  else if compareMagnitude m e 1 0 = .eq then .ok (c.powerOfOne negative (-e).toNat exponent)
  else c.generalPower negative m e t n f

def powerInfinite (c : Context) (x y : Decimal) : Except Signal Decimal :=
  let negative := x.isNegative && y.isOdd
  match y with
  | infinite t =>
    match x with
    | finite s m e =>
      if m = 0 then .ok (if t then infinite false else finite false 0 0)
      else if s then .error .invalid
      else
        match compareMagnitude m e 1 0 with
        | .eq => .ok (c.powerOfOne false (-e).toNat y)
        | .lt => .ok (if t then infinite false else finite false 0 0)
        | .gt => .ok (if t then finite false 0 0 else infinite false)
    | x => if x.isNegative then .error .invalid
      else .ok (if t then finite false 0 0 else infinite false)
  | finite t n _ =>
    if x.isNegative && !y.isWhole then .error .invalid
    else if n = 0 then .ok (finite negative 1 0)
    else .ok (if t then finite negative 0 0 else infinite negative)
  | y => .ok y

def power (c : Context) (x y : Decimal) : Except Signal Decimal :=
  if x.isNotANumber || y.isNotANumber then c.handOnEither x y
  else
    match x, y with
    | finite s m e, finite t n f => c.powerFinite s m e t n f
    | x, y => c.powerInfinite x y

end Reckoner.Decimal.Context

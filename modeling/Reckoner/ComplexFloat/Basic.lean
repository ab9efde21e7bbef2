import Reckoner.Binary64.Elementary

/-! Complex numbers with double precision parts. -/

namespace Reckoner

structure ComplexFloat where
  re : Float
  im : Float

namespace ComplexFloat

open Reckoner.Binary64

instance : Inhabited ComplexFloat := ⟨⟨0.0, 0.0⟩⟩

def ofReal (x : Float) : ComplexFloat := ⟨x, 0.0⟩

def i : ComplexFloat := ⟨0.0, 1.0⟩

/-- Equality of values: zeros of both signs are equal, and NaN differs from itself. -/
def equal (z w : ComplexFloat) : Bool := z.re == w.re && z.im == w.im

def isZero (z : ComplexFloat) : Bool := z.re == 0.0 && z.im == 0.0

def isFinite (z : ComplexFloat) : Bool := z.re.isFinite && z.im.isFinite

def add (z w : ComplexFloat) : ComplexFloat := ⟨z.re + w.re, z.im + w.im⟩

def sub (z w : ComplexFloat) : ComplexFloat := ⟨z.re - w.re, z.im - w.im⟩

/-- Both parts with the other sign, also those of zeros. -/
def opposite (z : ComplexFloat) : ComplexFloat := ⟨-z.re, -z.im⟩

def mul (z w : ComplexFloat) : ComplexFloat :=
  ⟨z.re * w.re - z.im * w.im, z.re * w.im + z.im * w.re⟩

/-- The quotient, if the divisor is not zero. The divisor is scaled by the larger one of its parts. -/
def div? (z w : ComplexFloat) : Option ComplexFloat :=
  let re := if w.re < 0.0 then -w.re else w.re
  let im := if w.im < 0.0 then -w.im else w.im
  if re >= im then
    if re == 0.0 then none
    else
      let ratio := w.im / w.re
      let scale := w.re + w.im * ratio
      some ⟨(z.re + z.im * ratio) / scale, (z.im - z.re * ratio) / scale⟩
  else if im >= re then
    let ratio := w.re / w.im
    let scale := w.re * ratio + w.im
    some ⟨(z.re * ratio + z.im) / scale, (z.im * ratio - z.re) / scale⟩
  else some ⟨nan, nan⟩

def modulus (z : ComplexFloat) : Float := hypotenuse z.re z.im

/-- Multiplies powers of a base: one factor for each bit of the exponent, from the lowest one on. -/
def powerBits : List Bool → ComplexFloat → ComplexFloat → ComplexFloat
  | [], _, product => product
  | bit :: bits, power, product =>
    powerBits bits (mul power power) (if bit then mul product power else product)

def naturalPower (z : ComplexFloat) (n : Nat) : ComplexFloat :=
  powerBits ((List.range (if n = 0 then 0 else n.log2 + 1)).map fun place => n.testBit place) z
    ⟨1.0, 0.0⟩

inductive NoPower where
  /-- Zero was raised to a negative or complex exponent. -/
  | ofZero
  /-- The angle of the power is infinite, so that it has no direction. -/
  | direction
  /-- A part of the power is beyond the range. -/
  | range
  deriving Repr, DecidableEq

def inRange (z : ComplexFloat) : Except NoPower ComplexFloat :=
  if z.re.isInf || z.im.isInf then .error .range else .ok z

def polarPower (z w : ComplexFloat) : Except NoPower ComplexFloat :=
  if w.isZero then .ok ⟨1.0, 0.0⟩
  else if z.isZero then
    if w.im != 0.0 || w.re < 0.0 then .error .ofZero else .ok ⟨0.0, 0.0⟩
  else
    let size := z.modulus
    let angle := Float.atan2 z.im z.re
    let length := size.pow w.re
    let phase := angle * w.re
    let length := if w.im != 0.0 then length / (angle * w.im).exp else length
    let phase := if w.im != 0.0 then phase + w.im * size.log else phase
    if phase.isInf then .error .direction
    else inRange ⟨length * phase.cos, length * phase.sin⟩

/-- The power; small whole exponents are worked off by multiplication. -/
def power (z w : ComplexFloat) : Except NoPower ComplexFloat :=
  if w.im == 0.0 && w.re == w.re.floor && w.re.abs <= 100.0 then
    let n := toInt .truncate w.re
    let size := naturalPower z n.natAbs
    if 0 < n then inRange size
    else
      match div? ⟨1.0, 0.0⟩ size with
      | some quotient => inRange quotient
      | none => .error .ofZero
  else polarPower z w

end ComplexFloat

end Reckoner

import Reckoner.ComplexFloat.Basic

/-! Elementary functions of complex numbers on their principal branches. Signs of zeros choose the
side of a branch cut, and arguments that are not finite have the values of their limits. -/

namespace Reckoner.ComplexFloat

open Reckoner.Binary64

abbrev Value := Except NoValue ComplexFloat

/-- Parts above this are halved before they are combined. -/
def largeDouble : Float := 4.4942328371557893e307

def rootOfLarge : Float := largeDouble.sqrt

def logOfLarge : Float := largeDouble.log

def leastNormal : Float := 2.2250738585072014e-308

def lnTwo : Float := 0.6931471805599453

def lnTen : Float := 2.302585092994046

def euler : Float := 2.718281828459045

def infinityLike (x : Float) : Float := copySign infinity x

def isLarge (z : ComplexFloat) : Bool := z.re.abs > largeDouble || z.im.abs > largeDouble

/-- The logarithm of the modulus, for parts that are too large to be squared. -/
def logLargeModulus (z : ComplexFloat) : Float :=
  (hypotenuse (z.re / 2.0) (z.im / 2.0)).log + lnTwo * 2.0

def bounded (z : ComplexFloat) : Value :=
  if z.re.isInf || z.im.isInf then .error .range else .ok z

def limitAngle (z : ComplexFloat) : Float :=
  if z.im.isNaN then nan
  else
    let size :=
      if z.re.isInf then
        if z.im.isInf then if z.re > 0.0 then 0.25 * pi else 0.75 * pi
        else if z.re > 0.0 then 0.0 else pi
      else 0.5 * pi
    copySign size z.im

def sqrtLimit (z : ComplexFloat) : ComplexFloat :=
  if z.im.isInf then ⟨infinity, z.im⟩
  else if z.re.isInf then
    if z.re > 0.0 then ⟨infinity, if z.im.isNaN then nan else copySign 0.0 z.im⟩
    else if z.im.isNaN then ⟨nan, infinity⟩
    else ⟨0.0, infinityLike z.im⟩
  else ⟨nan, nan⟩

def sqrt (z : ComplexFloat) : ComplexFloat :=
  if !z.isFinite then sqrtLimit z
  else if z.isZero then ⟨0.0, z.im⟩
  else
    let ax := z.re.abs
    let ay := z.im.abs
    let tiny := ax < leastNormal && ay < leastNormal
    let s :=
      if tiny then
        let up := 9007199254740992.0
        (ax * up + hypotenuse (ax * up) (ay * up)).sqrt / 134217728.0
      else 2.0 * (ax / 8.0 + hypotenuse (ax / 8.0) (ay / 8.0)).sqrt
    let d := ay / (2.0 * s)
    if z.re >= 0.0 then ⟨s, copySign d z.im⟩ else ⟨d, copySign s z.im⟩

def logLimit (z : ComplexFloat) : ComplexFloat :=
  if z.re.isInf || (z.im.isInf && !z.re.isNaN) then ⟨infinity, limitAngle z⟩
  else if z.im.isInf then ⟨infinity, nan⟩
  else ⟨nan, nan⟩

/-- The real part of the logarithm. Near modulus one it is taken from the distance to one. -/
def logModulus (ax ay : Float) : Float :=
  if ax > largeDouble || ay > largeDouble then (hypotenuse (ax / 2.0) (ay / 2.0)).log + lnTwo
  else if ax < leastNormal && ay < leastNormal then
    let up := 9007199254740992.0
    (hypotenuse (ax * up) (ay * up)).log - 53.0 * lnTwo
  else
    let h := hypotenuse ax ay
    if 0.71 <= h && h <= 1.73 then
      let larger := if ax > ay then ax else ay
      let smaller := if ax > ay then ay else ax
      logOnePlus ((larger - 1.0) * (larger + 1.0) + smaller * smaller) / 2.0
    else h.log

def ln (z : ComplexFloat) : Value :=
  if !z.isFinite then .ok (logLimit z)
  else if z.isZero then .error .domain
  else .ok ⟨logModulus z.re.abs z.im.abs, Float.atan2 z.im z.re⟩

def log10 (z : ComplexFloat) : Value :=
  (ln z).map fun w => ⟨w.re / lnTen, w.im / lnTen⟩

/-- The point at infinity in the direction of an angle, turned by the signs of the parts. -/
def infinityAt (angle re im : Float) : ComplexFloat :=
  ⟨copySign infinity angle.cos * re, copySign infinity angle.sin * im⟩

def expLimit (z : ComplexFloat) : ComplexFloat :=
  if z.re.isInf then
    if z.im.isFinite && z.im != 0.0 then
      if z.re > 0.0 then infinityAt z.im 1.0 1.0
      else ⟨copySign 0.0 z.im.cos, copySign 0.0 z.im.sin⟩
    else if z.re > 0.0 then ⟨infinity, if z.im == 0.0 then z.im else nan⟩
    else ⟨0.0, if z.im == 0.0 then z.im else 0.0⟩
  else ⟨nan, if z.re.isNaN && z.im == 0.0 then z.im else nan⟩

def exp (z : ComplexFloat) : Value :=
  if !z.isFinite then
    if z.im.isInf && (z.re.isFinite || z.re == infinity) then .error .domain else .ok (expLimit z)
  else if z.re > logOfLarge then
    let length := (z.re - 1.0).exp
    bounded ⟨length * z.im.cos * euler, length * z.im.sin * euler⟩
  else
    let length := z.re.exp
    bounded ⟨length * z.im.cos, length * z.im.sin⟩

def coshLimit (z : ComplexFloat) : ComplexFloat :=
  if z.re.isInf then
    let sign := if z.re > 0.0 then 1.0 else -1.0
    if z.im.isFinite && z.im != 0.0 then infinityAt z.im 1.0 sign
    else ⟨infinity, if z.im == 0.0 then sign * z.im else nan⟩
  else ⟨nan, if z.re == 0.0 || (z.re.isNaN && z.im == 0.0) then 0.0 else nan⟩

/-- The hyperbolic cosine. Large real parts are lowered by one first, so that a result near the end
of the range is not lost. -/
def cosh (z : ComplexFloat) : Value :=
  if !z.isFinite then
    if z.im.isInf && !z.re.isNaN then .error .domain else .ok (coshLimit z)
  else if z.re.abs > logOfLarge then
    let x := z.re - copySign 1.0 z.re
    bounded ⟨z.im.cos * x.cosh * euler, z.im.sin * x.sinh * euler⟩
  else bounded ⟨z.im.cos * z.re.cosh, z.im.sin * z.re.sinh⟩

def sinhLimit (z : ComplexFloat) : ComplexFloat :=
  if z.re.isInf then
    let sign := if z.re > 0.0 then 1.0 else -1.0
    if z.im.isFinite && z.im != 0.0 then infinityAt z.im sign 1.0
    else if z.im == 0.0 then z
    else ⟨infinity, nan⟩
  else if z.re == 0.0 then ⟨0.0, nan⟩
  else ⟨nan, if z.re.isNaN && z.im == 0.0 then z.im else nan⟩

def sinh (z : ComplexFloat) : Value :=
  if !z.isFinite then
    if z.im.isInf && !z.re.isNaN then .error .domain else .ok (sinhLimit z)
  else if z.re.abs > logOfLarge then
    let x := z.re - copySign 1.0 z.re
    bounded ⟨z.im.cos * x.sinh * euler, z.im.sin * x.cosh * euler⟩
  else bounded ⟨z.im.cos * z.re.sinh, z.im.sin * z.re.cosh⟩

def tanhLimit (z : ComplexFloat) : ComplexFloat :=
  if z.re.isInf then
    let sign := if z.re > 0.0 then 1.0 else -1.0
    if z.im.isFinite && z.im != 0.0 then ⟨sign, copySign 0.0 (2.0 * z.im.sin * z.im.cos)⟩
    else ⟨sign, if z.im == 0.0 then z.im else 0.0⟩
  else ⟨nan, if z.re.isNaN && z.im == 0.0 then z.im else nan⟩

def tanh (z : ComplexFloat) : Value :=
  if !z.isFinite then
    if z.im.isInf && z.re.isFinite then .error .domain else .ok (tanhLimit z)
  else if z.re.abs > logOfLarge then
    .ok ⟨copySign 1.0 z.re, 4.0 * z.im.sin * z.im.cos * (-2.0 * z.re.abs).exp⟩
  else
    let tx := z.re.tanh
    let ty := z.im.tan
    let cx := 1.0 / z.re.cosh
    let product := tx * ty
    let scale := 1.0 + product * product
    .ok ⟨tx * (1.0 + ty * ty) / scale, ((ty / scale) * cx) * cx⟩

def asinhLimit (z : ComplexFloat) : ComplexFloat :=
  if z.re.isInf then
    let size := if z.im.isInf then 0.25 * pi else 0.0
    ⟨z.re, if z.im.isNaN then nan else copySign size z.im⟩
  else if z.im.isInf then
    if z.re.isNaN then ⟨infinity, nan⟩ else ⟨infinityLike z.re, copySign (0.5 * pi) z.im⟩
  else ⟨nan, if z.re.isNaN && z.im == 0.0 then z.im else nan⟩

def asinh (z : ComplexFloat) : ComplexFloat :=
  if !z.isFinite then asinhLimit z
  else if isLarge z then
    let re :=
      if z.im < 0.0 then -copySign (logLargeModulus z) (-z.re) else copySign (logLargeModulus z) z.re
    ⟨re, Float.atan2 z.im z.re.abs⟩
  else
    let s := sqrt ⟨1.0 + z.im, -z.re⟩
    let t := sqrt ⟨1.0 - z.im, z.re⟩
    ⟨(s.re * t.im - t.re * s.im).asinh, Float.atan2 z.im (s.re * t.re - s.im * t.im)⟩

def acoshLimit (z : ComplexFloat) : ComplexFloat :=
  if z.re.isInf || (z.im.isInf && !z.re.isNaN) then ⟨infinity, limitAngle z⟩
  else if z.im.isInf then ⟨infinity, nan⟩
  else ⟨nan, nan⟩

def acosh (z : ComplexFloat) : ComplexFloat :=
  if !z.isFinite then acoshLimit z
  else if isLarge z then ⟨logLargeModulus z, Float.atan2 z.im z.re⟩
  else
    let s := sqrt ⟨z.re - 1.0, z.im⟩
    let t := sqrt ⟨z.re + 1.0, z.im⟩
    ⟨(s.re * t.re + s.im * t.im).asinh, 2.0 * Float.atan2 s.im t.re⟩

def acosLimit (z : ComplexFloat) : ComplexFloat :=
  let im := if z.im.isNaN then infinity else -infinityLike z.im
  if z.re.isInf || (z.im.isInf && !z.re.isNaN) then ⟨(limitAngle z).abs, im⟩
  else if z.im.isInf then ⟨nan, im⟩
  else ⟨if z.re == 0.0 then 0.5 * pi else nan, nan⟩

def acos (z : ComplexFloat) : ComplexFloat :=
  if !z.isFinite then acosLimit z
  else if isLarge z then
    let size := logLargeModulus z
    ⟨Float.atan2 z.im.abs z.re,
      if z.re < 0.0 then -copySign size z.im else copySign size (-z.im)⟩
  else
    let s := sqrt ⟨1.0 - z.re, -z.im⟩
    let t := sqrt ⟨1.0 + z.re, z.im⟩
    ⟨2.0 * Float.atan2 s.re t.re, (t.re * s.im - t.im * s.re).asinh⟩

def atanhLimit (z : ComplexFloat) : ComplexFloat :=
  let zero := if z.re.isNaN then 0.0 else copySign 0.0 z.re
  if z.im.isInf || (z.re.isInf && !z.im.isNaN) then ⟨zero, copySign (0.5 * pi) z.im⟩
  else if z.re.isInf || z.re == 0.0 then ⟨zero, nan⟩
  else ⟨nan, nan⟩

/-- The inverse hyperbolic tangent in the right half plane, with a pole at one. -/
def atanhRight (z : ComplexFloat) : Value :=
  let ay := z.im.abs
  if z.re > rootOfLarge || ay > rootOfLarge then
    let h := hypotenuse (z.re / 2.0) (z.im / 2.0)
    .ok ⟨z.re / 4.0 / h / h, -copySign (pi / 2.0) (-z.im)⟩
  else if z.re == 1.0 && ay < leastNormal.sqrt then
    if ay == 0.0 then .error .domain
    else
      .ok ⟨-(ay.sqrt / (hypotenuse ay 2.0).sqrt).log, copySign (Float.atan2 2.0 (-ay) / 2.0) z.im⟩
  else
    let distance := (1.0 - z.re) * (1.0 - z.re) + ay * ay
    .ok ⟨logOnePlus (4.0 * z.re / distance) / 4.0,
      -Float.atan2 (-2.0 * z.im) ((1.0 - z.re) * (1.0 + z.re) - ay * ay) / 2.0⟩

def atanh (z : ComplexFloat) : Value :=
  if !z.isFinite then .ok (atanhLimit z)
  else if isNegative z.re then (atanhRight z.opposite).map opposite
  else atanhRight z

def turned (z : ComplexFloat) : ComplexFloat := ⟨-z.im, z.re⟩

def turnedBack (z : ComplexFloat) : ComplexFloat := ⟨z.im, -z.re⟩

def sin (z : ComplexFloat) : Value := (sinh z.turned).map turnedBack

def cos (z : ComplexFloat) : Value := cosh z.turned

def tan (z : ComplexFloat) : Value := (tanh z.turned).map turnedBack

def asin (z : ComplexFloat) : ComplexFloat := (asinh z.turned).turnedBack

def atan (z : ComplexFloat) : Value := (atanh z.turned).map turnedBack

def degree : ComplexFloat := ofReal (pi / 180.0)

def radiansOf (z : ComplexFloat) : ComplexFloat := mul z degree

/-- The number of degrees; one degree is not zero. -/
def degreesOf (z : ComplexFloat) : ComplexFloat := (div? z degree).getD z

/-- The cube root; that of a negative real number is real. -/
def cbrt (z : ComplexFloat) : Except NoPower ComplexFloat :=
  let third := ofReal (1.0 / 3.0)
  if z.im != 0.0 || z.re >= 0.0 then power z third else (power z.opposite third).map opposite

end Reckoner.ComplexFloat

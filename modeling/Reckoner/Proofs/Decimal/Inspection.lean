import Reckoner.Decimal.Elementary
import Reckoner.Proofs.Outcome

/-! The functions with a watch on every loop in them, which refuses some ways for a loop to end. Where it lets all of
them pass these are the functions themselves, and where it lets proper endings pass only, a call that still gives a
result has no other ending in it. -/

namespace Reckoner.Decimal

/-! ### Endings of loops -/

/-- How a loop ended: a series with a term below the epsilon or, not settled, by the bound on its terms, and a
reduction of an argument after so many steps. -/
inductive Ending where
  | series (settled : Bool)
  | halvings (count : Nat)
  | doublings (count : Nat)
  deriving Repr, DecidableEq

/-- Whether a series was ended by its terms, the halvings of a logarithm were three at most, and the doublings of an
inverse tangent two. -/
def Ending.proper : Ending → Bool
  | series settled => settled
  | halvings count => count ≤ 3
  | doublings count => count ≤ 2

/-- Which endings of loops are let pass. -/
structure Inspector where
  passes : Ending → Bool

/-- A call of one of the functions. -/
inductive Call where
  | piConstant
  | eConstant
  | exp (x : Decimal)
  | ln (x : Decimal)
  | log10 (x : Decimal)
  | log (x base : Decimal)
  | cbrt (x : Decimal)
  | sin (inDegrees : Bool) (x : Decimal)
  | cos (inDegrees : Bool) (x : Decimal)
  | tan (inDegrees : Bool) (x : Decimal)
  | asin (inDegrees : Bool) (x : Decimal)
  | acos (inDegrees : Bool) (x : Decimal)
  | atan (inDegrees : Bool) (x : Decimal)
  | atan2 (inDegrees : Bool) (y x : Decimal)
  | sinh (x : Decimal)
  | cosh (x : Decimal)
  | tanh (x : Decimal)
  | asinh (x : Decimal)
  | acosh (x : Decimal)
  | atanh (x : Decimal)
  | toRadians (x : Decimal)
  | toDegrees (x : Decimal)
  deriving Repr, DecidableEq

namespace Call

/-- The decimals that a function is called with. -/
def arguments : Call → List Decimal
  | piConstant | eConstant => []
  | exp x | ln x | log10 x | cbrt x | sin _ x | cos _ x | tan _ x | asin _ x | acos _ x | atan _ x => [x]
  | sinh x | cosh x | tanh x | asinh x | acosh x | atanh x | toRadians x | toDegrees x => [x]
  | log x base => [x, base]
  | atan2 _ y x => [y, x]

/-- What the function gives. -/
def result (c : Context) : Call → Computed Decimal
  | piConstant => c.piConstant
  | eConstant => c.eConstant
  | exp x => c.exp x
  | ln x => c.ln x
  | log10 x => c.log10 x
  | log x base => c.log x base
  | cbrt x => c.cbrt x
  | sin inDegrees x => c.sin inDegrees x
  | cos inDegrees x => c.cos inDegrees x
  | tan inDegrees x => c.tan inDegrees x
  | asin inDegrees x => c.asin inDegrees x
  | acos inDegrees x => c.acos inDegrees x
  | atan inDegrees x => c.atan inDegrees x
  | atan2 inDegrees y x => c.atan2 inDegrees y x
  | sinh x => c.sinh x
  | cosh x => c.cosh x
  | tanh x => c.tanh x
  | asinh x => c.asinh x
  | acosh x => c.acosh x
  | atanh x => c.atanh x
  | toRadians x => c.toRadians x
  | toDegrees x => c.toDegrees x

end Call

namespace Inspector

/-- All endings pass. -/
def lenient : Inspector := ⟨fun _ => true⟩

/-- Proper endings pass only. -/
def strict : Inspector := ⟨Ending.proper⟩

/-! ### Inspected functions -/

section
variable (i : Inspector)

/-- The result of a loop, refused if its ending does not pass. -/
def watch {β : Type} (ending : β → Ending) (loop : Except Signal β) : Except Signal β := do
  let made ← loop
  if i.passes (ending made) then return made else throw .invalid

def series (sum : Except Signal PartialSum) : Except Signal PartialSum := i.watch (.series ·.settled) sum

def atanReduced (c : Context) (x : Decimal) : Except Signal Decimal := do
  let (doublings, x) ← i.watch (.doublings ·.1) (c.halveAngle Context.halvingBound 0 x)
  c.mul (← i.series (c.atanSeries x)).total (ofInt (2 ^ doublings))

def derive (precision : Nat) : Except Signal Constants := do
  let c := Constants.wideRange (precision + 5)
  let rootTwo ← c.sqrt (ofInt 2)
  let pi ← c.mul (ofInt 4) (← i.atanReduced c one)
  let ratio ← c.div (← c.sub rootTwo one) (← c.add rootTwo one)
  let lnTwo ← c.mul (ofInt 4) (← i.series (c.atanhSeries ratio)).total
  let ninth ← c.div one (ofInt 9)
  let lnTen ← c.add (← c.mul (ofInt 3) lnTwo) (← c.mul (ofInt 2) (← i.series (c.atanhSeries ninth)).total)
  let e ← i.series (c.expSeries one)
  return {
    pi, lnTwo, lnTen, rootTwo
    e := e.total
    halfPi := ← c.div pi (ofInt 2)
    twoPi := ← c.mul (ofInt 2) pi }

def ofPrecision (precision : Nat) : Except Signal Constants :=
  if precision ≤ 40 then .ok .fortyDigits else i.derive precision

def guarded (c : Context) (compute : Context → Constants → Computed Decimal) : Computed Decimal := do
  let work := c.widen guardDigits
  let result ← compute work (← i.ofPrecision work.precision)
  c.plus result

def expWork (c : Context) (k : Constants) (x : Decimal) : Computed Decimal := do
  let twos := (← c.div x k.lnTwo).roundToWhole .halfEven
  let rest ← c.sub x (← c.mul twos k.lnTwo)
  let sum ← i.series (c.expSeries rest)
  c.mul sum.total (← c.power (ofInt 2) (ofInt twos.toInt))

def lnWork (c : Context) (k : Constants) (x : Decimal) : Computed Decimal := do
  if ← isAtMost x zero then throw (.outside .logarithm)
  let tens := x.adjusted
  let (halvings, m) ← i.watch (.halvings ·.1) (c.halveToRoot k Context.halvingBound 0 (← c.scale x (-tens)))
  let ratio ← c.div (← c.sub m one) (← c.add m one)
  let near ← c.mul (ofInt 2) (← i.series (c.atanhSeries ratio)).total
  let sum ← c.add near (← c.mul (ofInt halvings) k.lnTwo)
  c.add sum (← c.mul (ofInt tens) k.lnTen)

def sinReduced (c : Context) (k : Constants) (x : Decimal) : Except Signal Decimal := do
  return (← i.series (c.sinSeries (← c.reduceAngle k x))).total

def cosReduced (c : Context) (k : Constants) (x : Decimal) : Except Signal Decimal := do
  return (← i.series (c.cosSeries (← c.reduceAngle k x))).total

def sinWork (c : Context) (k : Constants) (inDegrees : Bool) (x : Decimal) : Except Signal Decimal := do
  if inDegrees then
    if ← isEqual (← c.rem x (ofInt 180)) zero then return zero
    i.sinReduced c k (← c.radians k (← c.rem x (ofInt 360)))
  else c.snap (← i.sinReduced c k x) x

def cosWork (c : Context) (k : Constants) (inDegrees : Bool) (x : Decimal) : Except Signal Decimal := do
  if inDegrees then
    if ← isEqual (← c.rem (← c.sub x (ofInt 90)) (ofInt 180)) zero then return zero
    i.cosReduced c k (← c.radians k (← c.rem x (ofInt 360)))
  else c.snap (← i.cosReduced c k x) x

def atanWork (c : Context) (k : Constants) (x : Decimal) : Except Signal Decimal := do
  if ← isEqual x zero then return zero
  let negative ← isLess x zero
  let x ← c.abs x
  let inverted ← isLess one x
  let x ← if inverted then c.div one x else pure x
  let angle ← i.atanReduced c x
  let angle ← if inverted then c.sub k.halfPi angle else pure angle
  if negative then c.neg angle else return angle

def asinWork (c : Context) (k : Constants) (x : Decimal) : Computed Decimal := do
  if ← isLess one (← c.abs x) then throw (.outside .inverseSine)
  if ← isEqual (← c.abs x) one then return k.halfPi.copySign x
  i.atanWork c k (← c.div x (← c.sqrt (← c.sub one (← c.mul x x))))

def atan2Work (c : Context) (k : Constants) (y x : Decimal) : Except Signal Decimal := do
  if ← isLess zero x then i.atanWork c k (← c.div y x)
  else if ← isLess x zero then
    let angle ← i.atanWork c k (← c.div y x)
    let turn ← if ← isAtMost zero y then pure k.pi else c.neg k.pi
    c.add angle turn
  else if ← isLess zero y then return k.halfPi
  else if ← isLess y zero then c.neg k.halfPi
  else return zero

def tanhWork (c : Context) (k : Constants) (x : Decimal) : Computed Decimal := do
  let size ← c.mul (ofInt 2) (← c.abs x)
  if ← isLess (← c.mul k.lnTen (ofInt (c.precision + 1))) size then return one.copySign x
  let square ← i.expWork c k (← c.mul (ofInt 2) x)
  c.div (← c.sub square one) (← c.add square one)

/-- What a call computes with guard digits. -/
def work (w : Context) (k : Constants) : Call → Computed Decimal
  | .piConstant => return k.pi
  | .eConstant => return k.e
  | .exp x => i.expWork w k x
  | .ln x => i.lnWork w k x
  | .log10 x => do w.div (← i.lnWork w k x) k.lnTen
  | .log x base => do w.div (← i.lnWork w k x) (← i.lnWork w k base)
  | .cbrt x => w.cubeRootWork x
  | .sin inDegrees x => i.sinWork w k inDegrees x
  | .cos inDegrees x => i.cosWork w k inDegrees x
  | .tan inDegrees x => do w.div (← i.sinWork w k inDegrees x) (← i.cosWork w k inDegrees x)
  | .asin inDegrees x => do w.inUnit k inDegrees (← i.asinWork w k x)
  | .acos inDegrees x => do w.inUnit k inDegrees (← w.sub k.halfPi (← i.asinWork w k x))
  | .atan inDegrees x => do w.inUnit k inDegrees (← i.atanWork w k x)
  | .atan2 inDegrees y x => do w.inUnit k inDegrees (← i.atan2Work w k y x)
  | .sinh x => do
    let e ← i.expWork w k x
    w.div (← w.sub e (← w.div one e)) (ofInt 2)
  | .cosh x => do
    let e ← i.expWork w k x
    w.div (← w.add e (← w.div one e)) (ofInt 2)
  | .tanh x => i.tanhWork w k x
  | .asinh x => do
    let a ← w.abs x
    let root ← w.sqrt (← w.add (← w.mul a a) one)
    return (← i.lnWork w k (← w.add a root)).copySign x
  | .acosh x => do
    if ← isLess x one then throw (.outside .inverseHyperbolicCosine)
    let root ← w.sqrt (← w.sub (← w.mul x x) one)
    i.lnWork w k (← w.add x root)
  | .atanh x => do
    if ← isAtMost one (← w.abs x) then throw (.outside .inverseHyperbolicTangent)
    let ratio ← w.div (← w.add one x) (← w.sub one x)
    w.div (← i.lnWork w k ratio) (ofInt 2)
  | .toRadians x => w.radians k x
  | .toDegrees x => w.degrees k x

/-- A call with all its loops inspected, those of its constants included. -/
def run (c : Context) (call : Call) : Computed Decimal := i.guarded c fun w k => i.work w k call

end

/-! ### Inspection that passes everything -/

section
variable (c : Context) (k : Constants)

@[simp] theorem watch_lenient {β : Type} (ending : β → Ending) (loop : Except Signal β) :
    lenient.watch ending loop = loop := by
  cases loop <;> rfl

@[simp] theorem series_lenient (sum : Except Signal PartialSum) : lenient.series sum = sum := watch_lenient _ sum

@[simp] theorem atanReduced_lenient (x : Decimal) : lenient.atanReduced c x = c.atanReduced x := by
  simp only [atanReduced, Context.atanReduced, watch_lenient, series_lenient]

@[simp] theorem ofPrecision_lenient (precision : Nat) :
    lenient.ofPrecision precision = Constants.ofPrecision precision := by
  simp only [ofPrecision, derive, Constants.ofPrecision, Constants.derive, atanReduced_lenient, series_lenient]

@[simp] theorem expWork_lenient (x : Decimal) : lenient.expWork c k x = c.expWork k x := by
  simp only [expWork, Context.expWork, series_lenient]

@[simp] theorem lnWork_lenient (x : Decimal) : lenient.lnWork c k x = c.lnWork k x := by
  simp only [lnWork, Context.lnWork, watch_lenient, series_lenient]

@[simp] theorem sinWork_lenient (inDegrees : Bool) (x : Decimal) :
    lenient.sinWork c k inDegrees x = c.sinWork k inDegrees x := by
  simp only [sinWork, sinReduced, Context.sinWork, Context.sinReduced, series_lenient]

@[simp] theorem cosWork_lenient (inDegrees : Bool) (x : Decimal) :
    lenient.cosWork c k inDegrees x = c.cosWork k inDegrees x := by
  simp only [cosWork, cosReduced, Context.cosWork, Context.cosReduced, series_lenient]

@[simp] theorem atanWork_lenient (x : Decimal) : lenient.atanWork c k x = c.atanWork k x := by
  simp only [atanWork, Context.atanWork, atanReduced_lenient]

@[simp] theorem asinWork_lenient (x : Decimal) : lenient.asinWork c k x = c.asinWork k x := by
  simp only [asinWork, Context.asinWork, atanWork_lenient]

@[simp] theorem atan2Work_lenient (y x : Decimal) : lenient.atan2Work c k y x = c.atan2Work k y x := by
  simp only [atan2Work, Context.atan2Work, atanWork_lenient]

@[simp] theorem tanhWork_lenient (x : Decimal) : lenient.tanhWork c k x = c.tanhWork k x := by
  simp only [tanhWork, Context.tanhWork, expWork_lenient]

/-- Inspected leniently, a call gives what the function gives. -/
theorem run_lenient (call : Call) : lenient.run c call = call.result c := by
  cases call <;> simp only [run, guarded, work, ofPrecision_lenient, expWork_lenient, lnWork_lenient, sinWork_lenient,
    cosWork_lenient, atanWork_lenient, asinWork_lenient, atan2Work_lenient, tanhWork_lenient] <;> rfl

end

end Inspector

end Reckoner.Decimal

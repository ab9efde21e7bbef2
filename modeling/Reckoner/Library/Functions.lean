import Reckoner.Binary64.Elementary
import Reckoner.NumberSystem.Basic

/-! What the functions and operators of the library compute, for any number system. Angles are in
degrees. -/

namespace Reckoner.Library

variable {α : Type}

/-- A function of doubles on numbers of a system. Results beyond the range are infinite; an undefined
one is no number, or an error in a checked system. -/
def floatPath (system : NumberSystem α) (label : String)
    (function : List Float → Except Binary64.NoValue Float) (arguments : List α) : Outcome α := do
  let xs ← arguments.mapM system.toFloat
  match function xs with
  | .ok value => system.ofFloat value
  | .error .range => system.ofFloat Binary64.infinity
  | .error .domain =>
    if system.checked then
      throw (.report .invalidInput ("'" ++ label ++ "' is undefined for the given argument"))
    else system.ofFloat Binary64.nan
  | .error .arguments => throw .mistyped

def elementary (system : NumberSystem α) (function : Elementary) : List α → Outcome α :=
  match system.native? function with
  | some native => native
  | none =>
    match Binary64.elementary? function with
    | some apply => floatPath system function.name apply
    | none => fun _ => .error .mistyped

/-- The numbers from zero to one that random numbers are drawn by. Each call has its own, found by the place where the
call stands in the source, so what is drawn for one call says nothing about the next. -/
structure Draws where
  draw : Nat → Float

/-- The same number for all calls. -/
instance : Coe Float Draws := ⟨fun draw => ⟨fun _ => draw⟩⟩

instance : OfScientific Draws :=
  ⟨fun digits negative exponent => (OfScientific.ofScientific digits negative exponent : Float)⟩

/-- The library of a number system has its own zero and one. -/
structure Base (α : Type) where
  system : NumberSystem α
  zero : α
  one : α

def Base.of (system : NumberSystem α) : Outcome (Base α) := do
  return ⟨system, ← system.ofInt 0, ← system.ofInt 1⟩

namespace Base

def boolean (base : Base α) (flag : Bool) : α := if flag then base.one else base.zero

/-! ### Aggregates -/

/-- Combines the arguments from the left; functions with aggregates take at least one. -/
def aggregate (combine : α → α → Outcome α) : List α → Outcome α
  | [] => .error .missing
  | first :: rest => rest.foldlM combine first

def sum (base : Base α) : List α → Outcome α := aggregate base.system.add

def product (base : Base α) : List α → Outcome α := aggregate base.system.mul

def average (base : Base α) (arguments : List α) : Outcome α := do
  base.system.div (← base.sum arguments) (← base.system.ofInt arguments.length)

/-- The first of the arguments that no later one exceeds in the given direction. -/
def extreme (base : Base α) (better : Ordering) : List α → Outcome α :=
  aggregate fun best value => do
    return if (← base.system.compare value best) = better then value else best

def maximum (base : Base α) : List α → Outcome α := base.extreme .gt

def minimum (base : Base α) : List α → Outcome α := base.extreme .lt

/-! ### Functions of one value -/

def absolute (base : Base α) (x : α) : Outcome α :=
  match base.system.native? .abs with
  | some native => native [x]
  | none => do
    if (← base.system.compare x base.zero) = .lt then base.system.neg x else return x

def sign (base : Base α) (x : α) : Outcome α := do
  base.system.ofInt
    (match ← base.system.compare x base.zero with
    | .lt => -1
    | .eq => 0
    | .gt => 1)

/-- The greatest number whose factorial a checked system multiplies out. -/
def factorialLimit : Int := 100000

/-- Multiplies a product by the numbers from `next` on, so many as given. It stays as it is once it is
infinite. -/
def multiplyUp (base : Base α) : Nat → Int → α → Outcome α
  | 0, _, product => .ok product
  | count + 1, next, product => do
    let product ← base.system.mul product (← base.system.ofInt next)
    if base.system.isFinite product then base.multiplyUp count (next + 1) product
    else return product

/-- The factorial of a whole number, and the gamma function of the next number for all others. -/
def factorial (base : Base α) (x : α) : Outcome α := do
  let system := base.system
  if ← system.isInteger x then
    let n ← system.toInt x
    if n < 0 then
      throw (.report .invalidInput ("Factorial of negative number " ++ (← NumberSystem.writeInt n)))
    if system.checked && factorialLimit < n then
      throw (.report .overflow
        ("Factorial argument " ++ (← NumberSystem.writeInt n) ++ " is too large"))
    base.multiplyUp (n - 1).toNat 2 base.one
  else
    let next ← system.add x base.one
    floatPath system "!" (fun xs =>
      match xs with
      | [y] => Binary64.gamma y
      | _ => .error .arguments) [next]

/-! ### Further functions -/

/-- A number between two bounds, drawn by a number from zero to one. A single argument is the upper
bound. -/
def random (base : Base α) (draw : Float) (arguments : List α) : Outcome α := do
  let (low, high) ← match arguments with
    | [] => pure (0.0, 1.0)
    | [high] => pure (0.0, ← base.system.toFloat high)
    | low :: high :: _ => pure (← base.system.toFloat low, ← base.system.toFloat high)
  if high < low then
    throw (.report .invalidInput ("random: minimum " ++ Binary64.write low ++
      " is greater than maximum " ++ Binary64.write high))
  base.system.ofFloat (low + draw * (high - low))

def logarithmRatio (base : Base α) (ln : List α → Outcome α) (x y : α) : Outcome α := do
  let numerator ← ln [x]
  let denominator ← ln [y]
  base.system.div numerator denominator

/-- The logarithm to base ten, or to a second argument. -/
def logarithm (base : Base α) : List α → Outcome α
  | [x] => elementary base.system .log [x]
  | x :: y :: _ => base.logarithmRatio (elementary base.system .ln) x y
  | [] => .error .missing

def reciprocalOf (base : Base α) (function : Elementary) (x : α) : Outcome α := do
  base.system.div base.one (← elementary base.system function [x])

def ofReciprocal (base : Base α) (function : Elementary) (x : α) : Outcome α := do
  elementary base.system function [← base.system.div base.one x]

/-! ### Comparisons and logic -/

def ordered (base : Base α) (holds : Ordering → Bool) (x y : α) : Outcome α := do
  return base.boolean (holds (← base.system.compare x y))

def equality (base : Base α) (holds : Bool → Bool) (x y : α) : Outcome α := do
  return base.boolean (holds (← base.system.equals x y))

def conjunction (base : Base α) (x y : α) : Outcome α := do
  if ← base.system.truthy x then return base.boolean (← base.system.truthy y)
  else return base.boolean false

def disjunction (base : Base α) (x y : α) : Outcome α := do
  if ← base.system.truthy x then return base.boolean true
  else return base.boolean (← base.system.truthy y)

def negation (base : Base α) (x : α) : Outcome α := do
  return base.boolean !(← base.system.truthy x)

end Base

end Reckoner.Library

import Reckoner.Binary64.Basic
import Reckoner.Text.Scientific

/-! Doubles as text. A double is written with the fewest digits that read back, positionally from
`0.0001` up to `10 ^ 16`; of two such texts of one length the nearer counts. -/

namespace Reckoner.Binary64

open Reckoner.Unicode Reckoner.Numeral

def ofScientific (negative : Bool) (value : Scientific) : Float :=
  let size := (digitCount value.coefficient : Int) + value.exponent
  if value.coefficient = 0 ∨ size < -400 then if negative then -0.0 else 0.0
  else if 400 < size then signedInfinity negative
  else if 0 ≤ value.exponent then
    ofRatio negative (value.coefficient * 10 ^ value.exponent.toNat) 1
  else ofRatio negative value.coefficient (10 ^ (-value.exponent).toNat)

def isOuterBlank (c : Char) : Bool :=
  isBlank c && !(0x1c ≤ c.toNat && c.toNat ≤ 0x1f)

/-- Removes underscores; each has to stand between two digits. -/
def removeUnderscores? : Option Char → List Char → Option (List Char)
  | _, [] => some []
  | before, '_' :: rest =>
    let digitBefore := before.any isDecimalDigit
    let digitAfter := rest.head?.any isDecimalDigit
    if digitBefore && digitAfter then removeUnderscores? (some '_') rest else none
  | _, c :: rest => (removeUnderscores? (some c) rest).map (c :: ·)

def isWordInAnyCase (text : List Char) (word : String) : Bool :=
  text.map Char.toLower == word.toList

/-- Reads a double: a signed numeral, `inf`, `infinity` or `nan` in any case, blanks around it. -/
def read? (text : List Char) : Option Float := do
  let text := ((text.dropWhile isOuterBlank).reverse.dropWhile isOuterBlank).reverse
  let text ← removeUnderscores? none text
  let (negative, text) := Scientific.splitSign text
  if isWordInAnyCase text "inf" || isWordInAnyCase text "infinity" then
    some (signedInfinity negative)
  else if isWordInAnyCase text "nan" then some (copySign nan (if negative then -1.0 else 1.0))
  else (Scientific.read? text).map (ofScientific negative)

def leadingExponent (numerator denominator : Nat) : Int :=
  let guess := (digitCount numerator : Int) - digitCount denominator
  let reached :=
    if 0 ≤ guess then denominator * 10 ^ guess.toNat ≤ numerator
    else denominator ≤ numerator * 10 ^ (-guess).toNat
  if reached then guess else guess - 1

/-- A positive double on the scale of its rounding interval: in units of `2 ^ (exponent - 2)` the
value is `4 * significand`, and every number from `low` to `high` rounds to it, the ends included
if the significand is even. -/
structure Interval where
  value : Nat
  low : Nat
  high : Nat
  closed : Bool

def interval (p : Parts) : Interval :=
  let narrow := p.significand == leadingBit && -1074 < p.exponent
  { value := 4 * p.significand
    low := 4 * p.significand - if narrow then 1 else 2
    high := 4 * p.significand + 2
    closed := p.significand % 2 == 0 }

/-- The multiple of `10 ^ unit` next to a double that reads back as it, if there is one. -/
def nearestOnGrid? (p : Parts) (unit : Int) : Option Nat :=
  let span := interval p
  let (n, d) := scaleRatio 1 1 (2 - p.exponent)
  let n := if unit < 0 then n * 10 ^ (-unit).toNat else n
  let d := if unit < 0 then d else d * 10 ^ unit.toNat
  let inside (multiple : Nat) : Bool :=
    if span.closed then span.low * n ≤ multiple * d && multiple * d ≤ span.high * n
    else span.low * n < multiple * d && multiple * d < span.high * n
  let below := span.value * n / d
  let nearest := Rounding.halfEven.quotient false (span.value * n) d
  if inside nearest then some nearest
  else if inside below then some below
  else if inside (below + 1) then some (below + 1)
  else none

def shortestFrom (p : Parts) (leading : Int) : Nat → Nat → Scientific
  | 0, _ => ⟨0, 0⟩
  | fuel + 1, count =>
    let unit := leading - count
    match nearestOnGrid? p unit with
    | some multiple => ⟨multiple, unit⟩
    | none => shortestFrom p leading fuel (count + 1)

/-- A numeral with the fewest digits that reads back as a finite double that is not zero. -/
def shortest (x : Float) : Scientific :=
  let (_, numerator, denominator) := ratio x
  shortestFrom (parts x) (leadingExponent numerator denominator) 17 0

def trimZeros (digits : List Char) : List Char := (digits.reverse.dropWhile (· == '0')).reverse

def writeExponent (exponent : Int) : String :=
  let digits := toString exponent.natAbs
  "e" ++ (if exponent < 0 then "-" else "+") ++ (if digits.length < 2 then "0" else "") ++ digits

/-- Digits with a point: the value is `d.ddd * 10 ^ leading`. With `point` a whole number ends in
`.0`. -/
def layout (digits : List Char) (leading : Int) (point : Bool) : String :=
  if -4 ≤ leading ∧ leading < 0 then
    "0." ++ String.ofList (List.replicate (-leading - 1).toNat '0' ++ digits)
  else if 0 ≤ leading ∧ leading < 16 then
    let whole := digits.take (leading.toNat + 1)
    let zeros := List.replicate (leading.toNat + 1 - digits.length) '0'
    let fraction := digits.drop (leading.toNat + 1)
    String.ofList (whole ++ zeros) ++
      (if fraction.isEmpty then if point then ".0" else "" else "." ++ String.ofList fraction)
  else
    let fraction := digits.drop 1
    String.ofList (digits.take 1) ++
      (if fraction.isEmpty then "" else "." ++ String.ofList fraction) ++ writeExponent leading

def writeWith (point : Bool) (x : Float) : String :=
  if x.isNaN then "nan"
  else
    let sign := if isNegative x then "-" else ""
    if x.isInf then sign ++ "inf"
    else if (parts x).significand = 0 then sign ++ if point then "0.0" else "0"
    else
      let value := shortest x
      let digits := (toString value.coefficient).toList
      let leading := value.exponent + digits.length - 1
      sign ++ layout (trimZeros digits) leading point

/-- The text of a double; a whole number ends in `.0`. -/
def write (x : Float) : String := writeWith true x

/-- Whole numbers below `10 ^ 16` without a point, all others as `write` has them. -/
def writePlain (x : Float) : String :=
  if isWhole x && x.abs < 1e16 then toString (toInt .truncate x) else write x

def writeScientific (places : Nat) (x : Float) : String :=
  let (negative, numerator, denominator) := ratio x
  let sign := if negative then "-" else ""
  let text (digits : List Char) (leading : Int) :=
    sign ++ String.ofList (digits.take 1) ++ "." ++ String.ofList (digits.drop 1) ++
      writeExponent leading
  if numerator = 0 then text (List.replicate (places + 1) '0') 0
  else
    let leading := leadingExponent numerator denominator
    let unit := leading - places
    let rounded :=
      if 0 ≤ unit then Rounding.halfEven.quotient false numerator (denominator * 10 ^ unit.toNat)
      else Rounding.halfEven.quotient false (numerator * 10 ^ (-unit).toNat) denominator
    let digits := (toString rounded).toList
    text (digits.take (places + 1)) (leading + (digits.length - (places + 1) : Nat))

end Reckoner.Binary64

import Reckoner.NumberSystem.Basic
import Reckoner.Binary64.Elementary

/-! Whole numbers as checked number systems: of a fixed width with two's complement bounds, or without
bounds. Division truncates. -/

namespace Reckoner.NumberSystem.Integer

open Reckoner.Binary64 Reckoner.Unicode

/-- The bits of a number with its sign; `none` stands for no bound. -/
structure Width where
  bits : Option Nat
  deriving Repr, DecidableEq

namespace Width

/-- A width has at least two bits. -/
def ofBits? : Option Int → Option Width
  | none => some ⟨none⟩
  | some bits => if bits < 2 then none else some ⟨some bits.toNat⟩

def name (width : Width) : String :=
  match width.bits with
  | some bits => "i" ++ toString bits
  | none => "bigint"

def bitsText (width : Width) : String :=
  match width.bits with
  | some bits => toString bits
  | none => "None"

def bounds? (width : Width) : Option (Int × Int) :=
  width.bits.map fun bits => (-(2 ^ (bits - 1) : Nat), (2 ^ (bits - 1) : Nat) - 1)

def admits (width : Width) (n : Int) : Bool :=
  match width.bounds? with
  | some (least, greatest) => least ≤ n && n ≤ greatest
  | none => true

end Width

/-- A number that fits, or the fault that names it. -/
def check (width : Width) (n : Int) (what : String) : Outcome Int :=
  if width.admits n then .ok n else .error (overflow width.name what)

def checkResult (width : Width) (n : Int) : Outcome Int := check width n "result"

/-- What is said of a text that is not read. Too many digits are noticed before what follows them, and of the text no
more than two hundred characters are shown. -/
def unreadable (text : List Char) : String :=
  let text := strip text
  let unsigned := match text with
    | '-' :: rest | '+' :: rest => rest
    | rest => rest
  let digits := Numeral.ungroup? (unsigned.takeWhile fun c => c == '_' || (digitValue? c).isSome)
  if digits.any fun digits => Numeral.digitLimit < digits.length then
    "Exceeds the limit (" ++ toString Numeral.digitLimit ++ " digits) for integer string conversion: value has " ++
      toString (digits.elim 0 List.length) ++ " digits; use sys.set_int_max_str_digits() to increase the limit"
  else
    "invalid literal for int() with base 10: " ++
      String.ofList ((Quoted.quote (String.ofList text)).toList.take 200)

def read (text : List Char) : Outcome Int :=
  match Numeral.read? text with
  | some n => .ok n
  | none => .error (.unsuitable (unreadable text))

/-- Reads a literal, which has to be at most the greatest number. -/
def parse (width : Width) (literal : List Char) : Outcome Int := do
  let n ← read literal
  match width.bounds? with
  | some (_, greatest) =>
    if greatest < n then
      throw (.unsuitable ("Integer literal " ++ String.ofList literal ++ " does not fit in " ++
        width.bitsText ++ " bits"))
    else return n
  | none => return n

def ofDouble (width : Width) (x : Float) : Outcome Int :=
  let what := "value " ++ Binary64.write x
  if x.isFinite then check width (Binary64.toInt .truncate x) what else .error (overflow width.name what)

/-- Numbers that are not whole are truncated. -/
def coerce (width : Width) : Datum → Outcome Int
  | .bool value => .ok (if value then 1 else 0)
  | .int n => do check width n ("value " ++ (← writeInt n))
  | .float x => ofDouble width x
  | .decimal value =>
    let what := "value " ++ value.write
    if value.isFinite then check width value.toInt what else .error (overflow width.name what)
  | .text text => do check width (← read text.toList) ("value " ++ text)
  | .absent | .complex _ | .fraction .. | .list _ => .error .mistyped

def toDouble (width : Width) (n : Int) : Outcome Float :=
  let value := Binary64.ofInt n
  if value.isInf then do throw (overflow width.name ("value " ++ (← writeInt n)))
  else .ok value

def quotient (n d : Int) : Outcome Int :=
  if d = 0 then .error divisionByZero else .ok (n.tdiv d)

/-- The most bits that a power without bounds may have. -/
def powerLimit : Nat := 2 ^ (22 : Nat)

/-- The binary logarithm of a positive number as a double; numbers beyond the doubles are split into a
fraction and a power of two. -/
def binaryLogarithm (n : Nat) : Float :=
  let value := Binary64.ofInt n
  if value.isInf then
    let length := n.log2 + 1
    (ofRatio false n (2 ^ length)).log2 + Binary64.ofInt length
  else value.log2

section
variable (logarithm : Nat → Float)

/-- Whether the length of a power with a base above one in magnitude is beyond the limit, by an estimate
with a binary logarithm. -/
def powerIsTooLong (width : Width) (base : Int) (exponent : Nat) : Outcome Bool :=
  let factor := Binary64.ofInt exponent
  if factor.isInf then .error (.outOfRange "int too large to convert to float")
  else
    .ok (factor * logarithm base.natAbs > Binary64.ofInt (width.bits.getD powerLimit))

/-- The power of a base of magnitude at most one. -/
def unitPower (base : Int) (exponent : Nat) : Int :=
  if exponent = 0 then 1 else if base < 0 ∧ exponent % 2 = 0 then 1 else base

/-- The power; a negative exponent gives the truncated reciprocal. -/
def power (width : Width) (base exponent : Int) : Outcome Int :=
  if exponent < 0 then
    if base = 0 then .error divisionByZero
    else if base = 1 then .ok 1
    else if base = -1 then .ok (if exponent % 2 = 0 then 1 else -1)
    else .ok 0
  else if base.natAbs ≤ 1 then checkResult width (unitPower base exponent.toNat)
  else do
    if ← powerIsTooLong logarithm width base exponent.toNat then
      throw (overflow width.name ((← writeInt base) ++ " ^ " ++ (← writeInt exponent)))
    checkResult width (base ^ exponent.toNat)

end

def system (width : Width) : NumberSystem Int where
  name := width.name
  label := "IntegerNumeric(bits=" ++ width.bitsText ++ ")"
  checked := true
  literals := .integer
  native? := fun _ => none
  parse := parse width
  format := writeInt
  write := writeInt
  coerce := coerce width
  toDatum := .int
  ofInt := checkResult width
  ofFloat := ofDouble width
  toFloat := toDouble width
  toInt := .ok
  constants := standardConstants (coerce width)
  add := fun n m => checkResult width (n + m)
  sub := fun n m => checkResult width (n - m)
  mul := fun n m => checkResult width (n * m)
  div := fun n m => do checkResult width (← quotient n m)
  rem := fun n m => do return n - m * (← quotient n m)
  neg := fun n => checkResult width (-n)
  pow := power binaryLogarithm width
  toIntegral := fun _ n => .ok n
  compare := fun n m => .ok (Ord.compare n m)
  equals := fun n m => .ok (n == m)
  isZero := fun n => .ok (n == 0)
  isFinite := fun _ => true
  isInteger := fun _ => .ok true

end Reckoner.NumberSystem.Integer

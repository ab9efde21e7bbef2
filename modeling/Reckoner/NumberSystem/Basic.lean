import Reckoner.Datum
import Reckoner.Elementary
import Reckoner.Error
import Reckoner.Text.Literal

/-! The operations that evaluation needs from a kind of number. A checked system answers with a fault
what it cannot represent; an unchecked one has infinities and values that are no number. -/

namespace Reckoner

structure NumberSystem (α : Type) where
  name : String
  /-- The system with its parameters, as descriptions show it. -/
  label : String
  checked : Bool
  literals : LiteralStyle
  /-- A function that the system computes itself, without the way over doubles. -/
  native? : Elementary → Option (List α → Outcome α)
  parse : List Char → Outcome α
  /-- The text that shows a result. -/
  format : α → Outcome String
  /-- The text of a number in a message. -/
  write : α → Outcome String
  coerce : Datum → Outcome α
  /-- A number as a value that is handed to a registry. -/
  toDatum : α → Datum
  ofInt : Int → Outcome α
  ofFloat : Float → Outcome α
  toFloat : α → Outcome Float
  /-- The whole part of a number. -/
  toInt : α → Outcome Int
  /-- The constants that the library registers. -/
  constants : Outcome (List (String × α))
  add : α → α → Outcome α
  sub : α → α → Outcome α
  mul : α → α → Outcome α
  div : α → α → Outcome α
  /-- The remainder of the truncated quotient. -/
  rem : α → α → Outcome α
  neg : α → Outcome α
  pow : α → α → Outcome α
  toIntegral : Rounding → α → Outcome α
  /-- The order of two numbers; what has no place in the order counts as equal. -/
  compare : α → α → Outcome Ordering
  equals : α → α → Outcome Bool
  isZero : α → Outcome Bool
  isFinite : α → Bool
  isInteger : α → Outcome Bool

namespace NumberSystem

variable {α : Type}

/-- All numbers but zero count as true. -/
def truthy (system : NumberSystem α) (value : α) : Outcome Bool :=
  (system.isZero value).map (!·)

def overflow (name what : String) : Fault :=
  .report .overflow ("Overflow: " ++ what ++ " is out of range for " ++ name)

def divisionByZero : Fault := .report .divisionByZero "Division by zero"

/-- What is said of a whole number that is too long to be written. -/
def tooLongText : String :=
  "Exceeds the limit (" ++ toString Numeral.digitLimit ++ " digits) for integer string conversion; " ++
    "use sys.set_int_max_str_digits() to increase the limit"

def tooLong : Fault := .unsuitable tooLongText

def writeInt (n : Int) : Outcome String :=
  match Numeral.write? n with
  | some text => .ok text
  | none => .error tooLong

def onOne (function : α → Outcome α) : List α → Outcome α
  | [x] => function x
  | _ => .error .mistyped

def piText : Decimal := .finite false 3141592653589793238462643383279502884197 (-39)

def eText : Decimal := .finite false 2718281828459045235360287471352662497757 (-39)

/-- Constants coerced from their digits. -/
def standardConstants (coerce : Datum → Outcome α) : Outcome (List (String × α)) := do
  let pi ← coerce (.decimal piText)
  let e ← coerce (.decimal eText)
  return [("PI", pi), ("E", e)]

end NumberSystem

end Reckoner

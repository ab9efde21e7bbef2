import Reckoner.Text.Numeral

/-! Decimal numerals: digits with an optional point among them and an optional exponent. -/

namespace Reckoner

/-- The number `coefficient * 10 ^ exponent` as a numeral writes it. -/
structure Scientific where
  coefficient : Nat
  exponent : Int
  deriving Repr, DecidableEq

namespace Scientific

open Reckoner.Unicode Reckoner.Numeral

def digitsValue (text : List Char) : Nat := ofDigits (text.filterMap digitValue?)

/-- An exponent after its letter: an optional sign and at least one digit. -/
def readExponent? (text : List Char) : Option Int :=
  let (negative, digits) := match text with
    | '-' :: rest => (true, rest)
    | '+' :: rest => (false, rest)
    | rest => (false, rest)
  if digits.isEmpty || !digits.all isDecimalDigit then none
  else some (if negative then -(digitsValue digits : Int) else digitsValue digits)

def read? (text : List Char) : Option Scientific :=
  let (whole, rest) := spanDigits text
  let (fraction, rest) := match rest with
    | '.' :: rest => spanDigits rest
    | rest => ([], rest)
  if whole.isEmpty && fraction.isEmpty then none
  else
    let value (exponent : Int) : Scientific :=
      ⟨digitsValue (whole ++ fraction), exponent - fraction.length⟩
    match rest with
    | [] => some (value 0)
    | c :: rest => if c == 'e' || c == 'E' then (readExponent? rest).map value else none

/-- Splits off an optional sign; the flag tells a minus. -/
def splitSign : List Char → Bool × List Char
  | '-' :: rest => (true, rest)
  | '+' :: rest => (false, rest)
  | rest => (false, rest)

end Scientific

end Reckoner

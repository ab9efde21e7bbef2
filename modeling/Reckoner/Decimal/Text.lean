import Reckoner.Decimal.Basic
import Reckoner.Binary64.Text

/-! Decimals as text. All digits of the coefficient are written, zeros at its end too, so a decimal
is read back from its text with the exponent it had. -/

namespace Reckoner.Decimal

open Reckoner.Unicode Reckoner.Numeral

/-- Digits after a name such as `nan`; no digits stand for zero. -/
def readPayload? (text : List Char) : Option Nat :=
  if text.all isDecimalDigit then some (Scientific.digitsValue text) else none

/-- The rest of a text that starts with a lower-case word, whatever its case. -/
def dropWord? (word : String) (text : List Char) : Option (List Char) :=
  if (text.take word.length).map Char.toLower = word.toList then some (text.drop word.length)
  else none

/-- Reads a decimal, however long: a signed numeral, `inf` or `infinity`, or `nan` and `snan` with
optional digits. Blanks are not allowed. -/
def read? (text : List Char) : Option Decimal :=
  let (negative, text) := Scientific.splitSign text
  match Scientific.read? text with
  | some value => some (finite negative value.coefficient value.exponent)
  | none =>
    if Binary64.isWordInAnyCase text "inf" || Binary64.isWordInAnyCase text "infinity" then
      some (infinite negative)
    else
      match dropWord? "nan" text, dropWord? "snan" text with
      | some rest, _ => (readPayload? rest).map (notANumber negative false)
      | _, some rest => (readPayload? rest).map (notANumber negative true)
      | none, none => none

/-- Digits with a point before the last `places` of them, and with zeros in front if they are too
few. -/
def pointed (digits : List Char) (places : Nat) : List Char :=
  if places = 0 then digits
  else
    let digits := List.replicate (places + 1 - digits.length) '0' ++ digits
    digits.take (digits.length - places) ++ '.' :: digits.drop (digits.length - places)

def writeExponent (mark : Char) (exponent : Int) : String :=
  String.singleton mark ++ (if exponent < 0 then "-" else "+") ++ toString exponent.natAbs

def scientific (mark : Char) (digits : List Char) (exponent : Int) : String :=
  String.ofList (pointed digits (digits.length - 1)) ++ writeExponent mark exponent

def signText (negative : Bool) : String := if negative then "-" else ""

def writeSpecial : Decimal → String
  | infinite negative => signText negative ++ "Infinity"
  | notANumber negative signaling payload =>
    signText negative ++ (if signaling then "sNaN" else "NaN") ++
      (if payload = 0 then "" else toString payload)
  | finite .. => ""

/-- The text of a decimal: positional if the exponent is at most zero and at most five zeros follow
the point, and scientific otherwise. -/
def write : Decimal → String
  | finite negative coefficient exponent =>
    let digits := (toString coefficient).toList
    let leading := exponent + digits.length - 1
    signText negative ++
      (if exponent ≤ 0 ∧ -6 ≤ leading then String.ofList (pointed digits (-exponent).toNat)
      else scientific 'E' digits leading)
  | x => x.writeSpecial

def writePositional : Decimal → String
  | finite negative coefficient exponent =>
    let digits := (toString coefficient).toList
    signText negative ++ String.ofList
      (if 0 ≤ exponent then
        if coefficient = 0 then digits else digits ++ List.replicate exponent.toNat '0'
      else pointed digits (-exponent).toNat)
  | x => x.writeSpecial

/-- A finite decimal that is not zero in scientific notation with a fixed number of places; all
others in their usual form. -/
def writeScientific (places : Nat) : Decimal → String
  | finite negative coefficient exponent =>
    if coefficient = 0 then write (finite negative coefficient exponent)
    else
      let count := digitCount coefficient
      let rounded :=
        if count ≤ places + 1 then coefficient * 10 ^ (places + 1 - count)
        else dropDigits coefficient (count - (places + 1))
      let digits := (toString rounded).toList
      let leading := exponent + count - 1 + (digits.length - (places + 1) : Nat)
      signText negative ++ scientific 'e' (digits.take (places + 1)) leading
  | x => x.writeSpecial

def toFloat : Decimal → Float
  | finite negative coefficient exponent => Binary64.ofScientific negative ⟨coefficient, exponent⟩
  | infinite negative => Binary64.signedInfinity negative
  | notANumber negative _ _ => Binary64.copySign Binary64.nan (if negative then -1.0 else 1.0)

end Reckoner.Decimal

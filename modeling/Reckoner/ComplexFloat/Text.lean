import Reckoner.ComplexFloat.Basic
import Reckoner.Binary64.Text
import Reckoner.Text.Literal

/-! Complex numbers as text: `1+2i` as an expression writes them, and `(1+2j)` as messages do. -/

namespace Reckoner.ComplexFloat

open Reckoner.Binary64

/-- The text of a value: a real number stands alone, and so does an imaginary one. -/
def writePlain (z : ComplexFloat) : String :=
  if z.im == 0.0 then Binary64.writePlain z.re
  else
    let size := Binary64.writePlain z.im.abs ++ "i"
    if z.re == 0.0 then (if z.im < 0.0 then "-" else "") ++ size
    else Binary64.writePlain z.re ++ (if z.im < 0.0 then "-" else "+") ++ size

/-- The text of a number in messages; the signs of zeros show. -/
def write (z : ComplexFloat) : String :=
  let im := writeWith false z.im
  if z.re == 0.0 && !isNegative z.re then im ++ "j"
  else
    "(" ++ writeWith false z.re ++ (if isNegative z.im && !z.im.isNaN then "" else "+") ++ im ++ "j)"

def spanWord? (text : List Char) : Option (Float × List Char) :=
  let starts (word : String) := isWordInAnyCase (text.take word.length) word
  if starts "infinity" then some (infinity, text.drop 8)
  else if starts "inf" then some (infinity, text.drop 3)
  else if starts "nan" then some (nan, text.drop 3)
  else none

def spanDouble? (text : List Char) : Option (Float × List Char) :=
  let (negative, unsigned) := Scientific.splitSign text
  let signed (x : Float) : Float := if negative then -x else x
  match spanWord? unsigned with
  | some (x, rest) => some (signed x, rest)
  | none =>
    let (literal, rest) := LiteralStyle.spanDecimal unsigned
    (Scientific.read? literal).map fun value => (ofScientific negative value, rest)

def spanUnit? : List Char → Option (List Char)
  | c :: rest => if c == 'j' || c == 'J' then some rest else none
  | [] => none

/-- A sign without digits, which stands for one. -/
def spanSign : List Char → Float × List Char
  | '+' :: rest => (1.0, rest)
  | '-' :: rest => (-1.0, rest)
  | text => (1.0, text)

/-- Splits off a complex number: a real part, an imaginary part, or both. -/
def spanParts? (text : List Char) : Option (ComplexFloat × List Char) := do
  match spanDouble? text with
  | some (x, rest) =>
    match rest with
    | c :: _ =>
      if c == '+' || c == '-' then
        let (y, rest) := (spanDouble? rest).getD (spanSign rest)
        let rest ← spanUnit? rest
        some (⟨x, y⟩, rest)
      else
        match spanUnit? rest with
        | some rest => some (⟨0.0, x⟩, rest)
        | none => some (⟨x, 0.0⟩, rest)
    | [] => some (⟨x, 0.0⟩, [])
  | none =>
    let (y, rest) := spanSign text
    let rest ← spanUnit? rest
    some (⟨0.0, y⟩, rest)

/-- Reads a complex number; blanks and one pair of parentheses may surround it. -/
def read? (text : List Char) : Option ComplexFloat := do
  let text ← removeUnderscores? none text
  match text.dropWhile isOuterBlank with
  | '(' :: inner =>
    let (z, rest) ← spanParts? (inner.dropWhile isOuterBlank)
    match rest.dropWhile isOuterBlank with
    | ')' :: rest => if rest.all isOuterBlank then some z else none
    | _ => none
  | text =>
    let (z, rest) ← spanParts? text
    if rest.all isOuterBlank then some z else none

end Reckoner.ComplexFloat

import Reckoner.Unicode.Control

/-! Quoted text as it stands in messages: quotes around it, backslashes before what would be
misread, and codes in place of characters that do not print. -/

namespace Reckoner.Quoted

open Reckoner.Unicode

def hex (width code : Nat) : List Char :=
  let digits := Nat.toDigits 16 code
  List.replicate (width - digits.length) '0' ++ digits

/-- Single quotes, unless the text holds some and no double quote. -/
def quoteMark (text : List Char) : Char :=
  if text.contains '\'' && !text.contains '"' then '"' else '\''

def escape (quote c : Char) : List Char :=
  if c == quote || c == '\\' then ['\\', c]
  else if c == '\t' then ['\\', 't']
  else if c == '\n' then ['\\', 'n']
  else if c == '\r' then ['\\', 'r']
  else if isPrintable c then [c]
  else if c.toNat < 0x100 then '\\' :: 'x' :: hex 2 c.toNat
  else if c.toNat < 0x10000 then '\\' :: 'u' :: hex 4 c.toNat
  else '\\' :: 'U' :: hex 8 c.toNat

def encode (text : List Char) : List Char :=
  let quote := quoteMark text
  quote :: text.flatMap (escape quote) ++ [quote]

def quote (text : String) : String := String.ofList (encode text.toList)

end Reckoner.Quoted

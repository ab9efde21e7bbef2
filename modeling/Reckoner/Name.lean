import Reckoner.Text.Quoted
import Reckoner.Unicode.Digit

/-! Names of constants, variables, functions and operators. -/

namespace Reckoner.Name

open Reckoner.Unicode

/-- The first character of a name that may not stand in one, as a message. -/
def checkCharacters (name : String) : List Char → Except String Unit
  | [] => .ok ()
  | c :: rest =>
    if isBlank c then .error ("Name '" ++ name ++ "' cannot contain whitespace")
    else if isControl c then
      .error ("Name " ++ Quoted.quote name ++ " cannot contain control characters")
    else checkCharacters name rest

/-- A name is not empty, does not start like a number and has neither blanks nor control
characters. -/
def check (name : String) : Except String Unit :=
  match name.toList with
  | [] => .error "Name cannot be empty"
  | c :: rest =>
    if isDigitSign c || c == '.' then
      .error ("Name '" ++ name ++ "' cannot start with a digit or '.'")
    else checkCharacters name (c :: rest)

end Reckoner.Name

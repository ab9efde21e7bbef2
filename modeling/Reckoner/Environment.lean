import Reckoner.NumberSystem.Choice
import Reckoner.Table
import Reckoner.Unicode.Lower

/-! The number system that environment variables choose. -/

namespace Reckoner.Environment

open Reckoner.Unicode

inductive Kind where
  | float
  | decimal
  | complex
  | int
  | bigint
  deriving Repr, DecidableEq

namespace Kind

def all : List Kind := [float, decimal, complex, int, bigint]

def text : Kind → String
  | float => "float"
  | decimal => "decimal"
  | complex => "complex"
  | int => "int"
  | bigint => "bigint"

def default : Kind := float

def otherWords : List (String × Kind) := [
  ("double", float), ("f64", float), ("i64", int), ("integer", int), ("bignum", bigint)]

def ofWord? (word : String) : Option Kind :=
  (otherWords.lookup word) <|> (all.find? fun kind => kind.text == word)

end Kind

def kindVariable : String := "MATHEXPR_NUMERIC"

def precisionVariable : String := "MATHEXPR_DECIMAL_PRECISION"

/-- The text of a variable without blanks around it; one that is not set is empty. -/
def valueOf (environment : Table String) (name : String) : List Char :=
  strip ((Table.find? environment name).getD "").toList

/-- The chosen kind in lower case; unknown words choose the default and a warning is given. -/
def kind (environment : Table String) : Kind × List String :=
  let word := String.ofList
    (strip (lower ((Table.find? environment kindVariable).getD "").toList))
  if word.isEmpty then (.default, [])
  else
    match Kind.ofWord? word with
    | some kind => (kind, [])
    | none =>
      (.default, ["Unknown " ++ kindVariable ++ " value '" ++ word ++ "'. Valid values: " ++
        ", ".intercalate (Kind.all.map Kind.text) ++ ". Defaulting to " ++ Kind.default.text ++ "."])

/-- The chosen precision of decimals; one that is not allowed is the default and a warning is given. -/
def precision (environment : Table String) : Nat × List String :=
  let word := valueOf environment precisionVariable
  let most := NumberSystem.Decimals.maxPrecision
  let default := NumberSystem.Decimals.defaultPrecision
  if word.isEmpty then (default, [])
  else
    let chosen := (Numeral.read? word).getD 0
    if 1 ≤ chosen ∧ chosen ≤ most then (chosen.toNat, [])
    else
      (default, ["Invalid " ++ precisionVariable ++ " value '" ++ String.ofList word ++
        "'. Expected an integer from 1 to " ++ toString most ++ ". Defaulting to " ++
        toString default ++ "."])

def numberSystem (environment : Table String) : NumberSystem.Choice :=
  match (kind environment).1 with
  | .float => .floating
  | .complex => .complex
  | .int => .integer ⟨some 64⟩
  | .bigint => .integer ⟨none⟩
  | .decimal =>
    let range := NumberSystem.Decimals.defaultRange
    .decimals ⟨(precision environment).1, -range, range, true⟩

end Reckoner.Environment

import Reckoner.ComplexFloat.Text
import Reckoner.Decimal.Text
import Reckoner.Text.Quoted

/-! Values as they are handed to a registry: a number system turns them into its own numbers or
refuses them. -/

namespace Reckoner

inductive Datum where
  | absent
  | bool (value : Bool)
  | int (value : Int)
  | float (value : Float)
  | complex (value : ComplexFloat)
  | decimal (value : Decimal)
  | fraction (numerator : Int) (denominator : Nat)
  | text (value : String)
  | list (values : List Datum)

namespace Datum

instance : Inhabited Datum := ⟨absent⟩

def ofRatio (numerator : Int) (denominator : Nat) : Datum :=
  let divisor := Nat.gcd numerator.natAbs denominator
  fraction (numerator / divisor) (denominator / divisor)

/-- A value as messages show it; whole numbers that are too long to be written have no text. -/
def describe? : Datum → Option String
  | absent => some "None"
  | bool value => some (if value then "True" else "False")
  | int value => Numeral.write? value
  | float value => some (Binary64.write value)
  | complex value => some value.write
  | decimal value => some ("Decimal('" ++ value.write ++ "')")
  | fraction numerator denominator => do
    let numerator ← Numeral.write? numerator
    let denominator ← Numeral.write? denominator
    some ("Fraction(" ++ numerator ++ ", " ++ denominator ++ ")")
  | text value => some (Quoted.quote value)
  | list values => do
    let texts ← describeAll? values
    some ("[" ++ ", ".intercalate texts ++ "]")
where
  /-- The texts of the members of a list. -/
  describeAll? : List Datum → Option (List String)
    | [] => some []
    | value :: rest => do
      let text ← describe? value
      let texts ← describeAll? rest
      some (text :: texts)

end Datum

end Reckoner

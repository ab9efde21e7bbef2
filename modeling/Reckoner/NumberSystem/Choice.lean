import Reckoner.NumberSystem.Complex
import Reckoner.NumberSystem.Decimals
import Reckoner.NumberSystem.Integer

/-! The number systems of this library as one type of choices. -/

namespace Reckoner.NumberSystem

inductive Choice where
  | floating
  | complex
  | integer (width : Integer.Width)
  | decimals (context : Decimal.Context)
  deriving Repr, DecidableEq

namespace Choice

abbrev Value : Choice → Type
  | floating => Float
  | complex => ComplexFloat
  | integer _ => Int
  | decimals _ => Decimal

def system : (choice : Choice) → NumberSystem choice.Value
  | floating => Floating.system
  | complex => Complex.system
  | integer width => Integer.system width
  | decimals context => Decimals.system context

def toDatum : (choice : Choice) → choice.Value → Datum
  | floating, x => .float x
  | complex, z => .complex z
  | integer _, n => .int n
  | decimals _, x => .decimal x

def ofDatum? : (choice : Choice) → Datum → Option choice.Value
  | floating, .float x => some x
  | complex, .complex z => some z
  | integer _, .int n => some n
  | decimals _, .decimal x => some x
  | _, _ => none

end Choice

end Reckoner.NumberSystem

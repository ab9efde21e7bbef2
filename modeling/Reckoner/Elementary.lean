/-! The elementary functions that every number system offers, natively or by way of doubles. -/

namespace Reckoner

inductive Elementary where
  | abs | sqrt | cbrt | exp | ln | log | gamma | toRadians | toDegrees
  | sin | cos | tan | asin | acos | atan | atan2
  | sinh | cosh | tanh | asinh | acosh | atanh
  deriving Repr, DecidableEq

namespace Elementary

def name : Elementary → String
  | abs => "abs" | sqrt => "sqrt" | cbrt => "cbrt" | exp => "exp" | ln => "ln" | log => "log"
  | gamma => "gamma" | toRadians => "to_radians" | toDegrees => "to_degrees"
  | sin => "sin" | cos => "cos" | tan => "tan"
  | asin => "asin" | acos => "acos" | atan => "atan" | atan2 => "atan2"
  | sinh => "sinh" | cosh => "cosh" | tanh => "tanh"
  | asinh => "asinh" | acosh => "acosh" | atanh => "atanh"

def all : List Elementary := [
  abs, sqrt, cbrt, exp, ln, log, gamma, toRadians, toDegrees,
  sin, cos, tan, asin, acos, atan, atan2, sinh, cosh, tanh, asinh, acosh, atanh]

def ofName? (text : String) : Option Elementary := all.find? fun function => function.name == text

/-- The number of arguments; all but one function take a single one. -/
def arity : Elementary → Nat
  | atan2 => 2
  | _ => 1

end Elementary

end Reckoner

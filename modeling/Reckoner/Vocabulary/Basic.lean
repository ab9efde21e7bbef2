import Reckoner.Table

/-! Descriptions and further names of what the library offers. -/

namespace Reckoner

structure VocabularyEntry where
  aliases : List String := []
  description : Option String := none
  deriving Repr, DecidableEq

/-- What is said about the names of the library, by the kind of descriptor. -/
structure Vocabulary where
  binary : Table VocabularyEntry := []
  unary : Table VocabularyEntry := []
  functions : Table VocabularyEntry := []
  deriving Repr, DecidableEq

namespace Vocabulary

def known (name : String) (aliases : List String) (description : String) :
    String × VocabularyEntry := (name, ⟨aliases, some description⟩)

def plain (name description : String) : String × VocabularyEntry := known name [] description

def standardBinary : Table VocabularyEntry := [
  plain "+" "Adds two values",
  plain "-" "Subtracts two values",
  plain "*" "Multiplies two values",
  plain "/" "Divides two values",
  known "%" ["mod"] "Gets the remainder of the division of two values",
  plain "^" "Raises a value to a power",
  plain "==" "1 if both values are equal, otherwise 0",
  plain "!=" "1 if the values are not equal, otherwise 0",
  plain "<" "1 if the left value is less than the right value, otherwise 0",
  plain ">" "1 if the left value is greater than the right value, otherwise 0",
  plain "<=" "1 if the left value is less than or equal to the right value, otherwise 0",
  plain ">=" "1 if the left value is greater than or equal to the right value, otherwise 0",
  known "and" ["&&"] "1 if both values are non-zero, otherwise 0",
  known "or" ["||"] "1 if either value is non-zero, otherwise 0"]

def standardUnary : Table VocabularyEntry := [
  plain "+" "Returns the value unchanged",
  plain "-" "Negates the value",
  plain "not" "1 if the value is zero, otherwise 0",
  plain "!" "Gets the factorial of a value"]

def standardFunctions : Table VocabularyEntry := [
  plain "sum" "Adds all the values",
  known "product" ["prod"] "Multiplies all the values",
  known "avg" ["mean"] "Gets the average of the values",
  plain "max" "Gets the largest of the values",
  plain "min" "Gets the smallest of the values",
  plain "abs" "Gets the absolute value",
  plain "floor" "Rounds a value down to the nearest integer",
  plain "ceil" "Rounds a value up to the nearest integer",
  known "truncate" ["trunc"] "Removes the fractional part of a value",
  plain "round" "Rounds a value to the nearest integer, halves away from zero",
  plain "sign" "Gets -1, 0 or 1 according to the sign of a value",
  plain "sqrt" "Gets the square root of a value",
  plain "cbrt" "Gets the cube root of a value",
  plain "exp" "Gets e raised to the power of a value",
  plain "ln" "Gets the natural logarithm of a value",
  plain "log"
    "Gets the base-10 logarithm of a value, or its logarithm in the base given as second argument",
  known "random" ["rand"] "Gets a random number in [0, 1), [0, max) or [min, max)",
  known "to_radians" ["toradians"] "Converts degrees to radians",
  known "to_degrees" ["todegrees"] "Converts radians to degrees",
  plain "sin" "Gets the sine of an angle in degrees",
  plain "cos" "Gets the cosine of an angle in degrees",
  plain "tan" "Gets the tangent of an angle in degrees",
  plain "csc" "Gets the cosecant of an angle in degrees",
  plain "sec" "Gets the secant of an angle in degrees",
  plain "cot" "Gets the cotangent of an angle in degrees",
  known "asin" ["arcsin"] "Gets the inverse sine of a value, in degrees",
  known "acos" ["arccos"] "Gets the inverse cosine of a value, in degrees",
  known "atan" ["arctan"] "Gets the inverse tangent of a value, in degrees",
  plain "atan2" "Gets the angle in degrees of the point (x, y), called as atan2(y, x)",
  known "acsc" ["arccsc"] "Gets the inverse cosecant of a value, in degrees",
  known "asec" ["arcsec"] "Gets the inverse secant of a value, in degrees",
  known "acot" ["arccot"] "Gets the inverse cotangent of a value, in degrees",
  plain "sinh" "Gets the hyperbolic sine of a value",
  plain "cosh" "Gets the hyperbolic cosine of a value",
  plain "tanh" "Gets the hyperbolic tangent of a value",
  plain "csch" "Gets the hyperbolic cosecant of a value",
  plain "sech" "Gets the hyperbolic secant of a value",
  plain "coth" "Gets the hyperbolic cotangent of a value",
  known "asinh" ["arcsinh"] "Gets the inverse hyperbolic sine of a value",
  known "acosh" ["arccosh"] "Gets the inverse hyperbolic cosine of a value",
  known "atanh" ["arctanh"] "Gets the inverse hyperbolic tangent of a value",
  known "acsch" ["arccsch"] "Gets the inverse hyperbolic cosecant of a value",
  known "asech" ["arcsech"] "Gets the inverse hyperbolic secant of a value",
  known "acoth" ["arccoth"] "Gets the inverse hyperbolic cotangent of a value"]

def standard : Vocabulary := ⟨standardBinary, standardUnary, standardFunctions⟩

end Vocabulary

end Reckoner

import Reckoner.Unicode.Ranges

/-! Blank characters: white space and the separators of information. -/

namespace Reckoner.Unicode

def blankRanges : Ranges := [
  (0x9, 0xd), (0x1c, 0x20), (0x85, 0x85), (0xa0, 0xa0), (0x1680, 0x1680), (0x2000, 0x200a),
  (0x2028, 0x2029), (0x202f, 0x202f), (0x205f, 0x205f), (0x3000, 0x3000)]

/-- Blanks stand between tokens and may not occur in a name. -/
def isBlank (c : Char) : Bool := blankRanges.has c.toNat

def strip (text : List Char) : List Char :=
  ((text.dropWhile isBlank).reverse.dropWhile isBlank).reverse

end Reckoner.Unicode

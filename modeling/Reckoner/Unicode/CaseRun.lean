/-! Case mappings of single characters as runs of code points with one common shift. -/

namespace Reckoner.Unicode

/-- Every `step`-th code point from `first` to `last` moves by `shift`. -/
structure CaseRun where
  first : Nat
  last : Nat
  step : Nat
  shift : Int
  deriving Repr, DecidableEq

/-- The image of a code point under ascending runs; the search stops above the code point. -/
def CaseRun.apply : List CaseRun → Nat → Nat
  | [], code => code
  | run :: rest, code =>
    if code < run.first then code
    else if run.last < code then CaseRun.apply rest code
    else if (code - run.first) % run.step = 0 then (code + run.shift).toNat
    else code

end Reckoner.Unicode

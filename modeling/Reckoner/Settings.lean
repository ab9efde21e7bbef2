import Reckoner.Flaw
import Reckoner.Unicode.Blank
import Reckoner.Unicode.Word

/-! Settings of the notation: the symbols that group, the one that separates arguments, and what may
be left out. -/

namespace Reckoner

open Reckoner.Unicode

/-- Checked settings. The first group wraps the arguments of functions. -/
structure Settings where
  groups : List (Char × Char)
  separator : Char
  /-- A product sign may be left out between values. -/
  implicitProduct : Bool
  /-- Every group may wrap the arguments of functions. -/
  anyGroupCalls : Bool
  groups_ne_nil : groups ≠ []

namespace Settings

structure Draft where
  groups : List (String × String) := [("(", ")")]
  separator : String := ","
  implicitProduct : Bool := false
  anyGroupCalls : Bool := false
  deriving Repr, DecidableEq

inductive Role where
  | group
  | separator
  deriving Repr, DecidableEq

def Role.text : Role → String
  | group => "Group symbol"
  | separator => "Argument separator"

/-- Blanks and characters of numbers and names cannot be symbols. -/
def isSymbol (c : Char) : Bool := !(isBlank c || isAlphanumeric c || c == '.' || c == '_')

/-- A symbol is one character that can be one. -/
def checkSymbol (role : Role) (text : String) : Except String Char :=
  match text.toList with
  | [c] =>
    if isSymbol c then .ok c
    else .error (role.text ++ " '" ++ text ++
      "' cannot be whitespace, a letter, a digit, '.' or '_'")
  | _ => .error (role.text ++ " '" ++ text ++ "' must be a single character")

/-- A symbol that is not among those seen so far. -/
def checkNewSymbol (seen : List Char) (text : String) : Except String Char := do
  let c ← checkSymbol .group text
  if seen.contains c then throw ("Group symbol '" ++ text ++ "' is used more than once")
  return c

/-- Checks groups in order, each with its opening symbol first. -/
def checkPairs : List Char → List (String × String) → Except String (List (Char × Char))
  | _, [] => .ok []
  | seen, (opening, closing) :: rest => do
    let left ← checkNewSymbol seen opening
    let right ← checkNewSymbol (left :: seen) closing
    let others ← checkPairs (right :: left :: seen) rest
    return (left, right) :: others

def checkGroups (groups : List (String × String)) :
    Except String { pairs : List (Char × Char) // pairs ≠ [] } := do
  match groups with
  | [] => throw "At least one group symbol pair is required"
  | groups =>
    match ← checkPairs [] groups with
    | [] => throw "At least one group symbol pair is required"
    | pair :: rest => return ⟨pair :: rest, List.cons_ne_nil pair rest⟩

def groupsWith (groups : List (Char × Char)) (c : Char) : Bool :=
  groups.any fun pair => pair.1 == c || pair.2 == c

/-- Checks the fields, and then that the separator is no symbol of a group. -/
def Draft.check (draft : Draft) : Checked Settings :=
  match checkGroups draft.groups, checkSymbol .separator draft.separator with
  | .ok ⟨groups, nonempty⟩, .ok separator =>
    if groupsWith groups separator then
      .error [⟨[], .rule ("Argument separator '" ++ draft.separator ++ "' is also a group symbol")⟩]
    else .ok ⟨groups, separator, draft.implicitProduct, draft.anyGroupCalls, nonempty⟩
  | groups, separator =>
    .error (Checked.flawOf "group_symbols" (Checked.ruleOf groups) ++
      Checked.flawOf "arg_separator" (Checked.ruleOf separator))

def standard : Settings := ⟨[('(', ')')], ',', false, false, List.cons_ne_nil _ _⟩

instance : Inhabited Settings := ⟨standard⟩

def toDraft (settings : Settings) : Draft where
  groups := settings.groups.map fun pair => (String.singleton pair.1, String.singleton pair.2)
  separator := String.singleton settings.separator
  implicitProduct := settings.implicitProduct
  anyGroupCalls := settings.anyGroupCalls

def callSymbol (settings : Settings) : Char := (settings.groups.head settings.groups_ne_nil).1

def closerOf? (settings : Settings) (opening : Char) : Option Char :=
  settings.groups.lookup opening

def openerOf? (settings : Settings) (closing : Char) : Option Char :=
  (settings.groups.map Prod.swap).lookup closing

/-- The symbol that closes a group, for symbols given as texts. -/
def closingText? (settings : Settings) (opening : String) : Option String :=
  match opening.toList with
  | [c] => (settings.closerOf? c).map String.singleton
  | _ => none

inductive Change where
  | group (opening closing : String)
  | implicitProduct (enabled : Bool)
  | anyGroupCalls (enabled : Bool)
  | separator (symbol : String)
  deriving Repr, DecidableEq

/-- Whether a change leaves the settings as they are without a check: a group that is present. -/
def keeps (settings : Settings) : Change → Bool
  | .group opening closing => settings.toDraft.groups.contains (opening, closing)
  | _ => false

def changeDraft (draft : Draft) : Change → Draft
  | .group opening closing => { draft with groups := draft.groups ++ [(opening, closing)] }
  | .implicitProduct enabled => { draft with implicitProduct := enabled }
  | .anyGroupCalls enabled => { draft with anyGroupCalls := enabled }
  | .separator symbol => { draft with separator := symbol }

/-- Changed settings are checked again. -/
def change (settings : Settings) (step : Change) : Checked Settings :=
  if settings.keeps step then .ok settings else (changeDraft settings.toDraft step).check

end Settings

end Reckoner

/-! What is wrong with the fields of a record that does not pass its checks. -/

namespace Reckoner

inductive Flaw where
  /-- A rule of this library, in words. -/
  | rule (message : String)
  | missing
  | notAmongChoices
  | belowMinimum
  | unknownKind
  | notList
  | notText
  | notTable
  | notEntry
  deriving Repr, DecidableEq

/-- A violated condition with the path to the field. Conditions on the whole record have no path. -/
structure FieldFlaw where
  path : List String
  flaw : Flaw
  deriving Repr, DecidableEq

abbrev Checked (α : Type) := Except (List FieldFlaw) α

namespace Checked

def flawOf (field : String) (problem : Option Flaw) : List FieldFlaw :=
  match problem with
  | some flaw => [⟨[field], flaw⟩]
  | none => []

def ruleOf {α : Type} (result : Except String α) : Option Flaw :=
  match result with
  | .ok _ => none
  | .error message => some (.rule message)

def within {α : Type} (field : String) (result : Checked α) : Checked α :=
  result.mapError fun flaws => flaws.map fun flaw => { flaw with path := field :: flaw.path }

end Checked

end Reckoner

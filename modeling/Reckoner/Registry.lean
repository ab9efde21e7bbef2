import Reckoner.Descriptor
import Reckoner.NumberSystem.Basic
import Reckoner.Settings
import Reckoner.Table
import Reckoner.Unicode.Fold

/-! The registry that expressions are evaluated with: a number system, settings, and what names stand
for. Names are compared by their case folding, except that variables of different spelling are
different. No folded name is at once a constant, a variable and a function or operator. -/

namespace Reckoner

open Reckoner.Unicode

inductive Refusal where
  | refused (error : RegistrationError)
  /-- The fields of a descriptor do not pass their checks. -/
  | flawed (flaws : List FieldFlaw)
  /-- The number system fails in a way that is not described. -/
  | failed (fault : Fault)
  deriving Repr, DecidableEq

/-- An entry with the number of the registration that made it; aliases share their number. -/
structure Registered (β : Type) where
  serial : Nat
  entry : β

/-- Constants, functions and operators are kept under folded names, variables under their spelling.
`names` has the first spelling of each folded name of a function or operator. -/
structure Registry (α : Type) where
  system : NumberSystem α
  settings : Settings
  constants : Table (String × α)
  bindings : Table α
  functions : Table (Registered (NamedFunction α))
  unary : Table (Registered (UnaryOperator α))
  binary : Table (Registered (BinaryOperator α))
  names : Table String
  nextSerial : Nat

namespace Registry

variable {α : Type}

def empty (system : NumberSystem α) (settings : Settings) : Registry α :=
  ⟨system, settings, [], [], [], [], [], [], 0⟩

def copy (registry : Registry α) : Registry α :=
  { empty registry.system registry.settings with
    constants := registry.constants
    bindings := registry.bindings
    functions := registry.functions
    unary := registry.unary
    binary := registry.binary
    names := registry.names
    nextSerial := registry.nextSerial }

def describe (registry : Registry α) : String :=
  "Context(numeric=" ++ registry.system.label ++
    ", constants=" ++ toString registry.constants.length ++
    ", variables=" ++ toString registry.bindings.length ++
    ", functions=" ++ toString registry.names.length ++ ")"

/-! ### Attempts -/

/-- What an attempt to change a registry leaves, and the refusal that it ends with if it fails. -/
abbrev Attempt (α : Type) := Registry α × Option Refusal

/-- A change that is made as a whole or not at all. -/
def attempt (registry : Registry α) : Except Refusal (Registry α) → Attempt α
  | .ok next => (next, none)
  | .error refusal => (registry, some refusal)

/-- What an attempt leaves, if it succeeds. -/
def Attempt.outcome : Attempt α → Except Refusal (Registry α)
  | (next, none) => .ok next
  | (_, some refusal) => .error refusal

/-! ### Conflicts between names -/

def conflict (name category : String) : Refusal :=
  .refused ⟨.nameConflict, "Cannot define '" ++ name ++ "': it is already defined as " ++ category⟩

def hasVariableFolded (registry : Registry α) (key : String) : Bool :=
  registry.bindings.any fun entry => fold entry.1 == key

inductive ValueRole where
  | fixed
  | settable
  deriving Repr, DecidableEq

/-- A value needs a well-formed name that nothing of another category has. -/
def checkValueName (registry : Registry α) (name : String) (role : ValueRole) :
    Except Refusal Unit := do
  match Name.check name with
  | .error message => throw (.refused ⟨.invalidInput, message⟩)
  | .ok _ => pure ()
  let key := fold name
  if role ≠ .fixed ∧ registry.constants.contains key then throw (conflict name "a constant")
  if role ≠ .settable ∧ registry.hasVariableFolded key then throw (conflict name "a variable")
  if registry.names.contains key then throw (conflict name "a function or operator")

/-- The names of a function or operator; a function and an operator cannot share one. -/
def checkFunctionNames (registry : Registry α) (isFunction : Bool) : List String → Except Refusal Unit
  | [] => .ok ()
  | name :: rest => do
    let key := fold name
    if registry.constants.contains key then throw (conflict name "a constant")
    if registry.hasVariableFolded key then throw (conflict name "a variable")
    if isFunction && (registry.unary.contains key || registry.binary.contains key) then
      throw (conflict name "an operator")
    if !isFunction && registry.functions.contains key then throw (conflict name "a function")
    checkFunctionNames registry isFunction rest

/-! ### Constants and variables -/

def coerce (registry : Registry α) (name : String) (value : Datum) : Except Refusal α :=
  match registry.system.coerce value with
  | .ok number => .ok number
  | .error (.unsuitable _) | .error .mistyped =>
    match value.describe? with
    | some text =>
      .error (.refused ⟨.invalidInput, "Cannot use " ++ text ++ " as a " ++ registry.system.name ++
        " value for '" ++ name ++ "'"⟩)
    | none => .error (.failed NumberSystem.tooLong)
  | .error (.outOfRange _) =>
    .error (.refused ⟨.overflow, "Cannot store '" ++ name ++ "': value is out of range for " ++
      registry.system.name⟩)
  | .error (.described error) =>
    .error (.refused ⟨error.kind, "Cannot store '" ++ name ++ "': " ++ error.message⟩)
  | .error fault => .error (.failed fault)

def storeConstant (registry : Registry α) (name : String) (value : α) : Registry α :=
  { registry with constants := registry.constants.insert (fold name) (name, value) }

def checkConstant (registry : Registry α) (name : String) (overwrite : Bool) :
    Except Refusal Unit := do
  registry.checkValueName name .fixed
  if registry.constants.contains (fold name) && !overwrite then
    throw (.refused ⟨.nameConflict, "Constant '" ++ name ++ "' is already defined"⟩)

/-- Defines a constant; a defined one is changed only if asked for. -/
def addConstant (registry : Registry α) (name : String) (value : Datum) (overwrite : Bool) :
    Except Refusal (Registry α) := do
  registry.checkConstant name overwrite
  return registry.storeConstant name (← registry.coerce name value)

def setVariable (registry : Registry α) (name : String) (value : Datum) :
    Except Refusal (Registry α) := do
  registry.checkValueName name .settable
  let number ← registry.coerce name value
  return { registry with bindings := registry.bindings.insert name number }

def removeVariable (registry : Registry α) (name : String) : Registry α :=
  { registry with bindings := registry.bindings.erase name }

def getConstant? (registry : Registry α) (name : String) : Option α :=
  (registry.constants.find? (fold name)).map Prod.snd

def getVariable? (registry : Registry α) (name : String) : Option α := registry.bindings.find? name

/-- The constants with the spellings under which they were last defined. -/
def constantEntries (registry : Registry α) : Table α := registry.constants.values

def valueNames (registry : Registry α) : List String :=
  registry.constants.values.map Prod.fst ++ registry.bindings.keys

/-! ### Functions and operators -/

/-- Enters the spellings of names that are new. -/
def remember (names : List String) (table : Table String) : Table String :=
  names.foldl (fun table name => table.insertNew (fold name) name) table

def enter {β : Type} (names : List String) (item : β) (table : Table β) : Table β :=
  names.foldl (fun table name => table.insert (fold name) item) table

def enterFunction (registry : Registry α) (function : NamedFunction α) :
    Except Refusal (Registry α) := do
  let names := function.names
  registry.checkFunctionNames true names
  return { registry with
    functions := enter names ⟨registry.nextSerial, function⟩ registry.functions
    names := remember names registry.names
    nextSerial := registry.nextSerial + 1 }

def enterUnary (registry : Registry α) (operator : UnaryOperator α) : Except Refusal (Registry α) := do
  let names := operator.names
  registry.checkFunctionNames false names
  return { registry with
    unary := enter names ⟨registry.nextSerial, operator⟩ registry.unary
    names := remember names registry.names
    nextSerial := registry.nextSerial + 1 }

def enterBinary (registry : Registry α) (operator : BinaryOperator α) :
    Except Refusal (Registry α) := do
  let names := operator.names
  registry.checkFunctionNames false names
  return { registry with
    binary := enter names ⟨registry.nextSerial, operator⟩ registry.binary
    names := remember names registry.names
    nextSerial := registry.nextSerial + 1 }

def enterDescriptor (registry : Registry α) : Descriptor α → Except Refusal (Registry α)
  | .function function => registry.enterFunction function
  | .unary operator => registry.enterUnary operator
  | .binary operator => registry.enterBinary operator

/-- Registers a descriptor: enters it, and announces it then. What a refused entry leaves is the registry as it was; an
announcement that fails leaves the entry. -/
def register (registry : Registry α) (descriptor : Descriptor α) : Attempt α :=
  match registry.enterDescriptor descriptor with
  | .error refusal => (registry, some refusal)
  | .ok next =>
    (next, match descriptor.announcement with
      | .ok _ => none
      | .error fault => some (.failed fault))

/-- The registry with a descriptor, if its registration succeeds. -/
def add (registry : Registry α) (descriptor : Descriptor α) : Except Refusal (Registry α) :=
  (registry.register descriptor).outcome

def getFunction? (registry : Registry α) (name : String) : Option (NamedFunction α) :=
  (registry.functions.find? (fold name)).map Registered.entry

def getUnary? (registry : Registry α) (name : String) : Option (UnaryOperator α) :=
  (registry.unary.find? (fold name)).map Registered.entry

def getBinary? (registry : Registry α) (name : String) : Option (BinaryOperator α) :=
  (registry.binary.find? (fold name)).map Registered.entry

/-- All names of functions and operators in the order of registration. -/
def functionNames (registry : Registry α) : List String := registry.names.values

/-- The descriptors of a folded name: a function or the operators. -/
def descriptorsOf (registry : Registry α) (key : String) : List (Registered (Descriptor α)) :=
  ((registry.functions.find? key).map fun found => ⟨found.serial, .function found.entry⟩).toList ++
  ((registry.unary.find? key).map fun found => ⟨found.serial, .unary found.entry⟩).toList ++
  ((registry.binary.find? key).map fun found => ⟨found.serial, .binary found.entry⟩).toList

/-- The first of the items with each serial number. -/
def distinct {β : Type} : List (Registered β) → List Nat → List β
  | [], _ => []
  | item :: rest, seen =>
    if seen.contains item.serial then distinct rest seen
    else item.entry :: distinct rest (item.serial :: seen)

/-- Each registered descriptor once, in the order of registration. -/
def descriptors (registry : Registry α) : List (Descriptor α) :=
  distinct (registry.names.keys.flatMap registry.descriptorsOf) []

end Registry

end Reckoner

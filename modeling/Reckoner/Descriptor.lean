import Reckoner.Error
import Reckoner.Flaw
import Reckoner.Name
import Reckoner.NumberSystem.Basic

/-! Functions and operators: their names, how they are written and bound, and what they compute. -/

namespace Reckoner

inductive Associativity where
  | left
  | right
  deriving Repr, DecidableEq

namespace Associativity

def text : Associativity → String
  | left => "left"
  | right => "right"

def ofText? (text : String) : Option Associativity :=
  [left, right].find? fun associativity => associativity.text == text

end Associativity

inductive Placement where
  | before
  | after
  deriving Repr, DecidableEq

namespace Placement

def text : Placement → String
  | before => "prefix"
  | after => "postfix"

def ofText? (text : String) : Option Placement :=
  [before, after].find? fun placement => placement.text == text

end Placement

/-- Named tiers of precedence; any whole number is one. -/
def Precedence.tiers : List (String × Int) :=
  [("VERY_LOW", 0), ("LOW", 1), ("MEDIUM", 2), ("HIGH", 3), ("VERY_HIGH", 4)]

namespace Precedence

def veryLow : Int := 0

def low : Int := 1

def medium : Int := 2

def high : Int := 3

def veryHigh : Int := 4

end Precedence

structure Naming where
  name : String
  aliases : List String
  description : Option String
  deriving Repr, DecidableEq

/-- The name followed by the aliases that differ from it. -/
def Naming.names (naming : Naming) : List String :=
  naming.name :: naming.aliases.filter (· != naming.name)

/-- A function that is called with a list of arguments. What it computes may depend on the place of the call too, by
which random numbers are drawn. -/
structure NamedFunction (α : Type) extends Naming where
  minArgs : Nat
  maxArgs : Option Nat
  run : Nat → List α → Outcome α

namespace NamedFunction

variable {α : Type}

def accepts (function : NamedFunction α) (count : Nat) : Bool :=
  function.minArgs ≤ count && function.maxArgs.all fun most => count ≤ most

def arity (function : NamedFunction α) : String :=
  match function.maxArgs with
  | none => "at least " ++ toString function.minArgs
  | some most =>
    if most = function.minArgs then toString function.minArgs
    else toString function.minArgs ++ " to " ++ toString most

/-- The words of `arity`, unless one of the numbers is too long to be written. -/
def writeArity (function : NamedFunction α) : Outcome String := do
  let _ ← NumberSystem.writeInt function.minArgs
  let _ ← NumberSystem.writeInt (function.maxArgs.getD 0)
  return function.arity

def call (function : NamedFunction α) (place : Nat) (arguments : List α) : Outcome α :=
  if function.accepts arguments.length then function.run place arguments
  else do
    let arity ← function.writeArity
    throw (.report .invalidArgumentCount ("Function '" ++ function.name ++ "' expects " ++ arity ++
      " argument(s), got " ++ toString arguments.length))

end NamedFunction

structure UnaryOperator (α : Type) extends Naming where
  placement : Placement
  precedence : Int
  run : α → Outcome α

structure BinaryOperator (α : Type) extends Naming where
  precedence : Int
  associativity : Associativity
  run : α → α → Outcome α

inductive Descriptor (α : Type) where
  | function (function : NamedFunction α)
  | unary (operator : UnaryOperator α)
  | binary (operator : BinaryOperator α)

namespace Descriptor

inductive Kind where
  | function
  | unary
  | binary
  deriving Repr, DecidableEq

def Kind.text : Kind → String
  | function => "function"
  | unary => "unary"
  | binary => "binary"

def Kind.ofText? (text : String) : Option Kind :=
  [Kind.function, Kind.unary, Kind.binary].find? fun kind => kind.text == text

variable {α : Type}

def kind : Descriptor α → Kind
  | function _ => .function
  | unary _ => .unary
  | binary _ => .binary

def naming : Descriptor α → Naming
  | function f => f.toNaming
  | unary operator => operator.toNaming
  | binary operator => operator.toNaming

/-- The line that announces a descriptor once it is registered, unless a number in it is too long to be written. -/
def announcement : Descriptor α → Outcome String
  | function f => do
    let arity ← f.writeArity
    return "Registered function " ++ f.name ++ " (" ++ arity ++ " args)"
  | unary operator => .ok ("Registered " ++ operator.placement.text ++ " operator " ++ operator.name)
  | binary operator => do
    let precedence ← NumberSystem.writeInt operator.precedence
    return "Registered binary operator " ++ operator.name ++ " (precedence " ++ precedence ++ ", " ++
      operator.associativity.text ++ ")"

/-- Runs a descriptor on a list of operands; operators need as many as they take. -/
def call (descriptor : Descriptor α) (operands : List α) (place : Nat := 0) : Outcome α :=
  match descriptor, operands with
  | function f, arguments => f.call place arguments
  | unary operator, [x] => operator.run x
  | binary operator, [x, y] => operator.run x y
  | _, _ => .error .mistyped

/-- The fields of a descriptor as they are asked for; fields of other kinds do not count. -/
structure Draft where
  name : Option String
  aliases : List String := []
  description : Option String := none
  minArgs : Int := 0
  maxArgs : Option Int := none
  placement : String := "prefix"
  precedence : Option Int := none
  associativity : String := "left"
  deriving Repr, DecidableEq

namespace Draft

def checkNames : List String → Except String Unit
  | [] => .ok ()
  | name :: rest => do
    Name.check name
    checkNames rest

def namingFlaws (draft : Draft) : List FieldFlaw :=
  Checked.flawOf "name" (match draft.name with
    | none => some .missing
    | some name => Checked.ruleOf (Name.check name)) ++
  Checked.flawOf "aliases" (Checked.ruleOf (checkNames draft.aliases))

def naming (draft : Draft) : Naming where
  name := draft.name.getD ""
  aliases := draft.aliases
  description := draft.description

def unlessFlawed {β : Type} (flaws : List FieldFlaw) (record : β) : Checked β :=
  if flaws.isEmpty then .ok record else .error flaws

/-- What is said of a function with room for fewer arguments than it needs. -/
def roomRule (most least : Int) : String :=
  match Numeral.write? most, Numeral.write? least with
  | some most, some least => "max_args (" ++ most ++ ") must not be less than min_args (" ++ least ++ ")"
  | _, _ => NumberSystem.tooLongText

/-- A function has room for at least its least number of arguments. -/
def function (draft : Draft) (run : Nat → List α → Outcome α) : Checked (NamedFunction α) := do
  let flaws := draft.namingFlaws ++
    Checked.flawOf "min_args" (if draft.minArgs < 0 then some .belowMinimum else none)
  unlessFlawed flaws ()
  match draft.maxArgs with
  | some most =>
    if most < draft.minArgs then
      throw [⟨[], .rule (roomRule most draft.minArgs)⟩]
  | none => pure ()
  return ⟨draft.naming, draft.minArgs.toNat, draft.maxArgs.map Int.toNat, run⟩

/-- Unary operators stand before their operand and bind like products unless told otherwise. -/
def unary (draft : Draft) (run : α → Outcome α) : Checked (UnaryOperator α) :=
  match Placement.ofText? draft.placement with
  | some placement =>
    unlessFlawed draft.namingFlaws
      ⟨draft.naming, placement, draft.precedence.getD Precedence.medium, run⟩
  | none => .error (draft.namingFlaws ++ [⟨["notation"], .notAmongChoices⟩])

/-- Binary operators bind like sums unless told otherwise. -/
def binary (draft : Draft) (run : α → α → Outcome α) : Checked (BinaryOperator α) :=
  match Associativity.ofText? draft.associativity with
  | some associativity =>
    unlessFlawed draft.namingFlaws
      ⟨draft.naming, draft.precedence.getD Precedence.low, associativity, run⟩
  | none => .error (draft.namingFlaws ++ [⟨["associativity"], .notAmongChoices⟩])

/-- A descriptor of a kind; operators run their implementation on the list of their operands. -/
def ofKind (draft : Draft) (kind : Kind) (run : List α → Outcome α) : Checked (Descriptor α) :=
  match kind with
  | .function => (draft.function fun _ => run).map .function
  | .unary => (draft.unary fun x => run [x]).map .unary
  | .binary => (draft.binary fun x y => run [x, y]).map .binary

/-- A descriptor whose kind is given as a text; its flaws are found below the kind. -/
def ofKindText (draft : Draft) (kind : String) (run : List α → Outcome α) :
    Checked (Descriptor α) :=
  match Kind.ofText? kind with
  | some known => Checked.within kind (draft.ofKind known run)
  | none => .error [⟨[], .unknownKind⟩]

end Draft

end Descriptor

end Reckoner

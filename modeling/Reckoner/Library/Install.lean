import Reckoner.Library.Functions
import Reckoner.Registry
import Reckoner.Vocabulary.Basic

/-! Registration of the library. -/

namespace Reckoner.Library

variable {α : Type}

/-- Logic binds looser than comparisons, and a disjunction loosest of all. -/
def andPrecedence : Int := Precedence.veryLow - 1

def orPrecedence : Int := Precedence.veryLow - 2

structure BinaryRow (α : Type) where
  name : String
  precedence : Int
  associativity : Associativity
  run : α → α → Outcome α

structure UnaryRow (α : Type) where
  name : String
  placement : Placement
  precedence : Int
  run : α → Outcome α

structure FunctionRow (α : Type) where
  name : String
  minArgs : Int
  maxArgs : Option Int
  run : Nat → List α → Outcome α

def binaryRows (base : Base α) : List (BinaryRow α) :=
  let system := base.system
  [⟨"+", Precedence.low, .left, system.add⟩,
    ⟨"-", Precedence.low, .left, system.sub⟩,
    ⟨"*", Precedence.medium, .left, system.mul⟩,
    ⟨"/", Precedence.medium, .left, system.div⟩,
    ⟨"%", Precedence.medium, .left, system.rem⟩,
    ⟨"^", Precedence.high, .right, system.pow⟩,
    ⟨"==", Precedence.veryLow, .left, base.equality id⟩,
    ⟨"!=", Precedence.veryLow, .left, base.equality not⟩,
    ⟨"<", Precedence.veryLow, .left, base.ordered Ordering.isLT⟩,
    ⟨">", Precedence.veryLow, .left, base.ordered Ordering.isGT⟩,
    ⟨"<=", Precedence.veryLow, .left, base.ordered Ordering.isLE⟩,
    ⟨">=", Precedence.veryLow, .left, base.ordered Ordering.isGE⟩,
    ⟨"and", andPrecedence, .left, base.conjunction⟩,
    ⟨"or", orPrecedence, .left, base.disjunction⟩]

def unaryRows (base : Base α) : List (UnaryRow α) :=
  [⟨"+", .before, Precedence.medium, .ok⟩,
    ⟨"-", .before, Precedence.medium, base.system.neg⟩,
    ⟨"not", .before, andPrecedence, base.negation⟩,
    ⟨"!", .after, Precedence.veryHigh, base.factorial⟩]

def oneRow (name : String) (run : α → Outcome α) : FunctionRow α :=
  ⟨name, 1, some 1, fun _ arguments =>
    match arguments with
    | x :: _ => run x
    | [] => .error .missing⟩

def aggregateRow (name : String) (run : List α → Outcome α) : FunctionRow α :=
  ⟨name, 1, none, fun _ => run⟩

def namedElementary : List Elementary := [
  .sqrt, .cbrt, .exp, .ln, .toRadians, .toDegrees,
  .sin, .cos, .tan, .asin, .acos, .atan, .sinh, .cosh, .tanh, .asinh, .acosh, .atanh]

def reciprocals : List (String × Elementary) := [
  ("csc", .sin), ("sec", .cos), ("cot", .tan), ("csch", .sinh), ("sech", .cosh), ("coth", .tanh)]

def inverseReciprocals : List (String × Elementary) := [
  ("acsc", .asin), ("asec", .acos), ("acot", .atan),
  ("acsch", .asinh), ("asech", .acosh), ("acoth", .atanh)]

/-- The functions, given the numbers that random numbers are drawn by. -/
def functionRows (base : Base α) (draws : Draws) : List (FunctionRow α) :=
  let system := base.system
  [aggregateRow "sum" base.sum,
    aggregateRow "product" base.product,
    aggregateRow "avg" base.average,
    aggregateRow "max" base.maximum,
    aggregateRow "min" base.minimum,
    oneRow "abs" base.absolute,
    oneRow "floor" (system.toIntegral .floor),
    oneRow "ceil" (system.toIntegral .ceiling),
    oneRow "truncate" (system.toIntegral .truncate),
    oneRow "round" (system.toIntegral .halfUp),
    oneRow "sign" base.sign,
    ⟨"log", 1, some 2, fun _ => base.logarithm⟩,
    ⟨"random", 0, some 2, fun place => base.random (draws.draw place)⟩,
    ⟨"atan2", 2, some 2, fun _ => elementary system .atan2⟩] ++
  namedElementary.map (fun function =>
    oneRow function.name fun x => elementary system function [x]) ++
  reciprocals.map (fun (name, function) => oneRow name (base.reciprocalOf function)) ++
  inverseReciprocals.map (fun (name, function) => oneRow name (base.ofReciprocal function))

/-- The fields of a descriptor with what the vocabulary says about its name. -/
def draftOf (entries : Table VocabularyEntry) (name : String) : Descriptor.Draft :=
  match Table.find? entries name with
  | some entry => { name := some name, aliases := entry.aliases, description := entry.description }
  | none => { name := some name }

abbrev Registration (α : Type) := Registry α → Registry.Attempt α

/-- Coerces a constant that already is a number of the system, and defines it anew. -/
def registerConstant (entry : String × α) : Registration α := fun registry =>
  registry.attempt (registry.addConstant entry.1 (registry.system.toDatum entry.2) true)

def registerChecked (made : Checked (Descriptor α)) : Registration α := fun registry =>
  match made with
  | .ok descriptor => registry.register descriptor
  | .error flaws => (registry, some (.flawed flaws))

def BinaryRow.made (vocabulary : Vocabulary) (row : BinaryRow α) : Checked (BinaryOperator α) :=
  let draft := { draftOf vocabulary.binary row.name with
    precedence := some row.precedence
    associativity := row.associativity.text }
  draft.binary row.run

def UnaryRow.made (vocabulary : Vocabulary) (row : UnaryRow α) : Checked (UnaryOperator α) :=
  let draft := { draftOf vocabulary.unary row.name with
    precedence := some row.precedence
    placement := row.placement.text }
  draft.unary row.run

def FunctionRow.made (vocabulary : Vocabulary) (row : FunctionRow α) : Checked (NamedFunction α) :=
  let draft := { draftOf vocabulary.functions row.name with
    minArgs := row.minArgs
    maxArgs := row.maxArgs }
  draft.function row.run

def madeDescriptors (base : Base α) (draws : Draws) (vocabulary : Vocabulary) : List (Checked (Descriptor α)) :=
  (binaryRows base).map (fun row => (row.made vocabulary).map .binary) ++
    (unaryRows base).map (fun row => (row.made vocabulary).map .unary) ++
    (functionRows base draws).map (fun row => (row.made vocabulary).map .function)

/-- Runs registrations up to the first that fails. What has been registered by then stays. -/
def runAll : List (Registration α) → Registration α
  | [], registry => (registry, none)
  | register :: rest, registry =>
    match register registry with
    | (next, none) => runAll rest next
    | (left, some refusal) => (left, some refusal)

def registrations (base : Base α) (constants : List (String × α)) (draws : Draws)
    (vocabulary : Vocabulary) : List (Registration α) :=
  constants.map registerConstant ++ (madeDescriptors base draws vocabulary).map registerChecked

/-- Registers the library. Constants are overwritten, operators and functions replaced. -/
def install (draws : Draws) (vocabulary : Vocabulary) : Registration α := fun registry =>
  let prepared := do
    let base ← Base.of registry.system
    return (base, ← registry.system.constants)
  match prepared with
  | .ok (base, constants) => runAll (registrations base constants draws vocabulary) registry
  | .error fault => (registry, some (.failed fault))

/-- A registry that holds the library. -/
def withLibrary (draws : Draws) (system : NumberSystem α) (settings : Settings) :
    Except Refusal (Registry α) :=
  (install draws Vocabulary.standard (Registry.empty system settings)).outcome

end Reckoner.Library

import Reckoner.Scan

/-! Evaluation of tokens in one pass from left to right. Operands and pending operators stand on two
stacks; an operator is applied as soon as what follows cannot take its operands, so no tree is
built. Groups, argument lists and the places of operands are checked in the same pass. -/

namespace Reckoner.Evaluation

variable {α : Type}

/-- What an evaluation refers to. The source serves error messages only. -/
structure Scope (α : Type) where
  registry : Registry α
  settings : Settings
  source : Option String

inductive Operator (α : Type) where
  | unary (operator : UnaryOperator α)
  | binary (operator : BinaryOperator α)

/-- An open group. `base` is the number of operands below it; the arguments of a function are collected
above. -/
structure Group (α : Type) where
  symbol : String
  position : Nat
  function : Option (NamedFunction α)
  base : Nat
  separators : Nat

inductive Pending (α : Type) where
  | operator (operator : Operator α) (position : Nat)
  | group (group : Group α)

/-- The two stacks with their tops in front, whether an operand has to follow, and the place that an
error is reported at. -/
structure State (α : Type) where
  operands : List α
  pending : List (Pending α)
  expectsOperand : Bool
  position : Nat

def initial : State α := ⟨[], [], true, 0⟩

namespace Operator

def naming : Operator α → Naming
  | unary operator => operator.toNaming
  | binary operator => operator.toNaming

def precedence : Operator α → Int
  | unary operator => operator.precedence
  | binary operator => operator.precedence

/-- Whether a pending operator takes what is on its right before a binary operator of the given
precedence does. -/
def precedesBinary (precedence : Int) : Operator α → Bool
  | unary operator => precedence ≤ operator.precedence
  | binary operator =>
    if operator.precedence = precedence then operator.associativity == .left
    else precedence < operator.precedence

/-- Whether a pending operator takes the operand before a postfix operator of the given precedence
does; only tighter unary operators do. -/
def precedesPostfix (precedence : Int) : Operator α → Bool
  | unary operator => precedence < operator.precedence
  | binary _ => false

end Operator

namespace Scope

def error (scope : Scope α) (kind : ErrorKind) (message : String) (position : Nat) : Fault :=
  .described ⟨kind, message, some position, scope.source⟩

def invalid (scope : Scope α) (message : String) (position : Nat) : Fault :=
  scope.error .invalidExpression message position

/-- The fault of an implementation as an error at a place. Errors that have a place keep it, and what is
no arithmetic failure stays what it is. -/
def located (scope : Scope α) (position : Nat) : Fault → Fault
  | .described error =>
    if error.position.isNone then .described (error.locate position scope.source)
    else .described error
  | .divisionByZero _ | .signal .divisionByZero _ =>
    scope.error .divisionByZero "Division by zero" position
  | .outOfRange text | .signal .overflow text =>
    scope.error .overflow ("Overflow: " ++ text) position
  | .unsuitable text | .arithmetic text | .signal _ text =>
    scope.error .invalidInput ("Invalid input: " ++ text) position
  | .mistyped => .mistyped
  | .missing => .missing
  | .foreign name => .foreign name

/-- What an implementation answers, its fault reported at a place. -/
def run (scope : Scope α) (position : Nat) (outcome : Outcome α) : Outcome α :=
  outcome.mapError (scope.located position)

def apply (scope : Scope α) (operator : Operator α) (position : Nat) (operands : List α) :
    Outcome (List α) :=
  match operator, operands with
  | .unary operator, x :: rest => do
    let value ← scope.run position (operator.run x)
    return value :: rest
  | .binary operator, y :: x :: rest => do
    let value ← scope.run position (operator.run x y)
    return value :: rest
  | operator, _ =>
    .error (scope.invalid ("Missing operand for '" ++ operator.naming.name ++ "'") position)

/-- Applies the pending operators above the innermost group from the top on, while they are due. Errors
are reported at the operator applied last from then on. -/
def reduce (scope : Scope α) (due : Operator α → Bool) :
    List (Pending α) → List α → Nat → Outcome (List (Pending α) × List α × Nat)
  | .operator operator place :: rest, operands, position =>
    if due operator then do
      let operands ← scope.apply operator place operands
      scope.reduce due rest operands place
    else .ok (.operator operator place :: rest, operands, position)
  | pending, operands, position => .ok (pending, operands, position)

def reduceState (scope : Scope α) (due : Operator α → Bool) (state : State α) : Outcome (State α) := do
  let (pending, operands, position) ← scope.reduce due state.pending state.operands state.position
  return { state with pending, operands, position }

def operand (scope : Scope α) (value : α) (token : Token α) (state : State α) : Outcome (State α) :=
  if state.expectsOperand then
    .ok { state with operands := value :: state.operands, expectsOperand := false }
  else do
    let text ← token.lexeme.write scope.registry.system
    throw (scope.invalid ("Unexpected '" ++ text ++ "': missing operator") token.position)

def identifier (scope : Scope α) (name : String) (token : Token α) (following : Option (Token α))
    (state : State α) : Outcome (State α) :=
  match scope.registry.getVariable? name, scope.registry.getConstant? name with
  | some value, _ => scope.operand value token state
  | none, some value => scope.operand value token state
  | none, none =>
    if following.any fun next => next.lexeme.kind == .openGroup then
      .error (scope.error .unknownFunction ("Unknown function '" ++ name ++ "'") token.position)
    else .error (scope.error .unknownVariable ("Unknown variable '" ++ name ++ "'") token.position)

/-- Opens the argument list of a function with the token that follows its name. -/
def functionCall (scope : Scope α) (name : String) (token : Token α) (following : Option (Token α))
    (state : State α) : Outcome (State α) := do
  let some function := scope.registry.getFunction? name
    | throw (scope.error .unknownFunction ("Unknown function '" ++ name ++ "'") token.position)
  if !state.expectsOperand then
    throw (scope.invalid ("Unexpected function '" ++ name ++ "': missing operator") token.position)
  let opener := String.singleton scope.settings.callSymbol
  let refused :=
    scope.invalid ("Function '" ++ name ++ "' must be followed by '" ++ opener ++ "'") token.position
  match following with
  | some ⟨.openGroup symbol, position⟩ =>
    if scope.settings.anyGroupCalls || symbol == opener then
      let group := ⟨symbol, position, some function, state.operands.length, 0⟩
      return { state with pending := .group group :: state.pending }
    else throw refused
  | _ => throw refused

/-- A prefix operator waits; a postfix operator is applied at once, after tighter prefix operators. -/
def unaryOperator (scope : Scope α) (name : String) (token : Token α) (state : State α) :
    Outcome (State α) := do
  let some operator := scope.registry.getUnary? name
    | throw (scope.error .unknownFunction ("Unknown operator '" ++ name ++ "'") token.position)
  match operator.placement with
  | .before =>
    if state.expectsOperand then
      return { state with pending := .operator (.unary operator) token.position :: state.pending }
    else throw (scope.invalid ("Unexpected prefix operator '" ++ name ++ "'") token.position)
  | .after =>
    if state.expectsOperand then
      throw (scope.invalid ("Missing operand before '" ++ name ++ "'") token.position)
    let state ← scope.reduceState (Operator.precedesPostfix operator.precedence) state
    let operands ← scope.apply (.unary operator) state.position state.operands
    return { state with operands }

def binaryOperator (scope : Scope α) (name : String) (token : Token α) (state : State α) :
    Outcome (State α) := do
  let some operator := scope.registry.getBinary? name
    | throw (scope.error .unknownFunction ("Unknown operator '" ++ name ++ "'") token.position)
  if state.expectsOperand then
    throw (scope.invalid ("Missing operand before '" ++ name ++ "'") token.position)
  let state ← scope.reduceState (Operator.precedesBinary operator.precedence) state
  return { state with
    pending := .operator (.binary operator) token.position :: state.pending
    expectsOperand := true }

def openGroup (scope : Scope α) (symbol : String) (token : Token α) (state : State α) :
    Outcome (State α) :=
  if state.expectsOperand then
    let group := ⟨symbol, token.position, none, state.operands.length, 0⟩
    .ok { state with pending := .group group :: state.pending }
  else
    .error (scope.invalid ("Unexpected '" ++ symbol ++ "': missing operator") token.position)

/-- Applies all operators of the innermost group and gives that group with what waits below it. -/
def innermost (scope : Scope α) (symbol : String) (state : State α) :
    Outcome (State α × Group α × List (Pending α)) := do
  let state ← scope.reduceState (fun _ => true) state
  match state.pending with
  | .group group :: below => return (state, group, below)
  | _ => throw (scope.invalid ("Unmatched '" ++ symbol ++ "'") state.position)

/-- Ends an argument of the innermost group, which has to be a call. -/
def endArgument (scope : Scope α) (symbol : String) (state : State α) (group : Group α)
    (below : List (Pending α)) : Outcome (State α) := do
  if group.function.isNone then
    throw (scope.invalid ("'" ++ symbol ++ "' is only valid inside a function call") state.position)
  let group := { group with separators := group.separators + 1 }
  return { state with pending := .group group :: below, expectsOperand := true }

def argumentSeparator (scope : Scope α) (symbol : String) (state : State α) : Outcome (State α) := do
  if state.expectsOperand then
    throw (scope.invalid ("Missing argument before '" ++ symbol ++ "'") state.position)
  let (state, group, below) ← scope.innermost symbol state
  scope.endArgument symbol state group below

/-- Whether a closing symbol ends a call without arguments: its opener stands just before it. -/
def closesEmptyCall (state : State α) (previous : Option (Token α)) : Bool :=
  match state.pending with
  | .group group :: _ =>
    group.function.isSome && previous.any fun token => token.lexeme.kind == .openGroup
  | _ => false

/-- Calls the function of a group with the operands above its base. -/
def callGroup (scope : Scope α) (function : NamedFunction α) (group : Group α) (isEmpty : Bool)
    (token : Token α) (state : State α) : Outcome (State α) := do
  let count := state.operands.length - group.base
  let arguments := (state.operands.take count).reverse
  if count ≠ (if isEmpty then 0 else group.separators + 1) then
    throw (scope.invalid ("Malformed arguments for '" ++ function.name ++ "'") state.position)
  let value ← scope.run token.position (function.call token.position arguments)
  return { state with
    operands := value :: state.operands.drop count
    expectsOperand := false
    position := token.position }

/-- Ends the innermost group, if the symbol is the one that closes it. -/
def endGroup (scope : Scope α) (symbol : String) (isEmpty : Bool) (token : Token α) (state : State α)
    (group : Group α) (below : List (Pending α)) : Outcome (State α) := do
  let some expected := scope.settings.closingText? group.symbol
    | throw (scope.invalid ("'" ++ group.symbol ++ "' is not a group symbol") group.position)
  if symbol ≠ expected then
    throw (scope.invalid ("Mismatched '" ++ symbol ++ "': expected '" ++ expected ++ "' to close '" ++
      group.symbol ++ "' at position " ++ toString group.position) state.position)
  let state := { state with pending := below }
  match group.function with
  | some function => scope.callGroup function group isEmpty token state
  | none => return { state with expectsOperand := false }

def closeGroup (scope : Scope α) (symbol : String) (token : Token α) (previous : Option (Token α))
    (state : State α) : Outcome (State α) := do
  let isEmpty := state.expectsOperand && closesEmptyCall state previous
  if state.expectsOperand && !isEmpty then
    throw (scope.invalid ("Missing operand before '" ++ symbol ++ "'") state.position)
  let (state, group, below) ← scope.innermost symbol state
  scope.endGroup symbol isEmpty token state group below

def result (scope : Scope α) (state : State α) : Outcome α :=
  match state.pending, state.operands with
  | .group group :: _, _ =>
    .error (scope.invalid ("Unclosed '" ++ group.symbol ++ "'") group.position)
  | _, [value] => .ok value
  | _, _ => .error (scope.invalid "Expression does not reduce to a single value" state.position)

def finish (scope : Scope α) (state : State α) : Outcome α := do
  if state.expectsOperand then
    let place := match scope.source with
      | some source => source.length
      | none => state.position
    throw (scope.invalid "Unexpected end of expression" place)
  scope.result (← scope.reduceState (fun _ => true) state)

/-- Reads one token, at whose place errors are reported from then on. -/
def step (scope : Scope α) (previous : Option (Token α)) (token : Token α)
    (following : Option (Token α)) (state : State α) : Outcome (State α) :=
  let state := { state with position := token.position }
  match token.lexeme with
  | .number value => scope.operand value token state
  | .identifier name => scope.identifier name token following state
  | .functionCall name => scope.functionCall name token following state
  | .unaryOperator name => scope.unaryOperator name token state
  | .binaryOperator name => scope.binaryOperator name token state
  | .openGroup symbol => scope.openGroup symbol token state
  | .closeGroup symbol => scope.closeGroup symbol token previous state
  | .separator symbol => scope.argumentSeparator symbol state

/-- Reads all tokens. The name of a function is read with the symbol behind it. -/
def steps (scope : Scope α) : Option (Token α) → List (Token α) → State α → Outcome (State α)
  | _, [], state => .ok state
  | previous, [token], state => scope.step previous token none state
  | previous, token :: next :: rest, state => do
    let state ← scope.step previous token (some next) state
    if token.lexeme.kind == .functionCall then scope.steps (some next) rest state
    else scope.steps (some token) (next :: rest) state

end Scope

end Evaluation

open Evaluation in
/-- The value of tokens. The settings have to be those that the tokens were made with. -/
def evaluateTokens {α : Type} (registry : Registry α) (tokens : List (Token α))
    (source : Option String) (settings : Settings) : Outcome α :=
  if tokens.isEmpty then
    .error (.described ⟨.emptyExpression, "Expression is empty", some 0, source⟩)
  else do
    let scope : Scope α := ⟨registry, settings, source⟩
    scope.finish (← scope.steps none tokens initial)

def evaluate {α : Type} (registry : Registry α) (source : String) : Outcome α := do
  let tokens ← tokenize registry source registry.settings
  evaluateTokens registry tokens (some source) registry.settings

end Reckoner

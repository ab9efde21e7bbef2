import Reckoner.Evaluation

/-! The grammar of expressions, as derivations that carry what they rest on: operators and functions
come with their registration, brackets with the pair of the settings that they are. A phrase is a
row of operands with binary operators between them; how these bind is not part of the grammar. -/

namespace Reckoner.Evaluation

variable {α : Type}

/-- What an identifier stands for; a variable hides a constant. -/
def Scope.meaning (scope : Scope α) (name : String) : Outcome α :=
  match (scope.registry.getVariable? name).or (scope.registry.getConstant? name) with
  | some value => .ok value
  | none => .error (.report .unknownVariable ("Unknown variable '" ++ name ++ "'"))

/-- Whether what a token names has a property, if that is an operator or a function. -/
def Scope.Supplies (scope : Scope α) (operators : Operator α → Prop) (functions : NamedFunction α → Prop)
    (token : Token α) : Prop :=
  match token.lexeme with
  | .functionCall name =>
    ∀ function, scope.registry.getFunction? name = some function → functions function
  | .unaryOperator name =>
    ∀ operator, scope.registry.getUnary? name = some operator → operators (.unary operator)
  | .binaryOperator name =>
    ∀ operator, scope.registry.getBinary? name = some operator → operators (.binary operator)
  | .number _ | .identifier _ | .openGroup _ | .closeGroup _ | .separator _ => True

/-- A unary operator before its operand. -/
structure Leading (scope : Scope α) where
  name : String
  position : Nat
  operator : UnaryOperator α
  registered : scope.registry.getUnary? name = some operator
  before : operator.placement = .before

/-- A unary operator behind its operand. -/
structure Trailing (scope : Scope α) where
  name : String
  position : Nat
  operator : UnaryOperator α
  registered : scope.registry.getUnary? name = some operator
  after : operator.placement = .after

/-- An operator between two operands. -/
structure Joining (scope : Scope α) where
  name : String
  position : Nat
  operator : BinaryOperator α
  registered : scope.registry.getBinary? name = some operator

/-- A function that is called. -/
structure Callee (scope : Scope α) where
  name : String
  position : Nat
  function : NamedFunction α
  registered : scope.registry.getFunction? name = some function

/-- The two symbols of a pair of the settings, each at its place. -/
structure Bracket (scope : Scope α) where
  opening : Char
  closing : Char
  openedAt : Nat
  closedAt : Nat
  configured : (opening, closing) ∈ scope.settings.groups

/-- Whether a pair may wrap arguments: every pair if the settings say so, else the first one. -/
def Bracket.CanCall {scope : Scope α} (bracket : Bracket scope) : Prop :=
  scope.settings.anyGroupCalls = true ∨ bracket.opening = scope.settings.callSymbol

mutual

/-- `E ::= U (BINARY U)*` -/
inductive Phrase (scope : Scope α) where
  | last (operand : Operand scope)
  | joined (operand : Operand scope) (operator : Joining scope) (rest : Phrase scope)

/-- `U ::= PREFIX* P POSTFIX*` -/
inductive Operand (scope : Scope α) where
  | mk (leading : List (Leading scope)) (primary : Primary scope) (trailing : List (Trailing scope))

/-- `P ::= NUMBER | IDENTIFIER | OPEN E CLOSE | FUNCTION_CALL OPEN CLOSE
| FUNCTION_CALL OPEN E (SEP E)* CLOSE` -/
inductive Primary (scope : Scope α) where
  | number (value : α) (position : Nat)
  | identifier (name : String) (position : Nat)
  | group (bracket : Bracket scope) (inner : Phrase scope)
  | emptyCall (callee : Callee scope) (bracket : Bracket scope) (callable : bracket.CanCall)
  | call (callee : Callee scope) (bracket : Bracket scope) (callable : bracket.CanCall)
      (arguments : Arguments scope)

/-- `E (SEP E)*` -/
inductive Arguments (scope : Scope α) where
  | last (argument : Phrase scope)
  | more (argument : Phrase scope) (separator : String) (position : Nat) (rest : Arguments scope)

end

variable {scope : Scope α}

def Leading.token (leading : Leading scope) : Token α :=
  ⟨.unaryOperator leading.name, leading.position⟩

def Trailing.token (trailing : Trailing scope) : Token α :=
  ⟨.unaryOperator trailing.name, trailing.position⟩

def Joining.token (joining : Joining scope) : Token α :=
  ⟨.binaryOperator joining.name, joining.position⟩

def Callee.token (callee : Callee scope) : Token α :=
  ⟨.functionCall callee.name, callee.position⟩

def Bracket.opener (bracket : Bracket scope) : Token α :=
  ⟨.openGroup (String.singleton bracket.opening), bracket.openedAt⟩

def Bracket.closer (bracket : Bracket scope) : Token α :=
  ⟨.closeGroup (String.singleton bracket.closing), bracket.closedAt⟩

mutual

/-- The tokens that a phrase derives. -/
def Phrase.tokens : Phrase scope → List (Token α)
  | .last operand => operand.tokens
  | .joined operand operator rest => operand.tokens ++ operator.token :: rest.tokens

def Operand.tokens : Operand scope → List (Token α)
  | .mk leading primary trailing =>
    leading.map Leading.token ++ (primary.tokens ++ trailing.map Trailing.token)

def Primary.tokens : Primary scope → List (Token α)
  | .number value position => [⟨.number value, position⟩]
  | .identifier name position => [⟨.identifier name, position⟩]
  | .group bracket inner => bracket.opener :: (inner.tokens ++ [bracket.closer])
  | .emptyCall callee bracket _ => [callee.token, bracket.opener, bracket.closer]
  | .call callee bracket _ arguments =>
    callee.token :: bracket.opener :: (arguments.tokens ++ [bracket.closer])

def Arguments.tokens : Arguments scope → List (Token α)
  | .last argument => argument.tokens
  | .more argument separator position rest =>
    argument.tokens ++ ⟨.separator separator, position⟩ :: rest.tokens

end

/-- Whether tokens derive from the grammar. -/
def Scope.Derives (scope : Scope α) (tokens : List (Token α)) : Prop :=
  ∃ phrase : Phrase scope, phrase.tokens = tokens

end Reckoner.Evaluation

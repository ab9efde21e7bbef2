import Reckoner.NumberSystem.Basic

/-! Tokens of expressions. -/

namespace Reckoner

inductive TokenKind where
  | number
  | identifier
  | unaryOperator
  | binaryOperator
  | functionCall
  | openGroup
  | closeGroup
  | separator
  deriving Repr, DecidableEq

namespace TokenKind

def all : List TokenKind := [
  number, identifier, unaryOperator, binaryOperator, functionCall, openGroup, closeGroup, separator]

def text : TokenKind → String
  | number => "number"
  | identifier => "identifier"
  | unaryOperator => "unary_operator"
  | binaryOperator => "binary_operator"
  | functionCall => "function_call"
  | openGroup => "open_group"
  | closeGroup => "close_group"
  | separator => "arg_separator"

def ofText? (text : String) : Option TokenKind := all.find? fun kind => kind.text == text

end TokenKind

inductive Lexeme (α : Type) where
  | number (value : α)
  | identifier (name : String)
  | unaryOperator (name : String)
  | binaryOperator (name : String)
  | functionCall (name : String)
  | openGroup (symbol : String)
  | closeGroup (symbol : String)
  | separator (symbol : String)

/-- A lexeme with the number of characters before it. -/
structure Token (α : Type) where
  lexeme : Lexeme α
  position : Nat

namespace Lexeme

variable {α : Type}

def kind : Lexeme α → TokenKind
  | number _ => .number
  | identifier _ => .identifier
  | unaryOperator _ => .unaryOperator
  | binaryOperator _ => .binaryOperator
  | functionCall _ => .functionCall
  | openGroup _ => .openGroup
  | closeGroup _ => .closeGroup
  | separator _ => .separator

/-- A lexeme of a kind other than `number`. -/
def ofText? (kind : TokenKind) (text : String) : Option (Lexeme α) :=
  match kind with
  | .number => none
  | .identifier => some (identifier text)
  | .unaryOperator => some (unaryOperator text)
  | .binaryOperator => some (binaryOperator text)
  | .functionCall => some (functionCall text)
  | .openGroup => some (openGroup text)
  | .closeGroup => some (closeGroup text)
  | .separator => some (separator text)

def write (system : NumberSystem α) : Lexeme α → Outcome String
  | number value => system.write value
  | identifier text | unaryOperator text | binaryOperator text | functionCall text
  | openGroup text | closeGroup text | separator text => .ok text

end Lexeme

end Reckoner

import Reckoner.Decimal.Context

/-! Failures: what an expression or a registration is refused for, and what an implementation may
answer in place of a value. -/

namespace Reckoner

inductive ErrorKind where
  | emptyExpression
  | invalidExpression
  | unknownVariable
  | unknownFunction
  | invalidArgumentCount
  | overflow
  | divisionByZero
  | invalidInput
  | nameConflict
  deriving Repr, DecidableEq

namespace ErrorKind

def all : List ErrorKind := [
  emptyExpression, invalidExpression, unknownVariable, unknownFunction, invalidArgumentCount,
  overflow, divisionByZero, invalidInput, nameConflict]

def text : ErrorKind → String
  | emptyExpression => "empty_expression"
  | invalidExpression => "invalid_expression"
  | unknownVariable => "unknown_variable"
  | unknownFunction => "unknown_function"
  | invalidArgumentCount => "invalid_argument_count"
  | overflow => "overflow"
  | divisionByZero => "division_by_zero"
  | invalidInput => "invalid_input"
  | nameConflict => "name_conflict"

def ofText? (text : String) : Option ErrorKind := all.find? fun kind => kind.text == text

end ErrorKind

/-- A refused expression. The position counts characters of the source from zero. -/
structure EvalError where
  kind : ErrorKind
  message : String
  position : Option Int := none
  source : Option String := none
  deriving Repr, DecidableEq

namespace EvalError

def locate (error : EvalError) (position : Int) (source : Option String) : EvalError :=
  { error with position := some position, source := source }

/-- The source with a mark under a position, if both are known. -/
def excerpt? (error : EvalError) : Option String :=
  match error.position, error.source with
  | some position, some source =>
    some (source ++ "\n" ++ String.ofList (List.replicate position.toNat ' ') ++ "^")
  | _, _ => none

def describe (error : EvalError) : String :=
  match error.excerpt? with
  | some excerpt => excerpt ++ "\n" ++ error.message
  | none => error.message

end EvalError

structure RegistrationError where
  kind : ErrorKind
  message : String
  deriving Repr, DecidableEq

/-- What an implementation answers in place of a value. -/
inductive Fault where
  /-- An error that is ready to be reported. -/
  | described (error : EvalError)
  /-- An argument that has no result. -/
  | unsuitable (text : String)
  /-- A result beyond the range of the representation. -/
  | outOfRange (text : String)
  | divisionByZero (text : String)
  /-- Any other arithmetic failure. -/
  | arithmetic (text : String)
  | signal (signal : Decimal.Signal) (text : String)
  /-- Arguments of the wrong type or number. -/
  | mistyped
  /-- A part that is not there. -/
  | missing
  /-- A failure that is none of arithmetic. -/
  | foreign (name : String)
  deriving Repr, DecidableEq

/-- A value or the fault that stands for it. -/
abbrev Outcome (α : Type) := Except Fault α

namespace Fault

def report (kind : ErrorKind) (message : String) : Fault := described { kind, message }

/-- The text of a decimal signal that nothing else describes. -/
def ofSignal (signal : Decimal.Signal) : Fault :=
  let name := match signal with
    | .invalid => "InvalidOperation"
    | .divisionByZero => "DivisionByZero"
    | .overflow => "Overflow"
    | .subnormal => "Subnormal"
  .signal signal ("[<class 'decimal." ++ name ++ "'>]")

end Fault

end Reckoner

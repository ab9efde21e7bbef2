import Reckoner.Proofs.Evaluation.Pending
import Reckoner.Proofs.Evaluation.Stops

/-! What the faults of an evaluation have in common. It refuses the expression as malformed, or an operator
or a function that waits fails; a property of all these faults is one of all that a token stops with, apart
from names that stand for nothing and numbers that cannot be written. -/

namespace Reckoner.Evaluation

variable {α : Type} {scope : Scope α} {operators : Operator α → Prop}
  {functions : NamedFunction α → Prop} {holds : Fault → Prop}

/-- Whether refusals have a property, and all faults of some operators that are reported at a place. -/
structure Scope.Explains (scope : Scope α) (operators : Operator α → Prop) (holds : Fault → Prop) :
    Prop where
  invalid : ∀ message position, holds (scope.invalid message position)
  unary : ∀ operator, operators (.unary operator) → ∀ x position,
    Fails holds (scope.run position (operator.run x))
  binary : ∀ operator, operators (.binary operator) → ∀ x y position,
    Fails holds (scope.run position (operator.run x y))

/-- Whether all faults of some functions that are reported at a place have a property. -/
def Scope.ExplainsCalls (scope : Scope α) (functions : NamedFunction α → Prop) (holds : Fault → Prop) :
    Prop :=
  ∀ function, functions function → ∀ arguments position,
    Fails holds (scope.run position (function.call position arguments))

namespace Scope

variable {state : State α} {token : Token α} {previous following next : Option (Token α)}

theorem Turn.all {operator : Operator α} {place : Nat} {below : List (Pending α)} {operands : List α}
    (turn : scope.Turn next state operator place below operands)
    (known : ∀ entry ∈ state.pending, entry.All operators functions)
    (supplied : ∀ token ∈ next, scope.Supplies operators functions token) : operators operator := by
  cases turn with
  | waiting complete dues reduces isDue => exact known _ (reduces.suffix.mem List.mem_cons_self)
  | trailing complete trailing reads reduced =>
    exact supplied _ reads trailing.operator trailing.registered

theorem Calls.all {function : NamedFunction α} {group : Group α} {rest : List α}
    (calls : scope.Calls previous state token function group rest)
    (known : ∀ entry ∈ state.pending, entry.All operators functions) : functions function := by
  cases calls with
  | closer ready reduced called matching =>
    exact (List.forall_mem_cons.mp (all_of_reduce known reduced)).1 function called

namespace Explains

variable (explains : scope.Explains operators holds)

include explains

theorem apply {operator : Operator α} (known : operators operator) (position : Nat)
    (operands : List α) : Fails holds (scope.apply operator position operands) := by
  match operator, operands with
  | .unary operator, x :: _ => exact .bind (explains.unary operator known x position) fun _ _ => .ok _
  | .binary operator, y :: x :: _ =>
    exact .bind (explains.binary operator known x y position) fun _ _ => .ok _
  | .unary operator, [] => exact .error (explains.invalid _ _)
  | .binary operator, [] => exact .error (explains.invalid _ _)
  | .binary operator, [_] => exact .error (explains.invalid _ _)

variable {fault : Fault}

/-- A token whose names are known stops with a fault that has the property, unless it is a number that
cannot be written or ends a call that fails. -/
theorem stops (supplied : scope.Supplies operators functions token)
    (known : ∀ entry ∈ state.pending, entry.All operators functions)
    (named : ∀ kind message, ¬ scope.Unknown following token.lexeme kind message)
    (stops : scope.Stops previous following state token fault) :
    holds fault ∨
    (∃ value, token.lexeme = .number value ∧ state.expectsOperand = false ∧
      scope.registry.system.write value = .error fault) ∨
    ∃ function group rest raw, scope.Calls previous state token function group rest ∧
      function.call token.position (arguments group rest) = .error raw ∧
      fault = scope.located token.position raw := by
  cases stops with
  | unknown unknown => exact absurd unknown (named _ _)
  | unwritten complete number failed => exact .inr (.inl ⟨_, number, complete, failed⟩)
  | rejected => exact .inl (explains.invalid _ _)
  | applying turn failed =>
    have applies := turn.all known (by rintro _ ⟨⟩; exact supplied)
    exact .inl (explains.apply applies _ _ fault failed)
  | unfit => exact .inl (explains.invalid _ _)
  | unpaired => exact .inl (explains.invalid _ _)
  | malformed => exact .inl (explains.invalid _ _)
  | calling calls failed => exact .inr (.inr ⟨_, _, _, _, calls, failed, rfl⟩)

theorem finish (known : ∀ entry ∈ state.pending, entry.All operators functions) :
    Fails holds (scope.finish state) := by
  intro fault failed
  rcases finish_eq_error failed with ⟨_, rfl⟩ | ⟨_, _, _, _, turn, failed⟩ | ⟨_, _, _, _, rfl⟩ |
    ⟨_, _, _, _, _, rfl⟩
  · exact explains.invalid _ _
  · exact explains.apply (turn.all known (by rintro _ ⟨⟩)) _ _ fault failed
  · exact explains.invalid _ _
  · exact explains.invalid _ _

end Explains

theorem ExplainsCalls.calls (explains : scope.ExplainsCalls functions holds)
    {function : NamedFunction α} {group : Group α} {rest : List α} {raw : Fault}
    (known : ∀ entry ∈ state.pending, entry.All operators functions)
    (calls : scope.Calls previous state token function group rest)
    (failed : function.call token.position (arguments group rest) = .error raw) :
    holds (scope.located token.position raw) := by
  refine explains function (calls.all known) (arguments group rest) token.position _ ?_
  rw [failed]
  rfl

end Scope

end Reckoner.Evaluation

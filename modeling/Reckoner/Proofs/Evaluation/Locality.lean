import Reckoner.Evaluation
import Reckoner.Proofs.Scan.Locality

/-! Evaluation asks a registry for the names among the tokens only, so what is entered under names that
the source does not mention changes neither the value nor the error of an expression. -/

namespace Reckoner

open Reckoner.Unicode

variable {α : Type}

namespace Evaluation

/-- A scope with another registry. -/
def Scope.over (scope : Scope α) (registry : Registry α) : Scope α := { scope with registry }

namespace Scope

variable (scope : Scope α) (other : Registry α)

/-! ### What asks no registry -/

theorem apply_over (operator : Operator α) (position : Nat) (operands : List α) :
    (scope.over other).apply operator position operands = scope.apply operator position operands := by
  cases operator with
  | unary operator => rcases operands with _ | ⟨x, rest⟩ <;> rfl
  | binary operator => rcases operands with _ | ⟨y, _ | ⟨x, rest⟩⟩ <;> rfl

theorem reduce_over (due : Operator α → Bool) (pending : List (Pending α)) (operands : List α)
    (position : Nat) :
    (scope.over other).reduce due pending operands position =
      scope.reduce due pending operands position := by
  induction pending generalizing operands position with
  | nil => rfl
  | cons entry rest ih =>
    cases entry with
    | group group => rfl
    | operator operator place => simp only [reduce, apply_over, ih]

theorem reduceState_over (due : Operator α → Bool) (state : State α) :
    (scope.over other).reduceState due state = scope.reduceState due state := by
  simp only [reduceState, reduce_over]

theorem innermost_over (symbol : String) (state : State α) :
    (scope.over other).innermost symbol state = scope.innermost symbol state := by
  simp only [innermost, reduceState_over]
  rfl

theorem argumentSeparator_over (symbol : String) (state : State α) :
    (scope.over other).argumentSeparator symbol state = scope.argumentSeparator symbol state := by
  simp only [argumentSeparator, innermost_over]
  rfl

theorem closeGroup_over (symbol : String) (token : Token α) (previous : Option (Token α))
    (state : State α) :
    (scope.over other).closeGroup symbol token previous state =
      scope.closeGroup symbol token previous state := by
  simp only [closeGroup, innermost_over]
  rfl

theorem finish_over (state : State α) : (scope.over other).finish state = scope.finish state := by
  simp only [finish, reduceState_over]
  rfl

/-! ### What asks for names -/

variable {scope other} {known : String → Prop}
  (agree : Registry.AgreeOn known other scope.registry)

include agree

theorem operand_over (value : α) (token : Token α) (state : State α) :
    (scope.over other).operand value token state = scope.operand value token state := by
  have same : (scope.over other).registry.system = scope.registry.system := agree.system
  simp only [operand, same]
  rfl

section Names

variable {name : String} (given : known name) (token : Token α) (state : State α)

include given

theorem identifier_over (following : Option (Token α)) :
    (scope.over other).identifier name token following state =
      scope.identifier name token following state := by
  have bound : (scope.over other).registry.getVariable? name = scope.registry.getVariable? name :=
    agree.bindings name given
  have constant : (scope.over other).registry.getConstant? name = scope.registry.getConstant? name :=
    agree.constants name given
  simp only [identifier, bound, constant, operand_over agree]
  rfl

theorem functionCall_over (following : Option (Token α)) :
    (scope.over other).functionCall name token following state =
      scope.functionCall name token following state := by
  have same : (scope.over other).registry.getFunction? name = scope.registry.getFunction? name :=
    agree.functions name given
  simp only [functionCall, same]
  rfl

theorem unaryOperator_over :
    (scope.over other).unaryOperator name token state = scope.unaryOperator name token state := by
  have same : (scope.over other).registry.getUnary? name = scope.registry.getUnary? name :=
    agree.unary name given
  simp only [unaryOperator, same, reduceState_over, apply_over]
  rfl

theorem binaryOperator_over :
    (scope.over other).binaryOperator name token state = scope.binaryOperator name token state := by
  have same : (scope.over other).registry.getBinary? name = scope.registry.getBinary? name :=
    agree.binary name given
  simp only [binaryOperator, same, reduceState_over]
  rfl

end Names

theorem step_over {token : Token α} (refers : token.lexeme.Refers known)
    (previous following : Option (Token α)) (state : State α) :
    (scope.over other).step previous token following state =
      scope.step previous token following state := by
  obtain ⟨lexeme, position⟩ := token
  cases lexeme with
  | number value => exact operand_over agree value _ _
  | identifier name => exact identifier_over agree refers _ _ following
  | functionCall name => exact functionCall_over agree refers _ _ following
  | unaryOperator name => exact unaryOperator_over agree refers _ _
  | binaryOperator name => exact binaryOperator_over agree refers _ _
  | openGroup symbol => rfl
  | closeGroup symbol => exact closeGroup_over scope other symbol _ previous _
  | separator symbol => exact argumentSeparator_over scope other symbol _

theorem steps_over {tokens : List (Token α)} (refers : ∀ token ∈ tokens, token.lexeme.Refers known)
    (previous : Option (Token α)) (state : State α) :
    (scope.over other).steps previous tokens state = scope.steps previous tokens state := by
  -- A function is read with its opening symbol, so the induction is on how `steps` recurs.
  fun_induction Scope.steps scope previous tokens state with
  | case1 => rfl
  | case2 previous token state =>
    obtain ⟨first, _⟩ := List.forall_mem_cons.mp refers
    rw [steps, step_over agree first]
  | case3 previous token next rest state called uncalled =>
    obtain ⟨first, others⟩ := List.forall_mem_cons.mp refers
    obtain ⟨_, behind⟩ := List.forall_mem_cons.mp others
    simp only [steps, step_over agree first, called _ behind, uncalled _ others]

end Scope

end Evaluation

open Evaluation

variable {first second : Registry α} {source : String}

/-- Registries that agree on the names that a source mentions give it the same value or the same error. -/
theorem evaluate_local (agree : Registry.AgreeOn (second.settings.Mentions source) first second) :
    evaluate first source = evaluate second source := by
  obtain ⟨scanned, refers⟩ := tokenize_local agree
  unfold evaluate
  rw [agree.settings, scanned]
  cases read : tokenize second source second.settings with
  | error fault => rfl
  | ok tokens =>
    let scope : Scope α := ⟨second, second.settings, some source⟩
    have stepped : (scope.over first).steps none tokens initial = scope.steps none tokens initial :=
      Scope.steps_over agree (refers tokens read) none initial
    have finished (state : State α) := scope.finish_over first state
    simp only [Scope.over, scope] at stepped finished
    simp only [bind, Except.bind, evaluateTokens, stepped, finished]

/-- After any calls, a call that only enters names whose foldings are no part of the folding of a source
leaves its value or its error what it was, if none of them is the sign of a product that may be left
out. -/
theorem evaluate_perform_of_unmentioned (system : NumberSystem α) (settings : Settings)
    (calls : List (Registry.Call α)) (call : Registry.Call α) (source : String) :
    let registry := Registry.afterCalls system settings calls
    (∀ event ∈ registry.events call, ∀ name ∈ event.names,
      ¬ (fold name).toList <:+: (fold source).toList ∧
        (registry.settings.implicitProduct = true → fold name ≠ Scan.productSign)) →
    evaluate (registry.perform call) source = evaluate registry source := by
  intro registry unmentioned
  refine evaluate_local (Registry.agreeOn_perform Scan.mentions_of_fold
    (Registry.keyed_afterCalls system settings calls) ?_)
  intro event entered name member mentioned
  obtain ⟨absent, noProduct⟩ := unmentioned event entered name member
  rcases mentioned with within | ⟨left, product⟩
  · rw [fold, String.toList_ofList, fold, String.toList_ofList] at absent
    exact absent within
  · exact noProduct left product

/-- A sign that starts like that of the product, and a name in the other order than in the source. -/
theorem evaluate_perform_of_unmentioned_sample :
    let settings : Settings := { Settings.standard with implicitProduct := true }
    let registry := Registry.afterCalls (NumberSystem.Integer.system ⟨none⟩) settings
      (operatorCalls ["*", "x"])
    let call : Registry.Call Int :=
      .addBinary ⟨⟨"X2", ["**"], none⟩, Precedence.high, .right, fun _ y => .ok y⟩
    registry.events call ≠ [] ∧
      evaluate (registry.perform call) "2(3) x 4" = evaluate registry "2(3) x 4" := by
  intro settings registry call
  have entered : registry.events call =
      [.binary ⟨⟨"X2", ["**"], none⟩, Precedence.high, .right, fun _ y => .ok y⟩] := rfl
  refine ⟨entered ▸ List.cons_ne_nil _ _, ?_⟩
  apply evaluate_perform_of_unmentioned (NumberSystem.Integer.system ⟨none⟩) settings
    (operatorCalls ["*", "x"]) call "2(3) x 4"
  intro event member
  rw [entered] at member
  obtain rfl := List.mem_singleton.mp member
  decide +kernel

end Reckoner

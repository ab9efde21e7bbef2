import Reckoner.Proofs.Evaluation.Reductions
import Reckoner.Proofs.Registry.Implementations

/-! What waits on the second stack comes from tokens that were read. A property of all operators and
functions that the tokens name is one of all that waits. -/

namespace Reckoner.Evaluation

variable {α : Type} {scope : Scope α} {operators : Operator α → Prop}
  {functions : NamedFunction α → Prop}

/-- Whether an operator has the property that goes with its kind. -/
def Operator.All (unary : UnaryOperator α → Prop) (binary : BinaryOperator α → Prop) :
    Operator α → Prop
  | .unary operator => unary operator
  | .binary operator => binary operator

/-- Whether an operator that waits has a property, and the function of an open group another one. -/
def Pending.All (operators : Operator α → Prop) (functions : NamedFunction α → Prop) :
    Pending α → Prop
  | .operator waiting _ => operators waiting
  | .group opened => ∀ function ∈ opened.function, functions function

namespace Scope

theorem supplies_of_all {unary : UnaryOperator α → Prop} {binary : BinaryOperator α → Prop}
    (all : scope.registry.All functions unary binary) (token : Token α) :
    scope.Supplies (Operator.All unary binary) functions token := by
  obtain ⟨lexeme, place⟩ := token
  cases lexeme with
  | functionCall name => exact fun function found => all.function found
  | unaryOperator name => exact fun operator found => all.unaryOperator found
  | binaryOperator name => exact fun operator found => all.binaryOperator found
  | _ => trivial

theorem reduce_suffix {due : Operator α → Bool} {pending left : List (Pending α)}
    {operands rest : List α} {position last : Nat}
    (reduced : scope.reduce due pending operands position = .ok (left, rest, last)) :
    left <:+ pending := (reduce_eq_ok reduced).1.suffix

theorem all_of_reduce {due : Operator α → Bool} {pending left : List (Pending α)}
    (all : ∀ entry ∈ pending, entry.All operators functions) {operands rest : List α}
    {position last : Nat}
    (reduced : scope.reduce due pending operands position = .ok (left, rest, last)) :
    ∀ entry ∈ left, entry.All operators functions :=
  fun entry member => all entry ((reduce_suffix reduced).mem member)

end Scope

theorem Transition.pending_all {previous following : Option (Token α)} {token : Token α}
    {state next : State α} (moved : Transition scope previous following token state next)
    (supplied : scope.Supplies operators functions token)
    (all : ∀ entry ∈ state.pending, entry.All operators functions) :
    ∀ entry ∈ next.pending, entry.All operators functions := by
  cases moved with
  | number => exact all
  | identifier found => exact all
  | callee callee opener opens =>
    refine List.forall_mem_cons.mpr ⟨?_, all⟩
    rintro function ⟨⟩
    exact supplied callee.function callee.registered
  | leading leading =>
    exact List.forall_mem_cons.mpr ⟨supplied leading.operator leading.registered, all⟩
  | trailing trailing reduced applied => exact Scope.all_of_reduce all reduced
  | joining joining reduced =>
    exact List.forall_mem_cons.mpr
      ⟨supplied joining.operator joining.registered, Scope.all_of_reduce all reduced⟩
  | opener => exact List.forall_mem_cons.mpr ⟨(fun function found => nomatch found), all⟩
  | separator reduced called =>
    obtain ⟨first, others⟩ := List.forall_mem_cons.mp (Scope.all_of_reduce all reduced)
    exact List.forall_mem_cons.mpr ⟨first, others⟩
  | group reduced plain matching =>
    exact (List.forall_mem_cons.mp (Scope.all_of_reduce all reduced)).2
  | call reduced called matching empty counted given =>
    exact (List.forall_mem_cons.mp (Scope.all_of_reduce all reduced)).2

theorem mem_taken (token : Token α) (following : Option (Token α)) :
    token ∈ taken token following := by
  unfold taken
  split <;> simp

/-- All that waits after some tokens is what they name. -/
theorem Reached.pending_all {consumed : List (Token α)} {state : State α}
    (reached : Reached scope consumed state)
    (supplied : ∀ token ∈ consumed, scope.Supplies operators functions token) :
    ∀ entry ∈ state.pending, entry.All operators functions := by
  induction reached with
  | initial => exact fun entry member => nomatch member
  | @next consumed state token following next _ read ih =>
    obtain ⟨before, last⟩ := List.forall_mem_append.mp supplied
    exact (Scope.step_eq_ok read).pending_all (last token (mem_taken token following)) (ih before)

end Reckoner.Evaluation

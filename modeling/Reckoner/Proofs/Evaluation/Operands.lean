import Reckoner.Proofs.Evaluation.Pending
import Reckoner.Proofs.Registry.Values
import Reckoner.Proofs.Scan.Numbers

/-! The operands of an evaluation on its way. A property that the registry keeps and the numbers of the
tokens have is one of every operand that ever stands on the stack. -/

namespace Reckoner.Evaluation

variable {α : Type} {scope : Scope α} {holds : α → Prop}

namespace Scope

/-- The operand stacks while pending operators that are due are applied, from the first one on. -/
def reductions (scope : Scope α) (due : Operator α → Bool) :
    List (Pending α) → List α → List (List α)
  | .operator operator place :: rest, operands =>
    if due operator then
      match scope.apply operator place operands with
      | .ok results => operands :: scope.reductions due rest results
      | .error _ => [operands]
    else [operands]
  | _, operands => [operands]

/-- The operand stacks on the way of an evaluation: those after some of the tokens, and those that the
application of operators leads to from there, whichever are due then. -/
def Passes (scope : Scope α) (tokens : List (Token α)) (stack : List α) : Prop :=
  ∃ consumed state due, consumed <+: tokens ∧ scope.steps none consumed initial = .ok state ∧
    stack ∈ scope.reductions due state.pending state.operands

theorem mem_reductions_of_reduce {due : Operator α → Bool} {pending left : List (Pending α)}
    {operands rest : List α} {position last : Nat}
    (reduced : scope.reduce due pending operands position = .ok (left, rest, last)) :
    rest ∈ scope.reductions due pending operands := by
  induction pending generalizing operands position with
  | nil =>
    cases reduced
    exact List.mem_cons_self
  | cons top below ih =>
    cases top with
    | group group =>
      cases reduced
      exact List.mem_cons_self
    | operator operator place =>
      unfold reduce at reduced
      unfold reductions
      split at reduced
      · rename_i isDue
        obtain ⟨results, applied, reduced⟩ := bind_eq_ok.mp reduced
        simp only [isDue, if_true, applied]
        exact List.mem_cons_of_mem _ (ih reduced)
      · rename_i waits
        cases reduced
        simp [waits]

theorem passes_value {tokens : List (Token α)} {value : α}
    (evaluated : scope.steps none tokens initial >>= scope.finish = .ok value) :
    scope.Passes tokens [value] := by
  obtain ⟨state, read, finished⟩ := bind_eq_ok.mp evaluated
  obtain ⟨_, last, reduced⟩ := finish_eq_ok finished
  exact ⟨tokens, state, fun _ => true, List.prefix_refl _, read, mem_reductions_of_reduce reduced⟩

end Scope

/-- Whether an operator keeps a property of its operands. -/
abbrev Operator.Keeps (holds : α → Prop) : Operator α → Prop :=
  Operator.All (UnaryOperator.Keeps · holds) (BinaryOperator.Keeps · holds)

/-- Whether all operands have a property and all that waits keeps it. -/
structure State.Keeps (state : State α) (holds : α → Prop) : Prop where
  operands : ∀ x ∈ state.operands, holds x
  pending : ∀ entry ∈ state.pending,
    entry.All (Operator.Keeps holds) (NamedFunction.Keeps · holds)

namespace Scope

theorem run_keeps {position : Nat} {outcome : Outcome α} (keeps : Yields holds outcome) :
    Yields holds (scope.run position outcome) := by
  cases outcome with
  | ok value => exact .ok (keeps value rfl)
  | error fault => exact .error _

theorem apply_keeps {operator : Operator α} (keeps : operator.Keeps holds) {position : Nat}
    {operands : List α} (held : ∀ x ∈ operands, holds x) :
    Yields (∀ x ∈ ·, holds x) (scope.apply operator position operands) := by
  match operator, operands with
  | .unary operator, x :: rest =>
    obtain ⟨first, others⟩ := List.forall_mem_cons.mp held
    refine .bind ?_
    intro value given
    refine .ok (List.forall_mem_cons.mpr ⟨?_, others⟩)
    exact run_keeps (keeps x first) value given
  | .binary operator, y :: x :: rest =>
    obtain ⟨second, first, others⟩ := by simpa only [List.forall_mem_cons] using held
    refine .bind ?_
    intro value given
    refine .ok (List.forall_mem_cons.mpr ⟨?_, others⟩)
    exact run_keeps (keeps x y first second) value given
  | .unary operator, [] => exact .error _
  | .binary operator, [] => exact .error _
  | .binary operator, [_] => exact .error _

theorem reductions_keep {due : Operator α → Bool} {pending : List (Pending α)} {operands : List α}
    (waiting : ∀ entry ∈ pending, entry.All (Operator.Keeps holds) (NamedFunction.Keeps · holds))
    (held : ∀ x ∈ operands, holds x) {stack : List α}
    (member : stack ∈ scope.reductions due pending operands) : ∀ x ∈ stack, holds x := by
  induction pending generalizing operands with
  | nil => simpa [List.mem_singleton.mp member] using held
  | cons top below ih =>
    obtain ⟨first, others⟩ := List.forall_mem_cons.mp waiting
    cases top with
    | group group => simpa [List.mem_singleton.mp member] using held
    | operator operator place =>
      unfold reductions at member
      split at member
      · cases applied : scope.apply operator place operands with
        | ok results =>
          rw [applied] at member
          rcases List.mem_cons.mp member with rfl | later
          · exact held
          · exact ih others (apply_keeps first held results applied) later
        | error fault =>
          rw [applied] at member
          simpa [List.mem_singleton.mp member] using held
      · simpa [List.mem_singleton.mp member] using held

theorem reduce_keeps {due : Operator α → Bool} {pending left : List (Pending α)}
    {operands rest : List α} {position last : Nat}
    (waiting : ∀ entry ∈ pending, entry.All (Operator.Keeps holds) (NamedFunction.Keeps · holds))
    (held : ∀ x ∈ operands, holds x)
    (reduced : scope.reduce due pending operands position = .ok (left, rest, last)) :
    ∀ x ∈ rest, holds x :=
  reductions_keep waiting held (mem_reductions_of_reduce reduced)

theorem meaning_keeps (values : scope.registry.Values holds) (name : String) :
    Yields holds (scope.meaning name) := by
  intro value meant
  unfold meaning at meant
  split at meant
  · rename_i found
    cases meant
    rcases Option.or_eq_some_iff.mp found with bound | ⟨_, defined⟩
    · exact values.variable_ bound
    · exact values.constant defined
  · cases meant

end Scope

theorem Transition.keeps {previous following : Option (Token α)} {token : Token α}
    {state next : State α} (moved : Transition scope previous following token state next)
    (closed : scope.registry.Closed holds) (number : token.Carries holds)
    (keeps : state.Keeps holds) : next.Keeps holds := by
  refine ⟨?_, moved.pending_all (Scope.supplies_of_all closed.implementations token) keeps.pending⟩
  obtain ⟨held, waiting⟩ := keeps
  cases moved with
  | number => exact List.forall_mem_cons.mpr ⟨number _ rfl, held⟩
  | identifier found =>
    exact List.forall_mem_cons.mpr ⟨Scope.meaning_keeps closed.values _ _ found, held⟩
  | callee callee opener opens => exact held
  | leading leading => exact held
  | trailing trailing reduced applied =>
    have kept : Operator.Keeps holds (.unary trailing.operator) :=
      closed.implementations.unaryOperator trailing.registered
    exact Scope.apply_keeps kept (Scope.reduce_keeps waiting held reduced) _ applied
  | joining joining reduced => exact Scope.reduce_keeps waiting held reduced
  | opener => exact held
  | separator reduced called => exact Scope.reduce_keeps waiting held reduced
  | group reduced plain matching => exact Scope.reduce_keeps waiting held reduced
  | @call symbol operands pending expects place position rest below last group function value
      reduced called matching empty counted given =>
    have kept := Scope.reduce_keeps waiting held reduced
    have callable : function.Keeps holds :=
      (List.forall_mem_cons.mp (Scope.all_of_reduce waiting reduced)).1 function called
    have arguments : ∀ x ∈ (rest.take (rest.length - group.base)).reverse, holds x :=
      fun x member => kept x (List.mem_of_mem_take (List.mem_reverse.mp member))
    refine List.forall_mem_cons.mpr ⟨?_, fun x member => kept x (List.mem_of_mem_drop member)⟩
    exact Scope.run_keeps (callable.call _ _ arguments) value given

/-- Every state of a run keeps what the registry keeps. -/
theorem Reached.keeps {consumed : List (Token α)} {state : State α}
    (reached : Reached scope consumed state) (closed : scope.registry.Closed holds)
    (numbers : ∀ token ∈ consumed, token.Carries holds) : state.Keeps holds := by
  induction reached with
  | initial => exact ⟨nofun, nofun⟩
  | @next consumed state token following next _ read ih =>
    obtain ⟨before, last⟩ := List.forall_mem_append.mp numbers
    exact (Scope.step_eq_ok read).keeps closed (last token (mem_taken token following))
      (ih before)

/-- Every operand on the way of an evaluation has what the numbers have and the registry keeps. -/
theorem Scope.passes_closed (closed : scope.registry.Closed holds) {tokens : List (Token α)}
    (numbers : ∀ token ∈ tokens, token.Carries holds) {stack : List α}
    (passed : scope.Passes tokens stack) : ∀ x ∈ stack, holds x := by
  obtain ⟨consumed, state, due, before, read, member⟩ := passed
  obtain ⟨held, waiting⟩ := (Scope.reached_iff.mpr read).keeps closed
    fun token taken => numbers token (before.mem taken)
  exact Scope.reductions_keep waiting held member

/-- The operand stacks on the way of the evaluation of a source. -/
def Passes (registry : Registry α) (source : String) (stack : List α) : Prop :=
  ∃ tokens, tokenize registry source registry.settings = .ok tokens ∧
    Scope.Passes ⟨registry, registry.settings, some source⟩ tokens stack

/-- The value of a source is all that the way of its evaluation ends with. -/
theorem passes_of_evaluate {registry : Registry α} {source : String} {value : α}
    (evaluated : evaluate registry source = .ok value) : Passes registry source [value] := by
  obtain ⟨tokens, scanned, evaluated⟩ := bind_eq_ok.mp evaluated
  unfold evaluateTokens at evaluated
  split at evaluated
  · cases evaluated
  · exact ⟨tokens, scanned, Scope.passes_value evaluated⟩

/-- What is closed in the registry, all operands on the way of an evaluation have. -/
theorem passes_closed {registry : Registry α} (closed : registry.Closed holds) {source : String}
    {stack : List α} (passed : Passes registry source stack) : ∀ x ∈ stack, holds x := by
  obtain ⟨tokens, scanned, passed⟩ := passed
  exact Scope.passes_closed closed (tokenize_carries closed.system.literal source _ tokens scanned)
    passed

theorem passes_keep {registry : Registry α} (keeps : registry.Keeps holds) {source : String}
    {stack : List α} (passed : Passes registry source stack) : ∀ x ∈ stack, holds x :=
  passes_closed keeps.toClosed passed

end Reckoner.Evaluation

import Reckoner.Proofs.Evaluation.Errors

/-! The stacks of an evaluation never run out. Whatever the tokens are and whatever the implementations do,
all that is applied has its operands within the innermost argument, and no error says otherwise unless an
implementation does. -/

namespace Reckoner.Evaluation

variable {α : Type} {scope : Scope α} {tokens : List (Token α)}

/-! ### Messages -/

/-- Whether a message begins with one of some texts. -/
def BeginsWith (texts : List String) (message : String) : Prop :=
  ∃ text ∈ texts, text.toList <+: message.toList

/-- How the messages about stacks that do not fit begin. -/
def inconsistencies : List String :=
  ["Missing operand for '", "Malformed arguments for '", "Expression does not reduce to a single value"]

/-- How all other messages of an evaluation begin. -/
def complaints : List String :=
  ["Expression is empty", "Unknown function '", "Unknown variable '", "Unknown operator '",
    "Unexpected '", "Unexpected function '", "Function '", "Unexpected prefix operator '",
    "Missing operand before '", "Missing argument before '", "Unmatched '", "Mismatched '", "'",
    "Unexpected end of expression", "Unclosed '"]

theorem beginsWith_self {texts : List String} {text : String} (member : text ∈ texts) :
    BeginsWith texts text := ⟨text, member, List.prefix_refl _⟩

theorem BeginsWith.append {texts : List String} {message : String}
    (begins : BeginsWith texts message) (rest : String) : BeginsWith texts (message ++ rest) := by
  obtain ⟨text, member, before⟩ := begins
  refine ⟨text, member, before.trans ?_⟩
  rw [String.toList_append]
  exact List.prefix_append _ _

theorem not_inconsistent_of_complaint {message : String} (complains : BeginsWith complaints message) :
    ¬ BeginsWith inconsistencies message := by
  have apart : ∀ first ∈ complaints, ∀ second ∈ inconsistencies,
      ¬ first.toList <+: second.toList ∧ ¬ second.toList <+: first.toList := by decide
  rintro ⟨second, other, behind⟩
  obtain ⟨first, member, before⟩ := complains
  obtain ⟨left, right⟩ := apart first member second other
  rcases List.prefix_or_prefix_of_prefix before behind with shorter | shorter
  · exact left shorter
  · exact right shorter

namespace Scope

variable {previous following : Option (Token α)} {state : State α} {token : Token α}
  {lexeme : Lexeme α} {message : String} {place : Nat}

theorem Unknown.complains {kind : ErrorKind} (unknown : scope.Unknown following lexeme kind message) :
    BeginsWith complaints message := by
  cases unknown <;> exact ((beginsWith_self (by simp [complaints])).append _).append _

theorem Rejects.complains (rejects : scope.Rejects previous following state token message) :
    BeginsWith complaints message := by
  cases rejects with
  | unopened =>
    exact ((((beginsWith_self (by simp [complaints])).append _).append _).append _).append _
  | _ => exact ((beginsWith_self (by simp [complaints])).append _).append _

theorem Unfit.complains {pending : List (Pending α)} (unfit : scope.Unfit lexeme pending message) :
    BeginsWith complaints message := by
  cases unfit with
  | mismatched =>
    have begins : BeginsWith complaints "Mismatched '" := beginsWith_self (by simp [complaints])
    exact (((((((begins.append _).append _).append _).append _).append _).append _).append _)
  | _ => exact ((beginsWith_self (by simp [complaints])).append _).append _

theorem Malformed.complains (malformed : scope.Malformed tokens message place) :
    BeginsWith complaints message := by
  cases malformed with
  | rejected _ _ rejects => exact rejects.complains
  | unfit _ _ unfit => exact unfit.complains
  | unpaired => exact ((beginsWith_self (by simp [complaints])).append _).append _
  | unfinished => exact beginsWith_self (by simp [complaints])
  | unclosed => exact ((beginsWith_self (by simp [complaints])).append _).append _

/-- A fault that comes from no implementation is an error that does not say that the stacks do not fit. -/
theorem Failure.throws_or_complains {fault : Fault} (failure : scope.Failure tokens fault) :
    scope.Throws tokens fault ∨
      ∃ error, fault = .described error ∧ ¬ BeginsWith inconsistencies error.message := by
  cases failure with
  | empty none =>
    exact .inr ⟨_, rfl, not_inconsistent_of_complaint (beginsWith_self (by simp [complaints]))⟩
  | unknown split read unknown =>
    exact .inr ⟨_, rfl, not_inconsistent_of_complaint unknown.complains⟩
  | malformed malformed =>
    exact .inr ⟨_, rfl, not_inconsistent_of_complaint malformed.complains⟩
  | thrown throws => exact .inl throws

end Scope

/-! ### All token lists -/

/-- In every state that a run reaches the stacks are balanced. An operator whose turn it is then has its
operands on top of those that stood there when the innermost argument began, and a function that is
called gets one operand for each argument, on top of those below its call. Behind the last token there is
one operand if no group is open. So whatever an evaluation fails with comes from an implementation, or is an
error that does not say that operands are missing or left over or that arguments do not fit. -/
theorem stacks_consistent (scope : Scope α) (tokens : List (Token α)) :
    (∀ consumed rest state, tokens = consumed ++ rest →
      scope.steps none consumed initial = .ok state →
      Consistent scope consumed state ∧
      (∀ operator place below operands,
        scope.Turn rest.head? state operator place below operands →
        ∃ own kept, operands = own ++ kept ∧ operator.arity ≤ own.length ∧
          scope.Began consumed (around below) kept) ∧
      ∀ token function group operands,
        scope.Calls consumed.getLast? state token function group operands →
        ∃ own kept, operands = own ++ kept ∧ group.base = kept.length ∧
          own.length = if state.expectsOperand then 0 else group.separators + 1) ∧
    (∀ state rest last, scope.steps none tokens initial = .ok state → state.expectsOperand = false →
      scope.reduce (fun _ => true) state.pending state.operands state.position = .ok ([], rest, last) →
      ∃ value, rest = [value]) ∧
    ∀ fault, evaluateTokens scope.registry tokens scope.source scope.settings = .error fault →
      scope.Throws tokens fault ∨
        ∃ error, fault = .described error ∧ ¬ BeginsWith inconsistencies error.message := by
  refine ⟨?_, ?_, ?_⟩
  · intro consumed rest state _ read
    have reached := Scope.reached_iff.mpr read
    refine ⟨reached.consistent, ?_, ?_⟩
    · intro operator place below operands turn
      obtain ⟨value, others, rfl, balanced⟩ := turn.balanced reached.consistent
      exact balanced.arity_le value
    · intro token function group operands calls
      exact calls.counted reached
  · intro state rest last read complete reduced
    obtain ⟨operands, pending, expects, position⟩ := state
    cases complete
    cases (Scope.reached_iff.mpr read).consistent with
    | complete value balanced =>
      obtain ⟨result, lower, rfl, nothing⟩ := balanced.of_reduce reduced
      cases nothing
      exact ⟨result, rfl⟩
  · intro fault failed
    exact (failure_of_evaluateTokens failed).throws_or_complains

namespace Sample

/-- `8 / ( 1 + 3` -/
def unclosed : List (Token Int) :=
  [⟨.number 8, 0⟩, ⟨.binaryOperator "/", 2⟩, ⟨.openGroup "(", 4⟩, ⟨.number 1, 6⟩,
    ⟨.binaryOperator "+", 8⟩, ⟨.number 3, 10⟩]

/-- What waits below the sum. -/
def enclosing : List (Pending Int) :=
  [.group ⟨"(", 4, none, 1, 0⟩, .operator (.binary quotient) 2]

end Sample

open Sample in
/-- Where the group is closed, the sum takes two of three operands. -/
theorem stacks_consistent_sample :
    ∃ state, context.steps none unclosed initial = .ok state ∧
      context.Turn (some ⟨.closeGroup ")", 12⟩) state (.binary sum) 8 enclosing [3, 1, 8] ∧
      ∃ own kept, [3, 1, 8] = own ++ kept ∧ 2 ≤ own.length ∧
        context.Began unclosed (around enclosing) kept := by
  have read : context.steps none unclosed initial =
    .ok ⟨[3, 1, 8], .operator (.binary sum) 8 :: enclosing, false, 10⟩ := rfl
  have turn : context.Turn (some ⟨.closeGroup ")", 12⟩)
      ⟨[3, 1, 8], .operator (.binary sum) 8 :: enclosing, false, 10⟩ (.binary sum) 8 enclosing
      [3, 1, 8] := .waiting rfl (.closer ")" 12) (.refl _ _) rfl
  obtain ⟨balanced, _⟩ := stacks_consistent context (unclosed ++ [⟨.closeGroup ")", 12⟩])
  exact ⟨_, read, turn, (balanced unclosed _ _ rfl read).2.1 _ _ _ _ turn⟩

end Reckoner.Evaluation

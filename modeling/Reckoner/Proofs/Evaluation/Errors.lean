import Reckoner.Proofs.Evaluation.Acceptance
import Reckoner.Proofs.Evaluation.Balance
import Reckoner.Proofs.Evaluation.Stops

/-! All errors of an evaluation. Since the stacks are balanced, what waits always has its operands; what is
left are names that stand for nothing, tokens that are no expression, and faults that come from
implementations. -/

namespace Reckoner.Evaluation

variable {α : Type} {scope : Scope α}

/-! ### Implementations that fail -/

namespace Scope

/-- An operator that fails is applied without a result, and the fault gets its place. -/
theorem apply_of_answers {operator : Operator α} {operands : List α} {raw : Fault}
    (answers : operator.Answers operands (.error raw)) (place : Nat) :
    scope.apply operator place operands = .error (scope.located place raw) := by
  generalize same : (.error raw : Outcome α) = answer at answers
  cases answers with
  | unary operator x rest =>
    simp only [apply, ← same]
    rfl
  | binary operator x y rest =>
    simp only [apply, ← same]
    rfl

section Turns

variable {next : Option (Token α)} {state : State α} {operator : Operator α} {place : Nat}
  {below : List (Pending α)} {operands : List α} {consumed : List (Token α)}

/-- An operator whose turn it is stands on balanced stacks, below its last operand. -/
theorem Turn.balanced (turn : scope.Turn next state operator place below operands)
    (consistent : Consistent scope consumed state) :
    ∃ value rest, operands = value :: rest ∧
      Balanced scope consumed (.operator operator place :: below) rest := by
  cases turn with
  | waiting complete dues reduces isDue =>
    cases consistent with
    | expecting balanced => cases complete
    | complete value balanced => exact Balanced.reduces reduces rfl balanced
  | trailing complete trailing reads reduced =>
    cases consistent with
    | expecting balanced => cases complete
    | complete value balanced =>
      obtain ⟨result, lower, rfl, further⟩ := balanced.of_reduce reduced
      exact ⟨result, lower, rfl, .unary further⟩

theorem Turn.throws (turn : scope.Turn next state operator place below operands)
    (consistent : Consistent scope consumed state) {fault : Fault}
    (failed : scope.apply operator place operands = .error fault) :
    ∃ raw, operator.Answers operands (.error raw) ∧ fault = scope.located place raw := by
  obtain ⟨value, rest, rfl, balanced⟩ := turn.balanced consistent
  obtain ⟨answer, _, answers, _, same⟩ := balanced.apply_eq value
  rw [same] at failed
  cases answer with
  | ok result => cases failed
  | error raw =>
    cases failed
    exact ⟨raw, answers, rfl⟩

/-- The function that a closing symbol calls gets the operands of its arguments, one for each. -/
theorem Calls.counted {token : Token α} {function : NamedFunction α}
    {group : Group α} {rest : List α}
    (calls : scope.Calls consumed.getLast? state token function group rest)
    (reached : Reached scope consumed state) :
    ∃ own kept, rest = own ++ kept ∧ group.base = kept.length ∧
      own.length = if state.expectsOperand then 0 else group.separators + 1 := by
  obtain ⟨stack, pending, expects, position⟩ := state
  cases calls with
  | @closer symbol at_ _ _ below _ last ready reduced called matching =>
    obtain ⟨own, kept, split, base, _, counted⟩ := reached.consistent.innermost ready reduced
    refine ⟨own, kept, split, base, ?_⟩
    cases expects with
    | false => exact counted
    | true =>
      match pending, ready rfl with
      | .group top :: others, empty =>
        cases reduced
        rw [counted, reached.separators_eq_zero empty]
        rfl

end Turns

/-- The faults of an evaluation that come from implementations: an operator whose turn it is, a function
that is called, or the writing of a number for a message. -/
inductive Throws (scope : Scope α) (tokens : List (Token α)) : Fault → Prop where
  | operator {consumed rest state operator place below operands raw}
      (split : tokens = consumed ++ rest) (read : scope.steps none consumed initial = .ok state)
      (turn : scope.Turn rest.head? state operator place below operands)
      (answers : operator.Answers operands (.error raw)) :
    Throws scope tokens (scope.located place raw)
  | function {consumed token rest state function group operands raw}
      (split : tokens = consumed ++ token :: rest)
      (read : scope.steps none consumed initial = .ok state)
      (calls : scope.Calls consumed.getLast? state token function group operands)
      (failed : function.call token.position (arguments group operands) = .error raw) :
    Throws scope tokens (scope.located token.position raw)
  | number {fault} (misplaced : scope.Misplaced tokens fault) : Throws scope tokens fault

/-- The ways in which tokens are no expression, with what is said about it and the place that is
reported. -/
inductive Malformed (scope : Scope α) (tokens : List (Token α)) : String → Nat → Prop where
  | rejected {consumed token rest state message} (split : tokens = consumed ++ token :: rest)
      (read : scope.steps none consumed initial = .ok state)
      (rejects : scope.Rejects consumed.getLast? rest.head? state token message) :
    Malformed scope tokens message token.position
  | unfit {consumed token rest state message} (split : tokens = consumed ++ token :: rest)
      (read : scope.steps none consumed initial = .ok state)
      (unfit : scope.Unfit token.lexeme (around state.pending) message) :
    Malformed scope tokens message (lastPlace (inside state.pending) token.position)
  | unpaired {consumed symbol place rest state group below}
      (split : tokens = consumed ++ ⟨.closeGroup symbol, place⟩ :: rest)
      (read : scope.steps none consumed initial = .ok state)
      (open_ : around state.pending = .group group :: below)
      (opener : ⟨.openGroup group.symbol, group.position⟩ ∈ consumed)
      (unpaired : scope.settings.closingText? group.symbol = none) :
    Malformed scope tokens ("'" ++ group.symbol ++ "' is not a group symbol") group.position
  | unfinished {state} (read : scope.steps none tokens initial = .ok state)
      (expects : state.expectsOperand = true) :
    Malformed scope tokens "Unexpected end of expression" (scope.endPlace state)
  | unclosed {state group below} (read : scope.steps none tokens initial = .ok state)
      (complete : state.expectsOperand = false)
      (open_ : around state.pending = .group group :: below)
      (opener : ⟨.openGroup group.symbol, group.position⟩ ∈ tokens) :
    Malformed scope tokens ("Unclosed '" ++ group.symbol ++ "'") group.position

theorem Unknown.kind_ne {following : Option (Token α)} {lexeme : Lexeme α} {kind : ErrorKind}
    {message : String} (unknown : scope.Unknown following lexeme kind message) :
    kind ≠ .invalidExpression := by
  cases unknown <;> decide

/-- The ways in which an evaluation fails. -/
inductive Failure (scope : Scope α) (tokens : List (Token α)) : Fault → Prop where
  | empty (none : tokens = []) :
    Failure scope tokens (.described ⟨.emptyExpression, "Expression is empty", some 0, scope.source⟩)
  | unknown {consumed token rest state kind message} (split : tokens = consumed ++ token :: rest)
      (read : scope.steps none consumed initial = .ok state)
      (unknown : scope.Unknown rest.head? token.lexeme kind message) :
    Failure scope tokens (scope.error kind message token.position)
  | malformed {message place} (malformed : scope.Malformed tokens message place) :
    Failure scope tokens (scope.invalid message place)
  | thrown {fault} (throws : scope.Throws tokens fault) : Failure scope tokens fault

end Scope

/-! ### Openers -/

theorem Opened.opener {groups : List (Group α)} {tokens : List (Token α)}
    (opened : Opened scope groups tokens) :
    ∀ group ∈ groups, ⟨.openGroup group.symbol, group.position⟩ ∈ tokens := by
  induction opened with
  | outside => exact nofun
  | group outer waiting ih =>
    intro group member
    rcases List.mem_cons.mp member with rfl | member
    · simp
    · simp [ih group member]
  | call outer waiting callee opens started ih =>
    intro group member
    rcases List.mem_cons.mp member with rfl | member
    · simp
    · simp [ih group member]

theorem openGroups_around (pending : List (Pending α)) :
    openGroups (around pending) = openGroups pending := by
  induction pending with
  | nil => rfl
  | cons top below ih =>
    cases top with
    | operator operator place => exact ih
    | group group => rfl

theorem Reached.opener {consumed : List (Token α)} {state : State α}
    (reached : Reached scope consumed state) {group : Group α} {below : List (Pending α)}
    (open_ : around state.pending = .group group :: below) :
    ⟨.openGroup group.symbol, group.position⟩ ∈ consumed := by
  obtain ⟨before, body, rfl, opened, _⟩ := reached.reading
  have member : group ∈ openGroups state.pending := by
    rw [← openGroups_around, open_]
    exact List.mem_cons_self
  exact List.mem_append_left _ (opened.opener group member)

/-! ### Runs -/

namespace Scope

theorem Stops.failure {consumed rest : List (Token α)} {token : Token α} {state : State α}
    {fault : Fault} (stops : scope.Stops consumed.getLast? rest.head? state token fault)
    (reached : Reached scope consumed state) :
    scope.Failure (consumed ++ token :: rest) fault := by
  have read := reached_iff.mp reached
  cases stops with
  | unknown unknown => exact .unknown rfl read unknown
  | @unwritten value _ complete number failed =>
    obtain ⟨lexeme, place⟩ := token
    cases number
    exact .thrown (.number ⟨consumed, value, place, rest, state, rfl, read, complete, failed⟩)
  | rejected rejects => exact .malformed (.rejected rfl read rejects)
  | applying turn failed =>
    obtain ⟨raw, answers, rfl⟩ := turn.throws reached.consistent failed
    exact .thrown (.operator rfl read turn answers)
  | unfit ready unfit => exact .malformed (.unfit rfl read unfit)
  | @unpaired group below symbol ready closer open_ unpaired =>
    obtain ⟨lexeme, place⟩ := token
    cases closer
    exact .malformed (.unpaired rfl read open_ (reached.opener open_) unpaired)
  | malformed calls miscounted =>
    obtain ⟨own, kept, rfl, base, counted⟩ := calls.counted reached
    rw [base, List.length_append, Nat.add_sub_cancel] at miscounted
    exact absurd counted miscounted
  | calling calls failed => exact .thrown (.function rfl read calls failed)

theorem failure_of_finish {tokens : List (Token α)} {state : State α} {fault : Fault}
    (reached : Reached scope tokens state) (failed : scope.finish state = .error fault) :
    scope.Failure tokens fault := by
  have read := reached_iff.mp reached
  rcases finish_eq_error failed with ⟨expects, rfl⟩ | ⟨_, _, _, _, turn, failed⟩ |
    ⟨group, below, complete, open_, rfl⟩ | ⟨rest, last, complete, reduced, several, rfl⟩
  · exact .malformed (.unfinished read expects)
  · obtain ⟨raw, answers, rfl⟩ := turn.throws reached.consistent failed
    exact .thrown (.operator (List.append_nil _).symm read turn answers)
  · exact .malformed (.unclosed read complete open_ (reached.opener open_))
  · cases reached.consistent with
    | expecting balanced => cases complete
    | complete value balanced =>
      obtain ⟨result, lower, rfl, nothing⟩ := balanced.of_reduce reduced
      cases nothing
      exact absurd rfl (several result)

end Scope

/-- An evaluation that fails does so in one of the ways. -/
theorem failure_of_evaluateTokens {registry : Registry α} {settings : Settings}
    {source : Option String} {tokens : List (Token α)} {fault : Fault}
    (failed : evaluateTokens registry tokens source settings = .error fault) :
    Scope.Failure ⟨registry, settings, source⟩ tokens fault := by
  unfold evaluateTokens at failed
  split at failed
  · rename_i none
    cases failed
    exact .empty (List.isEmpty_iff.mp none)
  · rcases bind_eq_error.mp failed with failed | ⟨final, read, failed⟩
    · rcases Scope.steps_cases .initial tokens with ⟨final, read, _⟩ | stopped
      · cases failed.symm.trans read
      · obtain ⟨found, before, token, rest, state, same, rfl, reached, stops⟩ := stopped
        cases failed.symm.trans same
        exact (Scope.step_eq_error stops).failure reached
    · exact Scope.failure_of_finish (Scope.reached_iff.mpr read) failed

end Reckoner.Evaluation

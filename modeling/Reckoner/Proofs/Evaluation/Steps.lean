import Reckoner.Proofs.Evaluation.Phrase
import Reckoner.Proofs.Outcome

/-! What one token does to a state, and where the place of a state and the token before it matter. -/

namespace Reckoner.Evaluation

variable {α : Type} {scope : Scope α}

/-- Whether two states differ at most in the place that errors are reported at. -/
def State.Alike (left right : State α) : Prop :=
  left.operands = right.operands ∧ left.pending = right.pending ∧
    left.expectsOperand = right.expectsOperand

theorem State.alike (operands : List α) (pending : List (Pending α)) (expects : Bool)
    (position other : Nat) :
    State.Alike ⟨operands, pending, expects, position⟩ ⟨operands, pending, expects, other⟩ :=
  ⟨rfl, rfl, rfl⟩

namespace Scope

/-- Reads the remaining tokens and gives the result. -/
def conclude (scope : Scope α) (previous : Option (Token α)) (tokens : List (Token α))
    (state : State α) : Outcome α := do
  scope.finish (← scope.steps previous tokens state)

theorem steps_cons {token : Token α} (other : token.lexeme.kind ≠ .functionCall)
    (previous : Option (Token α)) (rest : List (Token α)) (state : State α) :
    scope.steps previous (token :: rest) state =
      scope.step previous token rest.head? state >>= scope.steps (some token) rest := by
  cases rest with
  | nil =>
    rw [steps, List.head?_nil]
    cases scope.step previous token none state <;> rfl
  | cons next rest =>
    have apart : (token.lexeme.kind == TokenKind.functionCall) = false := by simpa using other
    simp only [steps, apart, Bool.false_eq_true, if_false, List.head?_cons]

theorem steps_call {token : Token α} (call : token.lexeme.kind = .functionCall)
    (previous : Option (Token α)) (next : Token α) (rest : List (Token α)) (state : State α) :
    scope.steps previous (token :: next :: rest) state =
      scope.step previous token (some next) state >>= scope.steps (some next) rest := by
  simp only [steps, call, beq_self_eq_true, if_true]

theorem conclude_cons {token : Token α} (other : token.lexeme.kind ≠ .functionCall)
    (previous : Option (Token α)) (rest : List (Token α)) (state : State α) :
    scope.conclude previous (token :: rest) state =
      scope.step previous token rest.head? state >>= scope.conclude (some token) rest := by
  rw [conclude, steps_cons other, bind_assoc]
  rfl

theorem conclude_call {token : Token α} (call : token.lexeme.kind = .functionCall)
    (previous : Option (Token α)) (next : Token α) (rest : List (Token α)) (state : State α) :
    scope.conclude previous (token :: next :: rest) state =
      scope.step previous token (some next) state >>= scope.conclude (some next) rest := by
  rw [conclude, steps_call call, bind_assoc]
  rfl

/-! ### Steps on the tokens of a derivation -/

theorem step_leading (leading : Leading scope) (previous following : Option (Token α))
    (operands : List α) (pending : List (Pending α)) (position : Nat) :
    scope.step previous leading.token following ⟨operands, pending, true, position⟩ =
      .ok ⟨operands, .operator (.unary leading.operator) leading.position :: pending, true,
        leading.position⟩ := by
  simp only [step, Leading.token, unaryOperator, leading.registered, leading.before]
  rfl

theorem step_trailing (trailing : Trailing scope) (previous following : Option (Token α))
    (operands : List α) (pending : List (Pending α)) (position : Nat) :
    scope.step previous trailing.token following ⟨operands, pending, false, position⟩ =
      scope.reduce (Operator.precedesPostfix trailing.operator.precedence) pending operands
        trailing.position >>= fun (pending, operands, position) =>
          scope.apply (.unary trailing.operator) position operands >>= fun operands =>
            .ok ⟨operands, pending, false, position⟩ := by
  simp only [step, Trailing.token, unaryOperator, trailing.registered, trailing.after,
    Bool.false_eq_true, if_false, reduceState, pure_bind, bind_assoc]
  rfl

theorem step_joining (joining : Joining scope) (previous following : Option (Token α))
    (operands : List α) (pending : List (Pending α)) (position : Nat) :
    scope.step previous joining.token following ⟨operands, pending, false, position⟩ =
      scope.reduce (Operator.precedesBinary joining.operator.precedence) pending operands
        joining.position >>= fun (pending, operands, position) =>
          .ok ⟨operands, .operator (.binary joining.operator) joining.position :: pending, true,
            position⟩ := by
  simp only [step, Joining.token, binaryOperator, joining.registered, Bool.false_eq_true, if_false,
    reduceState, pure_bind, bind_assoc]
  rfl

theorem step_number (value : α) (place : Nat) (previous following : Option (Token α))
    (operands : List α) (pending : List (Pending α)) (position : Nat) :
    scope.step previous ⟨.number value, place⟩ following ⟨operands, pending, true, position⟩ =
      .ok ⟨value :: operands, pending, false, place⟩ := rfl

theorem step_opener (bracket : Bracket scope) (previous following : Option (Token α))
    (operands : List α) (pending : List (Pending α)) (position : Nat) :
    scope.step previous bracket.opener following ⟨operands, pending, true, position⟩ =
      .ok ⟨operands, .group ⟨String.singleton bracket.opening, bracket.openedAt, none,
        operands.length, 0⟩ :: pending, true, bracket.openedAt⟩ := rfl

theorem step_callee (callee : Callee scope) (bracket : Bracket scope) (callable : bracket.CanCall)
    (previous : Option (Token α)) (operands : List α) (pending : List (Pending α))
    (position : Nat) :
    scope.step previous callee.token (some bracket.opener) ⟨operands, pending, true, position⟩ =
      .ok ⟨operands, .group ⟨String.singleton bracket.opening, bracket.openedAt,
        some callee.function, operands.length, 0⟩ :: pending, true, callee.position⟩ := by
  have accepted : (scope.settings.anyGroupCalls ||
      String.singleton bracket.opening == String.singleton scope.settings.callSymbol) = true := by
    rcases callable with any | first
    · simp [any]
    · simp [first]
  simp only [step, Callee.token, Bracket.opener, functionCall, callee.registered, Bool.not_true,
    Bool.false_eq_true, if_false, accepted, if_true]
  rfl

/-! ### Where places do not matter -/

theorem reduce_alike (due : Operator α → Bool) (pending : List (Pending α)) (operands : List α)
    (position other : Nat) :
    Agree (fun left right => left.1 = right.1 ∧ left.2.1 = right.2.1)
      (scope.reduce due pending operands position) (scope.reduce due pending operands other) := by
  cases pending with
  | nil => exact .value ⟨rfl, rfl⟩
  | cons top rest =>
    cases top with
    | group group => exact .value ⟨rfl, rfl⟩
    | operator operator place =>
      simp only [reduce]
      split
      · cases scope.apply operator place operands >>= fun operands =>
            scope.reduce due rest operands place with
        | ok result => exact .value ⟨rfl, rfl⟩
        | error fault => exact .fault rfl
      · exact .value ⟨rfl, rfl⟩

theorem result_alike {left right : State α} (alike : left.Alike right) :
    Agree Eq (scope.result left) (scope.result right) := by
  obtain ⟨operands, pending, expects, position⟩ := left
  obtain ⟨_, _, _, other⟩ := right
  obtain ⟨rfl, rfl, rfl⟩ := alike
  simp only [result]
  split
  · exact .refl _
  · exact .refl _
  · exact .fault rfl

theorem finish_alike {left right : State α} (alike : left.Alike right) :
    Agree Eq (scope.finish left) (scope.finish right) := by
  obtain ⟨operands, pending, expects, position⟩ := left
  obtain ⟨_, _, _, other⟩ := right
  obtain ⟨rfl, rfl, rfl⟩ := alike
  cases expects with
  | true =>
    simp only [finish, if_true]
    exact .fault rfl
  | false =>
    simp only [finish, Bool.false_eq_true, if_false, reduceState, bind_assoc, pure_bind]
    apply (reduce_alike _ pending operands position other).bind
    rintro ⟨pending, operands, position⟩ ⟨_, _, other⟩ ⟨rfl, rfl⟩
    exact result_alike (State.alike ..)

/-- The place of a state does not matter for what follows. -/
theorem conclude_alike {left right : State α} (alike : left.Alike right)
    (previous : Option (Token α)) (tokens : List (Token α)) :
    Agree Eq (scope.conclude previous tokens left) (scope.conclude previous tokens right) := by
  have same (token : Token α) (following : Option (Token α)) :
      scope.step previous token following left = scope.step previous token following right := by
    obtain ⟨operands, pending, expects, position⟩ := left
    obtain ⟨_, _, _, other⟩ := right
    obtain ⟨rfl, rfl, rfl⟩ := alike
    rfl
  match tokens with
  | [] => exact finish_alike alike
  | [token] =>
    simp only [conclude, steps, same]
    exact .refl _
  | token :: next :: rest =>
    simp only [conclude, steps, same]
    exact .refl _

theorem conclude_previous (operands : List α) (pending : List (Pending α)) (position : Nat)
    (previous before : Option (Token α)) (tokens : List (Token α)) :
    scope.conclude previous tokens ⟨operands, pending, false, position⟩ =
      scope.conclude before tokens ⟨operands, pending, false, position⟩ := by
  have same (token : Token α) (following : Option (Token α)) :
      scope.step previous token following ⟨operands, pending, false, position⟩ =
        scope.step before token following ⟨operands, pending, false, position⟩ := by
    obtain ⟨lexeme, place⟩ := token
    cases lexeme <;> rfl
  match tokens with
  | [] => rfl
  | [token] => simp only [conclude, steps, same]
  | token :: next :: rest => simp only [conclude, steps, same]

/-! ### Tokens that end a row -/

theorem endArgument_alike {left right : State α} (alike : left.Alike right) (symbol : String)
    (group : Group α) (below : List (Pending α)) :
    Agree State.Alike (scope.endArgument symbol left group below)
      (scope.endArgument symbol right group below) := by
  obtain ⟨operands, pending, expects, position⟩ := left
  obtain ⟨_, _, _, other⟩ := right
  obtain ⟨rfl, rfl, rfl⟩ := alike
  cases called : group.function.isNone with
  | true =>
    simp only [endArgument, called, if_true]
    exact .fault rfl
  | false =>
    simp only [endArgument, called, Bool.false_eq_true, if_false]
    exact .value ⟨rfl, rfl, rfl⟩

theorem callGroup_alike {left right : State α} (alike : left.Alike right)
    (function : NamedFunction α) (group : Group α) (isEmpty : Bool) (token : Token α) :
    Agree State.Alike (scope.callGroup function group isEmpty token left)
      (scope.callGroup function group isEmpty token right) := by
  obtain ⟨operands, pending, expects, position⟩ := left
  obtain ⟨_, _, _, other⟩ := right
  obtain ⟨rfl, rfl, rfl⟩ := alike
  by_cases counted : operands.length - group.base = if isEmpty then 0 else group.separators + 1
  · simp only [callGroup, ne_eq, counted, not_true_eq_false, if_false]
    apply Agree.bind (.refl _)
    rintro value _ rfl
    exact .value (State.alike ..)
  · simp only [callGroup, ne_eq, counted, not_false_eq_true, if_true]
    exact .fault rfl

theorem endGroup_alike {left right : State α} (alike : left.Alike right) (symbol : String)
    (isEmpty : Bool) (token : Token α) (group : Group α) (below : List (Pending α)) :
    Agree State.Alike (scope.endGroup symbol isEmpty token left group below)
      (scope.endGroup symbol isEmpty token right group below) := by
  obtain ⟨operands, pending, expects, position⟩ := left
  obtain ⟨_, _, _, other⟩ := right
  obtain ⟨rfl, rfl, rfl⟩ := alike
  simp only [endGroup]
  split
  · split
    · exact .fault rfl
    · split
      · exact callGroup_alike (State.alike ..) ..
      · exact .value (State.alike ..)
  · exact .fault rfl

/-- What a closing symbol does to reduced stacks. -/
def closed (scope : Scope α) (symbol : String) (token : Token α) (isEmpty : Bool) :
    List (Pending α) × List α × Nat → Outcome (State α)
  | (.group group :: below, operands, position) => scope.endGroup symbol isEmpty token
    ⟨operands, .group group :: below, isEmpty, position⟩ group below
  | (_, _, position) => .error (scope.invalid ("Unmatched '" ++ symbol ++ "'") position)

/-- What a separator does to reduced stacks. -/
def separated (scope : Scope α) (symbol : String) :
    List (Pending α) × List α × Nat → Outcome (State α)
  | (.group group :: below, operands, position) => scope.endArgument symbol
    ⟨operands, .group group :: below, false, position⟩ group below
  | (_, _, position) => .error (scope.invalid ("Unmatched '" ++ symbol ++ "'") position)

theorem closed_alike (symbol : String) (token : Token α) (isEmpty : Bool)
    (pending : List (Pending α)) (operands : List α) (position other : Nat) :
    Agree State.Alike (scope.closed symbol token isEmpty (pending, operands, position))
      (scope.closed symbol token isEmpty (pending, operands, other)) := by
  match pending with
  | [] => exact .fault rfl
  | .operator _ _ :: _ => exact .fault rfl
  | .group group :: below => exact endGroup_alike (State.alike ..) ..

theorem separated_alike (symbol : String) (pending : List (Pending α)) (operands : List α)
    (position other : Nat) :
    Agree State.Alike (scope.separated symbol (pending, operands, position))
      (scope.separated symbol (pending, operands, other)) := by
  match pending with
  | [] => exact .fault rfl
  | .operator _ _ :: _ => exact .fault rfl
  | .group group :: below => exact endArgument_alike (State.alike ..) ..

theorem finish_eq (operands : List α) (pending : List (Pending α)) (position : Nat) :
    scope.finish ⟨operands, pending, false, position⟩ =
      scope.reduce (fun _ => true) pending operands position >>=
        fun (pending, operands, position) =>
          scope.result ⟨operands, pending, false, position⟩ := by
  simp only [finish, reduceState, Bool.false_eq_true, if_false, bind_assoc, pure_bind]

theorem innermost_eq (symbol : String) (operands : List α) (pending : List (Pending α))
    (expects : Bool) (position : Nat) :
    scope.innermost symbol ⟨operands, pending, expects, position⟩ =
      scope.reduce (fun _ => true) pending operands position >>= fun reduced =>
        match reduced with
        | (.group group :: below, operands, position) =>
          .ok (⟨operands, .group group :: below, expects, position⟩, group, below)
        | (_, _, position) => .error (scope.invalid ("Unmatched '" ++ symbol ++ "'") position) := by
  simp only [innermost, reduceState, bind_assoc, pure_bind]
  congr 1
  funext ⟨pending, operands, position⟩
  match pending with
  | [] => rfl
  | .operator _ _ :: _ => rfl
  | .group _ :: _ => rfl

theorem step_separator (symbol : String) (place : Nat) (previous following : Option (Token α))
    (operands : List α) (pending : List (Pending α)) (position : Nat) :
    scope.step previous ⟨.separator symbol, place⟩ following
        ⟨operands, pending, false, position⟩ =
      scope.reduce (fun _ => true) pending operands place >>= scope.separated symbol := by
  simp only [step, argumentSeparator, innermost_eq, Bool.false_eq_true, if_false, bind_assoc]
  congr 1
  funext ⟨pending, operands, position⟩
  match pending with
  | [] => rfl
  | .operator _ _ :: _ => rfl
  | .group _ :: _ => rfl

theorem step_closer {expects : Bool} {operands : List α} {pending : List (Pending α)}
    {previous : Option (Token α)} {symbol : String} {place : Nat}
    (ready : expects = true → closesEmptyCall ⟨operands, pending, true, place⟩ previous = true)
    (following : Option (Token α)) (position : Nat) :
    scope.step previous ⟨.closeGroup symbol, place⟩ following
        ⟨operands, pending, expects, position⟩ =
      scope.reduce (fun _ => true) pending operands place >>=
        scope.closed symbol ⟨.closeGroup symbol, place⟩ expects := by
  have isEmpty : (expects && closesEmptyCall ⟨operands, pending, expects, place⟩ previous) =
      expects := by
    cases expects with
    | false => rfl
    | true => simp [ready rfl]
  simp only [step, closeGroup, isEmpty, innermost_eq, Bool.and_not_self, Bool.false_eq_true,
    if_false, bind_assoc]
  congr 1
  funext ⟨pending, operands, position⟩
  match pending with
  | [] => rfl
  | .operator _ _ :: _ => rfl
  | .group _ :: _ => rfl

/-- Whether tokens cannot go on with a row: there are none, or a group or an argument ends. -/
def Closing : List (Token α) → Prop
  | [] => True
  | token :: _ => token.lexeme.kind = .closeGroup ∨ token.lexeme.kind = .separator

theorem conclude_closing {tokens : List (Token α)} (closing : Closing tokens) :
    ∃ ended : List (Pending α) × List α × Nat → Outcome α,
      (∀ pending operands position other,
        Agree Eq (ended (pending, operands, position)) (ended (pending, operands, other))) ∧
      ∀ previous operands pending position, ∃ place,
        scope.conclude previous tokens ⟨operands, pending, false, position⟩ =
          scope.reduce (fun _ => true) pending operands place >>= ended := by
  match tokens, closing with
  | [], _ =>
    refine ⟨fun (pending, operands, position) => scope.result ⟨operands, pending, false, position⟩,
      fun pending operands position other => result_alike (State.alike ..), ?_⟩
    intro previous operands pending position
    exact ⟨position, finish_eq operands pending position⟩
  | ⟨.closeGroup symbol, place⟩ :: rest, _ =>
    refine ⟨fun reduced => scope.closed symbol ⟨.closeGroup symbol, place⟩ false reduced >>=
      scope.conclude (some ⟨.closeGroup symbol, place⟩) rest, ?_, ?_⟩
    · intro pending operands position other
      apply (closed_alike ..).bind
      intro left right alike
      exact conclude_alike alike _ _
    · intro previous operands pending position
      refine ⟨place, ?_⟩
      rw [conclude_cons (by simp [Lexeme.kind]), step_closer (by simp), bind_assoc]
  | ⟨.separator symbol, place⟩ :: rest, _ =>
    refine ⟨fun reduced => scope.separated symbol reduced >>=
      scope.conclude (some ⟨.separator symbol, place⟩) rest, ?_, ?_⟩
    · intro pending operands position other
      apply (separated_alike ..).bind
      intro left right alike
      exact conclude_alike alike _ _
    · intro previous operands pending position
      refine ⟨place, ?_⟩
      rw [conclude_cons (by simp [Lexeme.kind]), step_separator, bind_assoc]

end Scope

end Reckoner.Evaluation

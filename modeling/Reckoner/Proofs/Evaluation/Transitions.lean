import Reckoner.Proofs.Evaluation.Phrase
import Reckoner.Proofs.Outcome

/-! What a token does to a state when nothing fails, as a relation with one rule for each kind of token.
Invariants of the evaluation are read off these rules. -/

namespace Reckoner.Evaluation

variable {α : Type}

/-- Whether a symbol may open the arguments of a function. -/
def Scope.OpensCall (scope : Scope α) (symbol : String) : Prop :=
  scope.settings.anyGroupCalls = true ∨ symbol = String.singleton scope.settings.callSymbol

/-- The changes of a state by one token. `previous` and `following` are the tokens around it. -/
inductive Transition (scope : Scope α) (previous following : Option (Token α)) :
    Token α → State α → State α → Prop where
  | number {value operands pending place position} :
    Transition scope previous following ⟨.number value, place⟩ ⟨operands, pending, true, position⟩
      ⟨value :: operands, pending, false, place⟩
  | identifier {name value operands pending place position}
      (found : scope.meaning name = .ok value) :
    Transition scope previous following ⟨.identifier name, place⟩ ⟨operands, pending, true, position⟩
      ⟨value :: operands, pending, false, place⟩
  | callee {symbol openedAt operands pending position} (callee : Callee scope)
      (opener : following = some ⟨.openGroup symbol, openedAt⟩)
      (opens : scope.OpensCall symbol) :
    Transition scope previous following callee.token ⟨operands, pending, true, position⟩
      ⟨operands, .group ⟨symbol, openedAt, some callee.function, operands.length, 0⟩ :: pending,
        true, callee.position⟩
  | leading {operands pending position} (leading : Leading scope) :
    Transition scope previous following leading.token ⟨operands, pending, true, position⟩
      ⟨operands, .operator (.unary leading.operator) leading.position :: pending, true,
        leading.position⟩
  | trailing {operands pending position rest left place results} (trailing : Trailing scope)
      (reduced : scope.reduce (Operator.precedesPostfix trailing.operator.precedence) pending operands
        trailing.position = .ok (left, rest, place))
      (applied : scope.apply (.unary trailing.operator) place rest = .ok results) :
    Transition scope previous following trailing.token ⟨operands, pending, false, position⟩
      ⟨results, left, false, place⟩
  | joining {operands pending position rest left place} (joining : Joining scope)
      (reduced : scope.reduce (Operator.precedesBinary joining.operator.precedence) pending operands
        joining.position = .ok (left, rest, place)) :
    Transition scope previous following joining.token ⟨operands, pending, false, position⟩
      ⟨rest, .operator (.binary joining.operator) joining.position :: left, true, place⟩
  | opener {symbol operands pending place position} :
    Transition scope previous following ⟨.openGroup symbol, place⟩
      ⟨operands, pending, true, position⟩
      ⟨operands, .group ⟨symbol, place, none, operands.length, 0⟩ :: pending, true, place⟩
  | separator {symbol operands pending place position rest below last group function}
      (reduced : scope.reduce (fun _ => true) pending operands place =
        .ok (.group group :: below, rest, last))
      (called : group.function = some function) :
    Transition scope previous following ⟨.separator symbol, place⟩
      ⟨operands, pending, false, position⟩
      ⟨rest, .group { group with separators := group.separators + 1 } :: below, true, last⟩
  | group {symbol operands pending place position rest below last group}
      (reduced : scope.reduce (fun _ => true) pending operands place =
        .ok (.group group :: below, rest, last))
      (plain : group.function = none)
      (matching : scope.settings.closingText? group.symbol = some symbol) :
    Transition scope previous following ⟨.closeGroup symbol, place⟩
      ⟨operands, pending, false, position⟩ ⟨rest, below, false, last⟩
  | call {symbol operands pending expects place position rest below last group function value}
      (reduced : scope.reduce (fun _ => true) pending operands place =
        .ok (.group group :: below, rest, last))
      (called : group.function = some function)
      (matching : scope.settings.closingText? group.symbol = some symbol)
      (empty : expects = true →
        Scope.closesEmptyCall ⟨operands, pending, true, place⟩ previous = true)
      (counted : rest.length - group.base = if expects then 0 else group.separators + 1)
      (given : scope.run place (function.call place (rest.take (rest.length - group.base)).reverse) =
        .ok value) :
    Transition scope previous following ⟨.closeGroup symbol, place⟩
      ⟨operands, pending, expects, position⟩
      ⟨value :: rest.drop (rest.length - group.base), below, false, place⟩

namespace Scope

variable {scope : Scope α} {previous following : Option (Token α)} {operands : List α}
  {pending : List (Pending α)} {expects : Bool} {place position : Nat} {next : State α}

theorem operand_eq_ok {value : α} {token : Token α}
    (read : scope.operand value token ⟨operands, pending, expects, place⟩ = .ok next) :
    expects = true ∧ next = ⟨value :: operands, pending, false, place⟩ := by
  cases expects with
  | true =>
    cases read
    exact ⟨rfl, rfl⟩
  | false =>
    simp only [operand, Bool.false_eq_true, if_false] at read
    obtain ⟨text, _, refused⟩ := bind_eq_ok.mp read
    cases refused

theorem reduceState_eq_ok {due : Operator α → Bool}
    (reduced : scope.reduceState due ⟨operands, pending, expects, place⟩ = .ok next) :
    scope.reduce due pending operands place = .ok (next.pending, next.operands, next.position) ∧
      next.expectsOperand = expects := by
  obtain ⟨⟨left, rest, last⟩, reduces, same⟩ := bind_eq_ok.mp reduced
  cases same
  exact ⟨reduces, rfl⟩

theorem identifier_eq_ok {name : String}
    (read : scope.identifier name ⟨.identifier name, place⟩ following
      ⟨operands, pending, expects, place⟩ = .ok next) :
    Transition scope previous following ⟨.identifier name, place⟩
      ⟨operands, pending, expects, position⟩ next := by
  unfold identifier at read
  split at read
  · rename_i value found
    obtain ⟨rfl, rfl⟩ := operand_eq_ok read
    exact .identifier (by simp [meaning, found])
  · rename_i value missing found
    obtain ⟨rfl, rfl⟩ := operand_eq_ok read
    exact .identifier (by simp [meaning, missing, found])
  · split at read <;> cases read

theorem functionCall_eq_ok {name : String}
    (read : scope.functionCall name ⟨.functionCall name, place⟩ following
      ⟨operands, pending, expects, place⟩ = .ok next) :
    Transition scope previous following ⟨.functionCall name, place⟩
      ⟨operands, pending, expects, position⟩ next := by
  unfold functionCall at read
  split at read
  · rename_i function found
    cases expects with
    | false => cases read
    | true =>
      simp only [Bool.not_true, Bool.false_eq_true, if_false] at read
      split at read
      · split at read
        · rename_i symbol openedAt accepted
          cases read
          exact .callee ⟨name, place, function, found⟩ rfl (by simpa [OpensCall] using accepted)
        · cases read
      · cases read
  · cases read

theorem unaryOperator_eq_ok {name : String}
    (read : scope.unaryOperator name ⟨.unaryOperator name, place⟩
      ⟨operands, pending, expects, place⟩ = .ok next) :
    Transition scope previous following ⟨.unaryOperator name, place⟩
      ⟨operands, pending, expects, position⟩ next := by
  unfold unaryOperator at read
  split at read
  · rename_i operator found
    cases placed : operator.placement with
    | before =>
      cases expects with
      | false => simp [placed] at read
      | true =>
        simp only [placed, if_true] at read
        cases read
        exact .leading ⟨name, place, operator, found, placed⟩
    | after =>
      cases expects with
      | true => simp [placed, throw_bind] at read
      | false =>
        simp only [placed, Bool.false_eq_true, if_false] at read
        obtain ⟨reduced, reduces, read⟩ := bind_eq_ok.mp read
        obtain ⟨results, applied, same⟩ := bind_eq_ok.mp read
        cases same
        obtain ⟨reduces, expects⟩ := reduceState_eq_ok reduces
        obtain ⟨rest, left, _, last⟩ := reduced
        cases expects
        exact .trailing ⟨name, place, operator, found, placed⟩ reduces applied
  · cases read

theorem binaryOperator_eq_ok {name : String}
    (read : scope.binaryOperator name ⟨.binaryOperator name, place⟩
      ⟨operands, pending, expects, place⟩ = .ok next) :
    Transition scope previous following ⟨.binaryOperator name, place⟩
      ⟨operands, pending, expects, position⟩ next := by
  unfold binaryOperator at read
  split at read
  · rename_i operator found
    cases expects with
    | true => cases read
    | false =>
      simp only [Bool.false_eq_true, if_false] at read
      obtain ⟨reduced, reduces, same⟩ := bind_eq_ok.mp read
      cases same
      obtain ⟨reduces, _⟩ := reduceState_eq_ok reduces
      exact .joining ⟨name, place, operator, found⟩ reduces
  · cases read

theorem openGroup_eq_ok {symbol : String}
    (read : scope.openGroup symbol ⟨.openGroup symbol, place⟩
      ⟨operands, pending, expects, place⟩ = .ok next) :
    Transition scope previous following ⟨.openGroup symbol, place⟩
      ⟨operands, pending, expects, position⟩ next := by
  cases expects with
  | false => cases read
  | true =>
    cases read
    exact .opener

theorem innermost_eq_ok {symbol : String} {group : Group α} {below : List (Pending α)}
    (found : scope.innermost symbol ⟨operands, pending, expects, place⟩ =
      .ok (next, group, below)) :
    scope.reduce (fun _ => true) pending operands place =
        .ok (.group group :: below, next.operands, next.position) ∧
      next = ⟨next.operands, .group group :: below, expects, next.position⟩ := by
  obtain ⟨⟨rest, left, still, last⟩, reduced, top⟩ := bind_eq_ok.mp found
  obtain ⟨reduces, same⟩ := reduceState_eq_ok reduced
  cases same
  match left, top with
  | .group _ :: _, top =>
    cases top
    exact ⟨reduces, rfl⟩

theorem argumentSeparator_eq_ok {symbol : String}
    (read : scope.argumentSeparator symbol ⟨operands, pending, expects, place⟩ = .ok next) :
    Transition scope previous following ⟨.separator symbol, place⟩
      ⟨operands, pending, expects, position⟩ next := by
  unfold argumentSeparator at read
  cases expects with
  | true => cases read
  | false =>
    simp only [Bool.false_eq_true, if_false] at read
    obtain ⟨⟨reduced, group, below⟩, found, read⟩ := bind_eq_ok.mp read
    obtain ⟨reduces, same⟩ := innermost_eq_ok found
    obtain ⟨opening, openedAt, function, base, separators⟩ := group
    cases function with
    | none => cases read
    | some function =>
      cases read
      exact .separator reduces rfl

theorem callGroup_eq_ok {function : NamedFunction α} {group : Group α} {isEmpty : Bool}
    {token : Token α}
    (called : scope.callGroup function group isEmpty token ⟨operands, pending, expects, place⟩ =
      .ok next) :
    ∃ value, operands.length - group.base = (if isEmpty then 0 else group.separators + 1) ∧
      scope.run token.position
        (function.call token.position (operands.take (operands.length - group.base)).reverse) = .ok value ∧
      next = ⟨value :: operands.drop (operands.length - group.base), pending, false,
        token.position⟩ := by
  by_cases counted : operands.length - group.base = if isEmpty then 0 else group.separators + 1
  · simp only [callGroup, ne_eq, counted, not_true_eq_false, if_false] at called
    obtain ⟨value, given, same⟩ := bind_eq_ok.mp called
    cases same
    exact ⟨value, counted, counted ▸ given, by rw [counted]⟩
  · simp only [callGroup, ne_eq, counted, not_false_eq_true, if_true] at called
    cases called

theorem endGroup_eq_ok {symbol : String} {isEmpty : Bool} {token : Token α} {group : Group α}
    {below : List (Pending α)}
    (ended : scope.endGroup symbol isEmpty token ⟨operands, pending, expects, place⟩ group below =
      .ok next) :
    scope.settings.closingText? group.symbol = some symbol ∧
      match group.function with
      | some function => scope.callGroup function group isEmpty token
        ⟨operands, below, expects, place⟩ = .ok next
      | none => next = ⟨operands, below, false, place⟩ := by
  obtain ⟨opening, openedAt, function, base, separators⟩ := group
  unfold endGroup at ended
  cases found : scope.settings.closingText? opening with
  | none => simp [found] at ended
  | some closing =>
    by_cases same : symbol = closing
    · subst same
      simp only [found, ne_eq, not_true_eq_false, if_false] at ended
      refine ⟨rfl, ?_⟩
      cases function with
      | some function => exact ended
      | none =>
        cases ended
        rfl
    · simp [found, same, throw_bind] at ended

theorem closeGroup_eq_ok {symbol : String}
    (read : scope.closeGroup symbol ⟨.closeGroup symbol, place⟩ previous
      ⟨operands, pending, expects, place⟩ = .ok next) :
    Transition scope previous following ⟨.closeGroup symbol, place⟩
      ⟨operands, pending, expects, position⟩ next := by
  have ready : expects = true →
      closesEmptyCall ⟨operands, pending, true, place⟩ previous = true := by
    rintro rfl
    cases empty : closesEmptyCall ⟨operands, pending, true, place⟩ previous with
    | true => rfl
    | false => simp [closeGroup, empty, throw_bind] at read
  have isEmpty : (expects && closesEmptyCall ⟨operands, pending, expects, place⟩ previous) =
      expects := by
    cases expects with
    | false => rfl
    | true => simp [ready rfl]
  simp only [closeGroup, isEmpty, Bool.and_not_self, Bool.false_eq_true, if_false] at read
  obtain ⟨⟨reduced, group, below⟩, found, ended⟩ := bind_eq_ok.mp read
  obtain ⟨reduces, same⟩ := innermost_eq_ok found
  rw [same] at ended
  obtain ⟨matching, ended⟩ := endGroup_eq_ok ended
  cases called : group.function with
  | some function =>
    simp only [called] at ended
    obtain ⟨value, counted, given, rfl⟩ := callGroup_eq_ok ended
    exact .call reduces called matching ready counted given
  | none =>
    simp only [called] at ended
    subst ended
    cases expects with
    | false => exact .group reduces called matching
    | true =>
      have empty := ready rfl
      match pending, empty with
      | .group top :: rest, empty =>
        cases reduces
        simp [closesEmptyCall, called] at empty

/-- A token that is read without a failure makes one of the changes. -/
theorem step_eq_ok {token : Token α} {state : State α}
    (read : scope.step previous token following state = .ok next) :
    Transition scope previous following token state next := by
  obtain ⟨operands, pending, expects, position⟩ := state
  obtain ⟨lexeme, place⟩ := token
  cases lexeme with
  | number value =>
    obtain ⟨rfl, rfl⟩ := operand_eq_ok read
    exact .number
  | identifier name => exact identifier_eq_ok read
  | functionCall name => exact functionCall_eq_ok read
  | unaryOperator name => exact unaryOperator_eq_ok read
  | binaryOperator name => exact binaryOperator_eq_ok read
  | openGroup symbol => exact openGroup_eq_ok read
  | closeGroup symbol => exact closeGroup_eq_ok read
  | separator symbol => exact argumentSeparator_eq_ok read

theorem reduce_all_stops {left : List (Pending α)} {rest : List α} {last : Nat}
    (reduced : scope.reduce (fun _ => true) pending operands place = .ok (left, rest, last)) :
    left = [] ∨ ∃ group below, left = .group group :: below := by
  induction pending generalizing operands place with
  | nil =>
    cases reduced
    exact .inl rfl
  | cons top below ih =>
    cases top with
    | group group =>
      cases reduced
      exact .inr ⟨group, below, rfl⟩
    | operator operator position =>
      obtain ⟨results, _, reduced⟩ := bind_eq_ok.mp reduced
      exact ih reduced

theorem finish_eq_ok {value : α}
    (finished : scope.finish ⟨operands, pending, expects, place⟩ = .ok value) :
    expects = false ∧
      ∃ last, scope.reduce (fun _ => true) pending operands place = .ok ([], [value], last) := by
  cases expects with
  | true => cases finished
  | false =>
    obtain ⟨⟨rest, left, still, last⟩, reduced, settled⟩ := bind_eq_ok.mp finished
    obtain ⟨reduces, _⟩ := reduceState_eq_ok reduced
    refine ⟨rfl, last, ?_⟩
    rcases reduce_all_stops reduces with empty | ⟨group, below, open_⟩
    · cases empty
      match rest, settled with
      | [_], settled =>
        cases settled
        exact reduces
    · cases open_
      cases settled

end Scope

end Reckoner.Evaluation

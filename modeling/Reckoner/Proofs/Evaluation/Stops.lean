import Reckoner.Proofs.Evaluation.Reductions

/-! Why a token cannot be read. It is refused where it stands, or it does not fit what is open when the
operators before it are applied, or one of the implementations that it makes run fails. Each way has its
message and its place. -/

namespace Reckoner.Evaluation

variable {α : Type} {scope : Scope α}

namespace Scope

/-- Which operators are due before a token behind an operand is read, or at the end. -/
inductive Due (scope : Scope α) : Option (Token α) → (Operator α → Bool) → Prop where
  | trailing (trailing : Trailing scope) :
    Due scope (some trailing.token) (Operator.precedesPostfix trailing.operator.precedence)
  | joining (joining : Joining scope) :
    Due scope (some joining.token) (Operator.precedesBinary joining.operator.precedence)
  | separator (symbol : String) (place : Nat) :
    Due scope (some ⟨.separator symbol, place⟩) fun _ => true
  | closer (symbol : String) (place : Nat) :
    Due scope (some ⟨.closeGroup symbol, place⟩) fun _ => true
  | finish : Due scope none fun _ => true

/-- The operator whose turn it is when a token is next, or the end: one that waits and is due, or the
postfix operator that is read. It is applied to the operands on top, `below` is what waits then, and
`place` is where a failure is reported. -/
inductive Turn (scope : Scope α) (next : Option (Token α)) (state : State α) :
    Operator α → Nat → List (Pending α) → List α → Prop where
  | waiting {due operator place below operands} (complete : state.expectsOperand = false)
      (dues : scope.Due next due)
      (reduces : scope.Reduces due state.pending state.operands (.operator operator place :: below)
        operands)
      (isDue : due operator = true) : Turn scope next state operator place below operands
  | trailing {place below operands} (complete : state.expectsOperand = false)
      (trailing : Trailing scope) (reads : next = some trailing.token)
      (reduced : scope.reduce (Operator.precedesPostfix trailing.operator.precedence) state.pending
        state.operands trailing.position = .ok (below, operands, place)) :
    Turn scope next state (.unary trailing.operator) place below operands

/-- The function that a closing symbol calls, with the group of its arguments and the operands that
stand on the stack then. -/
inductive Calls (scope : Scope α) (previous : Option (Token α)) (state : State α) :
    Token α → NamedFunction α → Group α → List α → Prop where
  | closer {symbol place function group below rest last}
      (ready : state.expectsOperand = true → closesEmptyCall state previous = true)
      (reduced : scope.reduce (fun _ => true) state.pending state.operands place =
        .ok (.group group :: below, rest, last))
      (called : group.function = some function)
      (matching : scope.settings.closingText? group.symbol = some symbol) :
    Calls scope previous state ⟨.closeGroup symbol, place⟩ function group rest

/-- The arguments of a group among the operands. -/
def arguments (group : Group α) (operands : List α) : List α :=
  (operands.take (operands.length - group.base)).reverse

/-- Names that stand for nothing, with what is said about them. -/
inductive Unknown (scope : Scope α) (following : Option (Token α)) :
    Lexeme α → ErrorKind → String → Prop where
  | called {name} (unset : scope.registry.getVariable? name = none)
      (undefined : scope.registry.getConstant? name = none)
      (opens : (following.any fun next => next.lexeme.kind == .openGroup) = true) :
    Unknown scope following (.identifier name) .unknownFunction ("Unknown function '" ++ name ++ "'")
  | variable_ {name} (unset : scope.registry.getVariable? name = none)
      (undefined : scope.registry.getConstant? name = none)
      (alone : (following.any fun next => next.lexeme.kind == .openGroup) = false) :
    Unknown scope following (.identifier name) .unknownVariable ("Unknown variable '" ++ name ++ "'")
  | function {name} (missing : scope.registry.getFunction? name = none) :
    Unknown scope following (.functionCall name) .unknownFunction ("Unknown function '" ++ name ++ "'")
  | unary {name} (missing : scope.registry.getUnary? name = none) :
    Unknown scope following (.unaryOperator name) .unknownFunction ("Unknown operator '" ++ name ++ "'")
  | binary {name} (missing : scope.registry.getBinary? name = none) :
    Unknown scope following (.binaryOperator name) .unknownFunction ("Unknown operator '" ++ name ++ "'")

/-- Tokens that are out of place where they stand, with what is said about them. -/
inductive Rejects (scope : Scope α) (previous following : Option (Token α)) (state : State α) :
    Token α → String → Prop where
  | number {value place text} (complete : state.expectsOperand = false)
      (written : scope.registry.system.write value = .ok text) :
    Rejects scope previous following state ⟨.number value, place⟩
      ("Unexpected '" ++ text ++ "': missing operator")
  | identifier {name value place} (complete : state.expectsOperand = false)
      (found : scope.meaning name = .ok value) :
    Rejects scope previous following state ⟨.identifier name, place⟩
      ("Unexpected '" ++ name ++ "': missing operator")
  | callee (callee : Callee scope) (complete : state.expectsOperand = false) :
    Rejects scope previous following state callee.token
      ("Unexpected function '" ++ callee.name ++ "': missing operator")
  | unopened (callee : Callee scope) (expects : state.expectsOperand = true)
      (unopened : ∀ symbol place, following = some ⟨.openGroup symbol, place⟩ →
        ¬ scope.OpensCall symbol) :
    Rejects scope previous following state callee.token
      ("Function '" ++ callee.name ++ "' must be followed by '" ++
        String.singleton scope.settings.callSymbol ++ "'")
  | leading (leading : Leading scope) (complete : state.expectsOperand = false) :
    Rejects scope previous following state leading.token
      ("Unexpected prefix operator '" ++ leading.name ++ "'")
  | trailing (trailing : Trailing scope) (expects : state.expectsOperand = true) :
    Rejects scope previous following state trailing.token
      ("Missing operand before '" ++ trailing.name ++ "'")
  | joining (joining : Joining scope) (expects : state.expectsOperand = true) :
    Rejects scope previous following state joining.token
      ("Missing operand before '" ++ joining.name ++ "'")
  | opener {symbol place} (complete : state.expectsOperand = false) :
    Rejects scope previous following state ⟨.openGroup symbol, place⟩
      ("Unexpected '" ++ symbol ++ "': missing operator")
  | separator {symbol place} (expects : state.expectsOperand = true) :
    Rejects scope previous following state ⟨.separator symbol, place⟩
      ("Missing argument before '" ++ symbol ++ "'")
  | closer {symbol place} (expects : state.expectsOperand = true)
      (filled : closesEmptyCall state previous = false) :
    Rejects scope previous following state ⟨.closeGroup symbol, place⟩
      ("Missing operand before '" ++ symbol ++ "'")

/-- Symbols that do not fit what is open around them, with what is said about them. -/
inductive Unfit (scope : Scope α) : Lexeme α → List (Pending α) → String → Prop where
  | separator {symbol} : Unfit scope (.separator symbol) [] ("Unmatched '" ++ symbol ++ "'")
  | outside {symbol group below} (plain : group.function = none) :
    Unfit scope (.separator symbol) (.group group :: below)
      ("'" ++ symbol ++ "' is only valid inside a function call")
  | closer {symbol} : Unfit scope (.closeGroup symbol) [] ("Unmatched '" ++ symbol ++ "'")
  | mismatched {symbol expected group below}
      (closes : scope.settings.closingText? group.symbol = some expected) (other : symbol ≠ expected) :
    Unfit scope (.closeGroup symbol) (.group group :: below)
      ("Mismatched '" ++ symbol ++ "': expected '" ++ expected ++ "' to close '" ++
        group.symbol ++ "' at position " ++ toString group.position)

/-- The ways in which a token fails to be read. -/
inductive Stops (scope : Scope α) (previous following : Option (Token α)) (state : State α)
    (token : Token α) : Fault → Prop where
  | unknown {kind message} (unknown : scope.Unknown following token.lexeme kind message) :
    Stops scope previous following state token (scope.error kind message token.position)
  | unwritten {value fault} (complete : state.expectsOperand = false)
      (number : token.lexeme = .number value) (failed : scope.registry.system.write value = .error fault) :
    Stops scope previous following state token fault
  | rejected {message} (rejects : scope.Rejects previous following state token message) :
    Stops scope previous following state token (scope.invalid message token.position)
  | applying {operator place below operands fault}
      (turn : scope.Turn (some token) state operator place below operands)
      (failed : scope.apply operator place operands = .error fault) :
    Stops scope previous following state token fault
  | unfit {message} (ready : state.expectsOperand = true → closesEmptyCall state previous = true)
      (unfit : scope.Unfit token.lexeme (around state.pending) message) :
    Stops scope previous following state token
      (scope.invalid message (lastPlace (inside state.pending) token.position))
  | unpaired {group below symbol}
      (ready : state.expectsOperand = true → closesEmptyCall state previous = true)
      (closer : token.lexeme = .closeGroup symbol) (open_ : around state.pending = .group group :: below)
      (unpaired : scope.settings.closingText? group.symbol = none) :
    Stops scope previous following state token
      (scope.invalid ("'" ++ group.symbol ++ "' is not a group symbol") group.position)
  | malformed {function group rest} (calls : scope.Calls previous state token function group rest)
      (miscounted : rest.length - group.base ≠
        if state.expectsOperand then 0 else group.separators + 1) :
    Stops scope previous following state token
      (scope.invalid ("Malformed arguments for '" ++ function.name ++ "'")
        (lastPlace (inside state.pending) token.position))
  | calling {function group rest fault} (calls : scope.Calls previous state token function group rest)
      (failed : function.call token.position (arguments group rest) = .error fault) :
    Stops scope previous following state token (scope.located token.position fault)

variable {previous following : Option (Token α)} {operands : List α} {pending : List (Pending α)}
  {expects : Bool} {place position : Nat} {fault : Fault}

/-! ### Names and numbers -/

theorem operand_eq_error {value : α} {token : Token α}
    (failed : scope.operand value token ⟨operands, pending, expects, place⟩ = .error fault) :
    expects = false ∧ (token.lexeme.write scope.registry.system = .error fault ∨
      ∃ text, token.lexeme.write scope.registry.system = .ok text ∧
        fault = scope.invalid ("Unexpected '" ++ text ++ "': missing operator") token.position) := by
  cases expects with
  | true => cases failed
  | false =>
    refine ⟨rfl, ?_⟩
    rcases bind_eq_error.mp failed with failed | ⟨text, written, refused⟩
    · exact .inl failed
    · cases refused
      exact .inr ⟨text, written, rfl⟩

theorem number_eq_error {value : α}
    (failed : scope.operand value ⟨.number value, place⟩ ⟨operands, pending, expects, place⟩ =
      .error fault) :
    scope.Stops previous following ⟨operands, pending, expects, position⟩ ⟨.number value, place⟩
      fault := by
  obtain ⟨rfl, unwritten | ⟨text, written, rfl⟩⟩ := operand_eq_error failed
  · exact .unwritten rfl rfl unwritten
  · exact .rejected (.number rfl written)

theorem identifier_eq_error {name : String}
    (failed : scope.identifier name ⟨.identifier name, place⟩ following
      ⟨operands, pending, expects, place⟩ = .error fault) :
    scope.Stops previous following ⟨operands, pending, expects, position⟩ ⟨.identifier name, place⟩
      fault := by
  have refuses {value : α} (found : scope.meaning name = .ok value)
      (failed : scope.operand value ⟨.identifier name, place⟩ ⟨operands, pending, expects, place⟩ =
        .error fault) :
      scope.Stops previous following ⟨operands, pending, expects, position⟩
        ⟨.identifier name, place⟩ fault := by
    obtain ⟨rfl, unwritten | ⟨text, written, rfl⟩⟩ := operand_eq_error failed
    · cases unwritten
    · cases written
      exact .rejected (.identifier rfl found)
  unfold identifier at failed
  split at failed
  · rename_i value found
    exact refuses (by simp [meaning, found]) failed
  · rename_i value unset found
    exact refuses (by simp [meaning, unset, found]) failed
  · rename_i unset undefined
    split at failed
    · rename_i opens
      cases failed
      exact .unknown (.called unset undefined opens)
    · rename_i alone
      cases failed
      exact .unknown (.variable_ unset undefined (by simpa using alone))

theorem functionCall_eq_error {name : String}
    (failed : scope.functionCall name ⟨.functionCall name, place⟩ following
      ⟨operands, pending, expects, place⟩ = .error fault) :
    scope.Stops previous following ⟨operands, pending, expects, position⟩ ⟨.functionCall name, place⟩
      fault := by
  unfold functionCall at failed
  split at failed
  · rename_i function found
    let callee : Callee scope := ⟨name, place, function, found⟩
    cases expects with
    | false =>
      cases failed
      exact .rejected (.callee callee rfl)
    | true =>
      simp only [Bool.not_true, Bool.false_eq_true, if_false] at failed
      split at failed
      · rename_i symbol openedAt
        split at failed
        · cases failed
        · rename_i refused
          cases failed
          refine .rejected (.unopened callee rfl ?_)
          rintro _ _ ⟨⟩ opens
          exact refused (by simpa [OpensCall] using opens)
      · rename_i unopened
        cases failed
        exact .rejected (.unopened callee rfl fun symbol at_ same _ => unopened symbol at_ same)
  · rename_i missing
    cases failed
    exact .unknown (.function (Option.eq_none_iff_forall_not_mem.mpr missing))

/-! ### Operators -/

theorem reduceState_eq_error {due : Operator α → Bool} {next : Option (Token α)}
    (dues : scope.Due next due)
    (failed : scope.reduceState due ⟨operands, pending, false, place⟩ = .error fault) :
    ∃ operator at_ below results,
      scope.Turn next ⟨operands, pending, false, position⟩ operator at_ below results ∧
        scope.apply operator at_ results = .error fault := by
  rcases bind_eq_error.mp failed with failed | ⟨_, _, failed⟩
  · obtain ⟨operator, at_, below, results, reduces, isDue, fails⟩ := reduce_eq_error_iff.mp failed
    exact ⟨operator, at_, below, results, .waiting rfl dues reduces isDue, fails⟩
  · cases failed

theorem unaryOperator_eq_error {name : String}
    (failed : scope.unaryOperator name ⟨.unaryOperator name, place⟩
      ⟨operands, pending, expects, place⟩ = .error fault) :
    scope.Stops previous following ⟨operands, pending, expects, position⟩ ⟨.unaryOperator name, place⟩
      fault := by
  unfold unaryOperator at failed
  split at failed
  · rename_i operator found
    cases placed : operator.placement with
    | before =>
      cases expects with
      | true => simp [placed, pure, Except.pure] at failed
      | false =>
        simp only [placed, Bool.false_eq_true, if_false] at failed
        cases failed
        exact .rejected (.leading ⟨name, place, operator, found, placed⟩ rfl)
    | after =>
      let trailing : Trailing scope := ⟨name, place, operator, found, placed⟩
      cases expects with
      | true =>
        simp only [placed, if_true, throw_bind] at failed
        cases failed
        exact .rejected (.trailing trailing rfl)
      | false =>
        simp only [placed, Bool.false_eq_true, if_false] at failed
        rcases bind_eq_error.mp failed with failed | ⟨reduced, reduces, failed⟩
        · obtain ⟨_, _, _, _, turn, fails⟩ := reduceState_eq_error (.trailing trailing) failed
          exact .applying turn fails
        · rcases bind_eq_error.mp failed with failed | ⟨_, _, failed⟩
          · exact .applying (.trailing rfl trailing rfl (reduceState_eq_ok reduces).1) failed
          · cases failed
  · rename_i missing
    cases failed
    exact .unknown (.unary (Option.eq_none_iff_forall_not_mem.mpr missing))

theorem binaryOperator_eq_error {name : String}
    (failed : scope.binaryOperator name ⟨.binaryOperator name, place⟩
      ⟨operands, pending, expects, place⟩ = .error fault) :
    scope.Stops previous following ⟨operands, pending, expects, position⟩ ⟨.binaryOperator name, place⟩
      fault := by
  unfold binaryOperator at failed
  split at failed
  · rename_i operator found
    let joining : Joining scope := ⟨name, place, operator, found⟩
    cases expects with
    | true =>
      cases failed
      exact .rejected (.joining joining rfl)
    | false =>
      simp only [Bool.false_eq_true, if_false] at failed
      rcases bind_eq_error.mp failed with failed | ⟨_, _, failed⟩
      · obtain ⟨_, _, _, _, turn, fails⟩ := reduceState_eq_error (.joining joining) failed
        exact .applying turn fails
      · cases failed
  · rename_i missing
    cases failed
    exact .unknown (.binary (Option.eq_none_iff_forall_not_mem.mpr missing))

/-! ### Groups -/

theorem openGroup_eq_error {symbol : String}
    (failed : scope.openGroup symbol ⟨.openGroup symbol, place⟩
      ⟨operands, pending, expects, place⟩ = .error fault) :
    scope.Stops previous following ⟨operands, pending, expects, position⟩ ⟨.openGroup symbol, place⟩
      fault := by
  cases expects with
  | true => cases failed
  | false =>
    cases failed
    exact .rejected (.opener rfl)

/-- The innermost group is not found when an operator fails or no group is open. -/
theorem innermost_eq_error {symbol : String} {next : Option (Token α)}
    (dues : scope.Due next fun _ => true)
    (ready : expects = true → closesEmptyCall ⟨operands, pending, true, place⟩ previous = true)
    (failed : scope.innermost symbol ⟨operands, pending, expects, place⟩ = .error fault) :
    (∃ operator at_ below results,
      scope.Turn next ⟨operands, pending, expects, position⟩ operator at_ below results ∧
        scope.apply operator at_ results = .error fault) ∨
    (around pending = [] ∧
      fault = scope.invalid ("Unmatched '" ++ symbol ++ "'") (lastPlace (inside pending) place)) := by
  rcases bind_eq_error.mp failed with failed | ⟨⟨rest, left, still, last⟩, reduced, failed⟩
  · cases expects with
    | false => exact .inl (reduceState_eq_error dues failed)
    | true =>
      match pending, ready rfl with
      | .group group :: below, _ => cases failed
  · obtain ⟨reduces, _⟩ := reduceState_eq_ok reduced
    obtain ⟨stops, final⟩ := reduce_all_eq_ok reduces
    rcases reduce_all_stops reduces with bare | ⟨group, below, open_⟩
    · cases bare
      cases failed
      exact .inr ⟨stops.symm, congrArg _ final⟩
    · cases open_
      cases failed

theorem argumentSeparator_eq_error {symbol : String}
    (failed : scope.argumentSeparator symbol ⟨operands, pending, expects, place⟩ = .error fault) :
    scope.Stops previous following ⟨operands, pending, expects, position⟩ ⟨.separator symbol, place⟩
      fault := by
  unfold argumentSeparator at failed
  cases expects with
  | true =>
    cases failed
    exact .rejected (.separator rfl)
  | false =>
    simp only [Bool.false_eq_true, if_false] at failed
    have ready : false = true → closesEmptyCall ⟨operands, pending, true, place⟩ previous = true := nofun
    rcases bind_eq_error.mp failed with failed | ⟨⟨reduced, group, below⟩, found, failed⟩
    · rcases innermost_eq_error (.separator symbol place) ready failed with
        ⟨_, _, _, _, turn, fails⟩ | ⟨bare, rfl⟩
      · exact .applying turn fails
      · refine .unfit nofun ?_
        rw [bare]
        exact .separator
    · obtain ⟨reduces, _⟩ := innermost_eq_ok found
      obtain ⟨stops, final⟩ := reduce_all_eq_ok reduces
      cases named : group.function with
      | some function => simp [endArgument, named, pure, Except.pure] at failed
      | none =>
        simp only [endArgument, named, Option.isNone_none, if_true, final] at failed
        cases failed
        refine .unfit nofun ?_
        rw [← stops]
        exact .outside named

theorem callGroup_eq_error {function : NamedFunction α} {group : Group α} {isEmpty : Bool}
    {token : Token α}
    (failed : scope.callGroup function group isEmpty token ⟨operands, pending, expects, place⟩ =
      .error fault) :
    (operands.length - group.base ≠ (if isEmpty then 0 else group.separators + 1) ∧
      fault = scope.invalid ("Malformed arguments for '" ++ function.name ++ "'") place) ∨
    ∃ raw, function.call token.position (arguments group operands) = .error raw ∧
      fault = scope.located token.position raw := by
  by_cases counted : operands.length - group.base = if isEmpty then 0 else group.separators + 1
  · simp only [callGroup, ne_eq, counted, not_true_eq_false, if_false] at failed
    rcases bind_eq_error.mp failed with failed | ⟨_, _, failed⟩
    · rw [← counted] at failed
      change scope.run token.position (function.call token.position (arguments group operands)) = _ at failed
      cases answered : function.call token.position (arguments group operands) with
      | ok value =>
        rw [answered] at failed
        cases failed
      | error raw =>
        rw [answered] at failed
        cases failed
        exact .inr ⟨raw, rfl, rfl⟩
    · cases failed
  · simp only [callGroup, ne_eq, counted, not_false_eq_true, if_true] at failed
    cases failed
    exact .inl ⟨counted, rfl⟩

theorem closeGroup_eq_error {symbol : String}
    (failed : scope.closeGroup symbol ⟨.closeGroup symbol, place⟩ previous
      ⟨operands, pending, expects, place⟩ = .error fault) :
    scope.Stops previous following ⟨operands, pending, expects, position⟩ ⟨.closeGroup symbol, place⟩
      fault := by
  -- Only behind the opener of a call may an operand be missing here; then nothing waits above the group.
  by_cases filled : expects = true ∧
      closesEmptyCall ⟨operands, pending, expects, place⟩ previous = false
  · obtain ⟨rfl, filled⟩ := filled
    simp only [closeGroup, filled, Bool.and_false, Bool.not_false, Bool.and_true, if_true] at failed
    cases failed
    exact .rejected (.closer rfl filled)
  · have ready : expects = true →
        closesEmptyCall ⟨operands, pending, true, place⟩ previous = true := by
      rintro rfl
      simpa using filled
    have isEmpty : (expects && closesEmptyCall ⟨operands, pending, expects, place⟩ previous) =
        expects := by
      cases expects with
      | false => rfl
      | true => simp [ready rfl]
    simp only [closeGroup, isEmpty, Bool.and_not_self, Bool.false_eq_true, if_false] at failed
    rcases bind_eq_error.mp failed with failed | ⟨⟨reduced, group, below⟩, found, failed⟩
    · rcases innermost_eq_error (.closer symbol place) ready failed with
        ⟨_, _, _, _, turn, fails⟩ | ⟨bare, rfl⟩
      · exact .applying turn fails
      · refine .unfit ready ?_
        rw [bare]
        exact .closer
    · obtain ⟨reduces, same⟩ := innermost_eq_ok found
      obtain ⟨stops, final⟩ := reduce_all_eq_ok reduces
      rw [same, final] at failed
      cases matched : scope.settings.closingText? group.symbol with
      | none =>
        simp only [endGroup, matched] at failed
        cases failed
        exact .unpaired ready rfl stops.symm matched
      | some closing =>
        by_cases pair : symbol = closing
        · subst pair
          simp only [endGroup, matched, ne_eq, not_true_eq_false, if_false] at failed
          cases called : group.function with
          | none => simp [called, pure, Except.pure] at failed
          | some function =>
            have calls : scope.Calls previous ⟨operands, pending, expects, position⟩
                ⟨.closeGroup symbol, place⟩ function group reduced.operands :=
              .closer ready reduces called matched
            simp only [called] at failed
            rcases callGroup_eq_error failed with ⟨miscounted, rfl⟩ | ⟨raw, fails, rfl⟩
            · exact .malformed calls miscounted
            · exact .calling calls fails
        · simp only [endGroup, matched, ne_eq, pair, not_false_eq_true, if_true, throw_bind] at failed
          cases failed
          refine .unfit ready ?_
          rw [← stops]
          exact .mismatched matched pair

/-- A token that cannot be read fails in one of the ways. -/
theorem step_eq_error {token : Token α} {state : State α}
    (failed : scope.step previous token following state = .error fault) :
    scope.Stops previous following state token fault := by
  obtain ⟨operands, pending, expects, position⟩ := state
  obtain ⟨lexeme, place⟩ := token
  cases lexeme with
  | number value => exact number_eq_error failed
  | identifier name => exact identifier_eq_error failed
  | functionCall name => exact functionCall_eq_error failed
  | unaryOperator name => exact unaryOperator_eq_error failed
  | binaryOperator name => exact binaryOperator_eq_error failed
  | openGroup symbol => exact openGroup_eq_error failed
  | closeGroup symbol => exact closeGroup_eq_error failed
  | separator symbol => exact argumentSeparator_eq_error failed

/-! ### Operators whose turn it is -/

theorem step_of_turn {token : Token α} {state : State α} {operator : Operator α}
    {below : List (Pending α)}
    (turn : scope.Turn (some token) state operator place below operands)
    (failed : scope.apply operator place operands = .error fault) :
    scope.step previous token following state = .error fault := by
  obtain ⟨stack, pending, expects, position⟩ := state
  cases turn with
  | @waiting due operator place below operands complete dues reduces isDue =>
    have fails (position : Nat) : scope.reduce due pending stack position = .error fault :=
      reduce_eq_error_iff.mpr ⟨operator, place, below, operands, reduces, isDue, failed⟩
    cases complete
    cases dues with
    | trailing trailing =>
      rw [step_trailing, fails]
      rfl
    | joining joining =>
      rw [step_joining, fails]
      rfl
    | separator symbol place =>
      rw [step_separator, fails]
      rfl
    | closer symbol place =>
      rw [step_closer (by simp), fails]
      rfl
  | trailing complete trailing reads reduced =>
    cases complete
    cases reads
    rw [step_trailing, reduced, ok_bind]
    simp only [failed]
    rfl

theorem finish_of_turn {state : State α} {operator : Operator α} {below : List (Pending α)}
    (turn : scope.Turn none state operator place below operands)
    (failed : scope.apply operator place operands = .error fault) :
    scope.finish state = .error fault := by
  obtain ⟨stack, pending, expects, position⟩ := state
  cases turn with
  | waiting complete dues reduces isDue =>
    cases complete
    cases dues
    have fails : scope.reduce (fun _ => true) pending stack position = .error fault :=
      reduce_eq_error_iff.mpr ⟨operator, place, below, operands, reduces, isDue, failed⟩
    rw [finish_eq, fails]
    rfl
  | trailing complete trailing reads reduced => cases reads

/-! ### The end -/

/-- Where the end is reported: behind the source, or at the place of the state if there is none. -/
def endPlace (scope : Scope α) (state : State α) : Nat :=
  match scope.source with
  | some source => source.length
  | none => state.position

/-- A state has no result when an operand is missing at the end, an operator fails, a group is open or
the operands are not a single one. -/
theorem finish_eq_error {state : State α} (failed : scope.finish state = .error fault) :
    (state.expectsOperand = true ∧
      fault = scope.invalid "Unexpected end of expression" (scope.endPlace state)) ∨
    (∃ operator place below operands, scope.Turn none state operator place below operands ∧
      scope.apply operator place operands = .error fault) ∨
    (∃ group below, state.expectsOperand = false ∧ around state.pending = .group group :: below ∧
      fault = scope.invalid ("Unclosed '" ++ group.symbol ++ "'") group.position) ∨
    ∃ rest last, state.expectsOperand = false ∧
      scope.reduce (fun _ => true) state.pending state.operands state.position = .ok ([], rest, last) ∧
      (∀ value, rest ≠ [value]) ∧
      fault = scope.invalid "Expression does not reduce to a single value" last := by
  obtain ⟨operands, pending, expects, position⟩ := state
  cases expects with
  | true =>
    cases failed
    exact .inl ⟨rfl, rfl⟩
  | false =>
    refine .inr ?_
    rw [finish_eq] at failed
    rcases bind_eq_error.mp failed with failed | ⟨⟨left, rest, last⟩, reduced, failed⟩
    · obtain ⟨operator, place, below, results, reduces, isDue, fails⟩ := reduce_eq_error_iff.mp failed
      exact .inl ⟨operator, place, below, results, .waiting rfl .finish reduces isDue, fails⟩
    · obtain ⟨stops, _⟩ := reduce_all_eq_ok reduced
      rcases reduce_all_stops reduced with bare | ⟨group, below, open_⟩
      · cases bare
        match rest, failed with
        | [], failed =>
          cases failed
          exact .inr (.inr ⟨[], last, rfl, reduced, nofun, rfl⟩)
        | x :: y :: others, failed =>
          cases failed
          exact .inr (.inr ⟨x :: y :: others, last, rfl, reduced, nofun, rfl⟩)
      · cases open_
        cases failed
        exact .inr (.inl ⟨group, below, rfl, stops.symm, rfl⟩)

end Scope

end Reckoner.Evaluation

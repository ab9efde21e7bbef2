import Reckoner.Proofs.Evaluation.Frames
import Reckoner.Proofs.Evaluation.Steps
import Reckoner.Proofs.Settings
import Reckoner.NumberSystem.Integer

/-! The evaluation with two stacks against precedence climbing. Above the innermost open group the
pending operators and the operands below the top are the frames of the recursive calls; a reduction
returns from the calls that do not go on. Main statement: on the tokens of a phrase both give the
same value, or fail alike at the same implementation. -/

namespace Reckoner.Evaluation

variable {α : Type} {scope : Scope α}

/-- What a frame is on the stack of pending operators. -/
def Frame.pending (frame : Frame α) : Pending α := .operator frame.operator frame.position

/-- The pending operators of some frames above what waits below them. -/
def stacked (frames : List (Frame α)) (below : List (Pending α)) : List (Pending α) :=
  frames.map Frame.pending ++ below

/-- The operands of some frames above those below them. -/
def heldBy (frames : List (Frame α)) (operands : List α) : List α :=
  frames.flatMap Frame.kept ++ operands

/-- Whether a reduction ends at a stack: its top is no operator. -/
def Bounded : List (Pending α) → Prop
  | .operator _ _ :: _ => False
  | _ => True

namespace Scope

/-! ### Reductions and frames -/

theorem run_agree (position : Nat) (outcome : Outcome α) :
    Agree Eq (scope.run position outcome) (outcome.mapError Fault.settled) := by
  cases outcome with
  | ok value => exact .value rfl
  | error fault =>
    refine .fault ?_
    cases fault with
    | described error =>
      obtain ⟨kind, message, place, source⟩ := error
      cases place <;> rfl
    | signal signal text => cases signal <;> rfl
    | _ => rfl

theorem apply_frame (frame : Frame α) (position : Nat) (x : α) (operands : List α) :
    scope.apply frame.operator position (x :: (frame.kept ++ operands)) =
      scope.run position (frame.run x) >>= fun value => .ok (value :: operands) := by
  cases frame <;> rfl

theorem reduce_bounded (due : Operator α → Bool) {below : List (Pending α)} (bounded : Bounded below)
    (operands : List α) (position : Nat) :
    scope.reduce due below operands position = .ok (below, operands, position) := by
  match below, bounded with
  | [], _ => rfl
  | .group _ :: _, _ => rfl

/-- A reduction applies the operators of the frames that leave what follows to the frames around
them, and stops at the first other frame. -/
theorem reduce_frames {due : Operator α → Bool} {remainder : Remainder α}
    {next : List (Pending α) × List α × Nat → Outcome α} {answer : α → Outcome α}
    {operands : List α} {below : List (Pending α)} (bounded : Bounded below)
    (left : ∀ operator, due operator = true → ∀ value,
      extended (some operator) value remainder = .ok (value, remainder))
    (reached : ∀ frames value position, (level frames).all (fun operator => !due operator) = true →
      Agree Eq (next (stacked frames below, value :: heldBy frames operands, position))
        (proceed frames value remainder >>= answer))
    (frames : List (Frame α)) (value : α) (position : Nat) :
    Agree Eq
      (scope.reduce due (stacked frames below) (value :: heldBy frames operands) position >>= next)
      (proceed frames value remainder >>= answer) := by
  induction frames generalizing value position with
  | nil =>
    have stops : scope.reduce due below (value :: operands) position =
        .ok (below, value :: operands, position) := reduce_bounded due bounded _ _
    simp only [stacked, heldBy, List.map_nil, List.flatMap_nil, List.nil_append, stops]
    exact reached [] value position rfl
  | cons frame frames ih =>
    cases isDue : due frame.operator with
    | true =>
      have pops : scope.reduce due (stacked (frame :: frames) below)
          (value :: heldBy (frame :: frames) operands) position =
          scope.run frame.position (frame.run value) >>= fun value =>
            scope.reduce due (stacked frames below) (value :: heldBy frames operands)
              frame.position := by
        simp only [stacked, heldBy, List.map_cons, List.flatMap_cons, List.cons_append,
          List.append_assoc, Frame.pending, reduce, isDue, if_true, apply_frame, bind_assoc]
        rfl
      rw [pops, proceed_pop (left _ isDue value), bind_assoc, bind_assoc]
      apply (run_agree frame.position (frame.run value)).bind
      rintro value _ rfl
      exact ih value frame.position
    | false =>
      have stops : scope.reduce due (stacked (frame :: frames) below)
          (value :: heldBy (frame :: frames) operands) position =
          .ok (stacked (frame :: frames) below, value :: heldBy (frame :: frames) operands,
            position) := by
        simp only [stacked, List.map_cons, List.cons_append, Frame.pending, reduce, isDue,
          Bool.false_eq_true, if_false]
      rw [stops]
      exact reached (frame :: frames) value position (by simp [level, isDue])

theorem precedesPostfix_eq (next : UnaryOperator α) (operator : Operator α) :
    operator.precedesPostfix next.precedence = !operator.takesIn next := by
  cases operator with
  | unary operator =>
    simp only [Operator.precedesPostfix, Operator.takesIn]
    by_cases tighter : next.precedence < operator.precedence
    · simp [tighter, Int.not_le.mpr tighter]
    · simp [tighter, Int.not_lt.mp tighter]
  | binary operator => rfl

theorem precedesBinary_eq (next : BinaryOperator α) (operator : Operator α) :
    operator.precedesBinary next.precedence = !operator.extendsOver next := by
  cases operator with
  | unary operator =>
    simp only [Operator.precedesBinary, Operator.extendsOver]
    by_cases looser : operator.precedence < next.precedence
    · simp [looser, Int.not_le.mpr looser]
    · simp [looser, Int.not_lt.mp looser]
  | binary operator =>
    simp only [Operator.precedesBinary, Operator.extendsOver]
    rcases Int.lt_trichotomy operator.precedence next.precedence with looser | equal | tighter
    · simp [looser, Int.ne_of_lt looser, Int.not_lt.mpr (Int.le_of_lt looser)]
    · cases operator.associativity <;> simp [equal]
    · simp [tighter, Int.ne_of_gt tighter, Int.not_lt.mpr (Int.le_of_lt tighter)]

/-! ### The tokens of a row -/

end Scope

/-- What waits around a row: the operands and the stack below it, and what becomes of its value. -/
structure Outside (α : Type) where
  operands : List α
  below : List (Pending α)
  answer : α → Outcome α
  bounded : Bounded below

/-- Behind a value, tokens are read as climbing goes on with a remainder, inside whatever frames. -/
def Behind (scope : Scope α) (outside : Outside α) (tokens : List (Token α))
    (remainder : Remainder α) : Prop :=
  ∀ frames value previous position,
    Agree Eq
      (scope.conclude previous tokens
        ⟨value :: heldBy frames outside.operands, stacked frames outside.below, false, position⟩)
      (proceed frames value remainder >>= outside.answer)

/-- Before an operand, tokens are read as climbing enters an item, inside whatever frames. -/
def Ahead (scope : Scope α) (outside : Outside α) (tokens : List (Token α)) (item : Item α)
    (tail : Tail α) : Prop :=
  ∀ frames previous position,
    Agree Eq
      (scope.conclude previous tokens
        ⟨heldBy frames outside.operands, stacked frames outside.below, true, position⟩)
      (enter frames item tail >>= outside.answer)

section Row

variable {outside : Outside α} {tokens : List (Token α)}

theorem Behind.trailing {rest : List (UnaryOperator α)} {tail : Tail α}
    (later : Behind scope outside tokens ⟨rest, tail⟩) (trailing : Trailing scope) :
    Behind scope outside (trailing.token :: tokens) ⟨trailing.operator :: rest, tail⟩ := by
  intro frames value previous position
  rw [Scope.conclude_cons (by simp [Trailing.token, Lexeme.kind]), Scope.step_trailing, bind_assoc]
  refine Scope.reduce_frames outside.bounded ?_ ?_ frames value trailing.position
  · intro operator isDue value
    rw [Scope.precedesPostfix_eq] at isDue
    rw [extended_trailing, if_neg (by simpa using isDue)]
  · intro frames value position taken
    simp only [Scope.precedesPostfix_eq, Bool.not_not] at taken
    rw [proceed_trailing taken, bind_assoc]
    have applied : scope.apply (.unary trailing.operator) position
        (value :: heldBy frames outside.operands) =
        scope.run position (trailing.operator.run value) >>= fun value =>
          .ok (value :: heldBy frames outside.operands) := rfl
    simp only [applied, bind_assoc]
    apply (Scope.run_agree position _).bind
    rintro value _ rfl
    exact later frames value _ position

theorem Behind.joining {item : Item α} {tail : Tail α}
    (later : Ahead scope outside tokens item tail) (joining : Joining scope) :
    Behind scope outside (joining.token :: tokens) ⟨[], (joining.operator, item) :: tail⟩ := by
  intro frames value previous position
  rw [Scope.conclude_cons (by simp [Joining.token, Lexeme.kind]), Scope.step_joining, bind_assoc]
  refine Scope.reduce_frames outside.bounded ?_ ?_ frames value joining.position
  · intro operator isDue value
    rw [Scope.precedesBinary_eq] at isDue
    rw [extended_tail, if_neg (by simpa using isDue)]
  · intro frames value position taken
    simp only [Scope.precedesBinary_eq, Bool.not_not] at taken
    rw [proceed_tail taken value joining.position]
    exact later (.joining value joining.operator joining.position :: frames) _ position

theorem Ahead.leading {leading trailing : List (UnaryOperator α)} {primary : Outcome α}
    {tail : Tail α} (later : Ahead scope outside tokens ⟨leading, primary, trailing⟩ tail)
    (operator : Leading scope) :
    Ahead scope outside (operator.token :: tokens)
      ⟨operator.operator :: leading, primary, trailing⟩ tail := by
  intro frames previous position
  rw [Scope.conclude_cons (by simp [Leading.token, Lexeme.kind]), Scope.step_leading,
    enter_leading frames operator.operator operator.position]
  exact later (.leading operator.operator operator.position :: frames) _ operator.position

/-- Tokens that end the row hand its value over, once all its operators are applied. -/
theorem Behind.closing {after : List (Token α)} (closing : Scope.Closing after) (operands : List α)
    {below : List (Pending α)} (bounded : Bounded below) :
    Behind scope
      ⟨operands, below, fun value => scope.conclude none after ⟨value :: operands, below, false, 0⟩,
        bounded⟩
      after ⟨[], []⟩ := by
  obtain ⟨ended, insensitive, reduces⟩ := scope.conclude_closing closing
  intro frames value previous position
  obtain ⟨place, reduced⟩ := reduces previous (value :: heldBy frames operands)
    (stacked frames below) position
  rw [reduced]
  refine Scope.reduce_frames bounded (fun operator _ value => extended_end _ value) ?_ frames value
    place
  intro frames value position noneDue
  cases frames with
  | cons frame frames => simp [level] at noneDue
  | nil =>
    obtain ⟨other, settled⟩ := reduces none (value :: operands) below 0
    have kept : scope.reduce (fun _ => true) below (value :: operands) other =
        .ok (below, value :: operands, other) := Scope.reduce_bounded _ bounded _ _
    rw [proceed_nil]
    show Agree Eq (ended (below, value :: operands, position))
      (scope.conclude none after ⟨value :: operands, below, false, 0⟩)
    rw [settled, kept]
    exact insensitive below (value :: operands) position other

end Row

/-! ### Primaries -/

/-- Whether tokens may follow a primary: they do not open a group. -/
def Follows (tokens : List (Token α)) : Prop :=
  ∀ token ∈ tokens.head?, token.lexeme.kind ≠ .openGroup

/-- Tokens are read as a primary with an outcome: its value becomes an operand. -/
def Reads (scope : Scope α) (tokens : List (Token α)) (outcome : Outcome α) : Prop :=
  ∀ rest, Follows rest → ∀ previous operands pending position,
    Agree Eq (scope.conclude previous (tokens ++ rest) ⟨operands, pending, true, position⟩)
      (outcome >>= fun value =>
        scope.conclude none rest ⟨value :: operands, pending, false, 0⟩)

theorem Behind.primary {outside : Outside α} {tokens rest : List (Token α)} {outcome : Outcome α}
    {trailing : List (UnaryOperator α)} {tail : Tail α}
    (later : Behind scope outside rest ⟨trailing, tail⟩) (reads : Reads scope tokens outcome)
    (follows : Follows rest) :
    Ahead scope outside (tokens ++ rest) ⟨[], outcome, trailing⟩ tail := by
  intro frames previous position
  rw [enter_primary, bind_assoc]
  refine (reads rest follows previous _ _ position).trans ?_
  apply (Agree.refl outcome).bind
  rintro value _ rfl
  exact later frames value none 0

theorem Follows.cons {token : Token α} (other : token.lexeme.kind ≠ .openGroup)
    (rest : List (Token α)) : Follows (token :: rest) := by
  intro first found
  cases found
  exact other

theorem Follows.of_closing {tokens : List (Token α)} (closing : Scope.Closing tokens) :
    Follows tokens := by
  intro token found
  match tokens, closing with
  | first :: rest, closing =>
    cases found
    rcases closing with closes | separates
    · simp [closes]
    · simp [separates]

/-- The tokens of an operand, given those of its primary and of what is behind it. -/
theorem Ahead.operand {outside : Outside α} {tokens rest : List (Token α)} {outcome : Outcome α}
    {tail : Tail α} (reads : Reads scope tokens outcome) (follows : Follows rest)
    (later : Behind scope outside rest ⟨[], tail⟩) (leading : List (Leading scope))
    (trailing : List (Trailing scope)) :
    Ahead scope outside
      (leading.map Leading.token ++ (tokens ++ trailing.map Trailing.token) ++ rest)
      ⟨leading.map Leading.operator, outcome, trailing.map Trailing.operator⟩ tail := by
  have behind : Behind scope outside (trailing.map Trailing.token ++ rest)
      ⟨trailing.map Trailing.operator, tail⟩ := by
    induction trailing with
    | nil => exact later
    | cons operator trailing ih => exact ih.trailing operator
  have followed : Follows (trailing.map Trailing.token ++ rest) := by
    cases trailing with
    | nil => exact follows
    | cons operator trailing => exact Follows.cons (by simp [Trailing.token, Lexeme.kind]) _
  rw [List.append_assoc, List.append_assoc]
  induction leading with
  | nil => exact behind.primary reads followed
  | cons operator leading ih => exact ih.leading operator

namespace Scope

/-- Behind an operand only the stacks matter. -/
theorem conclude_behind (operands : List α) (pending : List (Pending α))
    (previous : Option (Token α)) (position : Nat) (tokens : List (Token α)) :
    Agree Eq (scope.conclude previous tokens ⟨operands, pending, false, position⟩)
      (scope.conclude none tokens ⟨operands, pending, false, 0⟩) := by
  rw [conclude_previous operands pending position previous none]
  exact conclude_alike (State.alike ..) none tokens

theorem reads_identifier (name : String) (place : Nat) :
    Reads scope [⟨.identifier name, place⟩] (scope.meaning name) := by
  intro rest follows previous operands pending position
  rw [List.singleton_append, conclude_cons (by simp [Lexeme.kind])]
  simp only [step, identifier, meaning]
  cases scope.registry.getVariable? name with
  | some value => exact conclude_behind ..
  | none =>
    cases scope.registry.getConstant? name with
    | some value => exact conclude_behind ..
    | none =>
      have noCall : (rest.head?.any fun next => next.lexeme.kind == .openGroup) = false := by
        cases found : rest.head? with
        | none => rfl
        | some next => simpa using follows next found
      simp only [noCall, Bool.false_eq_true, if_false]
      exact .fault rfl

theorem endGroup_bracket (valid : scope.settings.Valid) (bracket : Bracket scope) (isEmpty : Bool)
    (token : Token α) (state : State α) (function : Option (NamedFunction α))
    (base separators : Nat) (below : List (Pending α)) :
    scope.endGroup (String.singleton bracket.closing) isEmpty token state
        ⟨String.singleton bracket.opening, bracket.openedAt, function, base, separators⟩ below =
      match function with
      | some function => scope.callGroup function
          ⟨String.singleton bracket.opening, bracket.openedAt, some function, base, separators⟩
          isEmpty token { state with pending := below }
      | none => .ok { state with pending := below, expectsOperand := false } := by
  simp only [endGroup, valid.closingText?_eq bracket.configured, ne_eq, not_true_eq_false, if_false]
  cases function <;> rfl

/-- A call takes the operands above the base of its group, the first argument lowest. -/
theorem callGroup_arguments (function : NamedFunction α) (symbol : String) (place : Nat)
    (isEmpty : Bool) (token : Token α) (arguments operands : List α) (below : List (Pending α))
    (expects : Bool) (position separators : Nat)
    (counted : arguments.length = if isEmpty then 0 else separators + 1) :
    scope.callGroup function ⟨symbol, place, some function, operands.length, separators⟩ isEmpty
        token ⟨arguments.reverse ++ operands, below, expects, position⟩ =
      scope.run token.position (function.call token.position arguments) >>= fun value =>
        .ok ⟨value :: operands, below, false, token.position⟩ := by
  have count : (arguments.reverse ++ operands).length - operands.length = arguments.length := by
    simp
  have taken : (arguments.reverse ++ operands).take arguments.length = arguments.reverse := by
    rw [← List.length_reverse, List.take_left]
  have dropped : (arguments.reverse ++ operands).drop arguments.length = operands := by
    rw [← List.length_reverse, List.drop_left]
  simp only [callGroup, count, counted.symm, ne_eq, not_true_eq_false, if_false, taken, dropped,
    List.reverse_reverse]
  rfl

/-! ### Groups and calls -/

/-- Tokens are read as a row with an outcome, up to a token that ends it. -/
def ReadsRow (scope : Scope α) (tokens : List (Token α)) (outcome : Outcome α) : Prop :=
  ∀ after, Closing after → ∀ below, Bounded below → ∀ previous operands position,
    Agree Eq (scope.conclude previous (tokens ++ after) ⟨operands, below, true, position⟩)
      (outcome >>= fun value =>
        scope.conclude none after ⟨value :: operands, below, false, 0⟩)

/-- Tokens are read as further arguments of a call, which is made when the bracket closes. -/
def ReadsArguments (scope : Scope α) (tokens : List (Token α)) (outcome : Outcome (List α)) : Prop :=
  ∀ (function : NamedFunction α) (bracket : Bracket scope) (rest : List (Token α))
    (values operands : List α) (pending : List (Pending α)) (previous : Option (Token α))
    (position : Nat),
    Agree Eq
      (scope.conclude previous (tokens ++ bracket.closer :: rest)
        ⟨values.reverse ++ operands, .group ⟨String.singleton bracket.opening, bracket.openedAt,
          some function, operands.length, values.length⟩ :: pending, true, position⟩)
      (outcome >>= fun more =>
        (function.call bracket.closedAt (values ++ more)).mapError Fault.settled >>= fun value =>
          scope.conclude none rest ⟨value :: operands, pending, false, 0⟩)

theorem closing_closer (bracket : Bracket scope) (rest : List (Token α)) :
    Closing (bracket.closer :: rest) := .inl rfl

theorem closing_separator (symbol : String) (place : Nat) (rest : List (Token α)) :
    Closing (⟨.separator symbol, place⟩ :: rest) := .inr rfl

theorem bounded_group (group : Group α) (below : List (Pending α)) :
    Bounded (.group group :: below) := trivial

theorem conclude_call_end (valid : scope.settings.Valid) (function : NamedFunction α)
    (bracket : Bracket scope) (rest : List (Token α)) (arguments operands : List α)
    (pending : List (Pending α)) (separators : Nat) (expects : Bool)
    (previous : Option (Token α)) (position : Nat)
    (ready : expects = true → previous.any (fun token => token.lexeme.kind == .openGroup) = true)
    (counted : arguments.length = if expects then 0 else separators + 1) :
    Agree Eq
      (scope.conclude previous (bracket.closer :: rest)
        ⟨arguments.reverse ++ operands, .group ⟨String.singleton bracket.opening,
          bracket.openedAt, some function, operands.length, separators⟩ :: pending, expects,
          position⟩)
      ((function.call bracket.closedAt arguments).mapError Fault.settled >>= fun value =>
        scope.conclude none rest ⟨value :: operands, pending, false, 0⟩) := by
  rw [conclude_cons (by simp [Bracket.closer, Lexeme.kind]), Bracket.closer,
    step_closer (fun expects => by simpa [closesEmptyCall] using ready expects), bind_assoc]
  simp only [reduce, ok_bind, closed, endGroup_bracket valid]
  rw [callGroup_arguments function _ _ expects _ arguments operands pending expects _ separators
    counted, bind_assoc]
  apply (run_agree _ _).bind
  rintro value _ rfl
  exact conclude_behind ..

theorem ReadsRow.group {tokens : List (Token α)} {outcome : Outcome α}
    (row : ReadsRow scope tokens outcome) (valid : scope.settings.Valid) (bracket : Bracket scope) :
    Reads scope (bracket.opener :: (tokens ++ [bracket.closer])) outcome := by
  intro rest _ previous operands pending position
  rw [List.cons_append, List.append_assoc, List.singleton_append,
    conclude_cons (by simp [Bracket.opener, Lexeme.kind]), step_opener]
  refine (row _ (closing_closer bracket rest) _ (bounded_group ..) _ _ _).trans ?_
  apply (Agree.refl outcome).bind
  rintro value _ rfl
  rw [conclude_cons (by simp [Bracket.closer, Lexeme.kind]), Bracket.closer,
    step_closer (by simp), bind_assoc]
  simp only [reduce, ok_bind, closed, endGroup_bracket valid]
  exact conclude_behind ..

theorem reads_emptyCall (valid : scope.settings.Valid) (callee : Callee scope)
    (bracket : Bracket scope) (callable : bracket.CanCall) :
    Reads scope [callee.token, bracket.opener, bracket.closer]
      ((callee.function.call bracket.closedAt []).mapError Fault.settled) := by
  intro rest _ previous operands pending position
  rw [List.cons_append, List.cons_append, conclude_call rfl, step_callee callee bracket callable]
  exact conclude_call_end valid callee.function bracket rest [] operands pending 0 true _ _
    (fun _ => rfl) rfl

theorem ReadsArguments.call {tokens : List (Token α)} {outcome : Outcome (List α)}
    (arguments : ReadsArguments scope tokens outcome) (callee : Callee scope)
    (bracket : Bracket scope) (callable : bracket.CanCall) :
    Reads scope (callee.token :: bracket.opener :: (tokens ++ [bracket.closer]))
      (outcome >>= fun values => (callee.function.call bracket.closedAt values).mapError Fault.settled) := by
  intro rest _ previous operands pending position
  rw [List.cons_append, List.cons_append, List.append_assoc, conclude_call rfl,
    step_callee callee bracket callable, bind_assoc]
  exact arguments callee.function bracket rest [] operands pending _ _

theorem ReadsRow.lastArgument {tokens : List (Token α)} {outcome : Outcome α}
    (row : ReadsRow scope tokens outcome) (valid : scope.settings.Valid) :
    ReadsArguments scope tokens (outcome >>= fun value => .ok [value]) := by
  intro function bracket rest values operands pending previous position
  refine (row _ (closing_closer bracket rest) _ (bounded_group ..) _ _ _).trans ?_
  rw [bind_assoc]
  apply (Agree.refl outcome).bind
  rintro value _ rfl
  have ended := conclude_call_end valid function bracket rest (values ++ [value]) operands pending
    values.length false none 0 (by simp) (by simp)
  simpa only [List.reverse_append, List.reverse_singleton, List.singleton_append,
    List.cons_append, List.nil_append, ok_bind] using ended

theorem ReadsRow.moreArguments {tokens more : List (Token α)} {outcome : Outcome α}
    {others : Outcome (List α)} (row : ReadsRow scope tokens outcome)
    (arguments : ReadsArguments scope more others) (separator : String) (place : Nat) :
    ReadsArguments scope (tokens ++ ⟨.separator separator, place⟩ :: more)
      (outcome >>= fun value => others >>= fun values => .ok (value :: values)) := by
  intro function bracket rest values operands pending previous position
  rw [List.append_assoc, List.cons_append]
  refine (row _ (closing_separator ..) _ (bounded_group ..) _ _ _).trans ?_
  rw [bind_assoc]
  apply (Agree.refl outcome).bind
  rintro value _ rfl
  rw [conclude_cons (by simp [Lexeme.kind]), step_separator, bind_assoc, bind_assoc]
  simp only [reduce, ok_bind, pure_bind, separated, endArgument, Option.isNone_some,
    Bool.false_eq_true, if_false]
  have later := arguments function bracket rest (values ++ [value]) operands pending
    (some ⟨.separator separator, place⟩) place
  simpa only [List.reverse_append, List.reverse_singleton, List.singleton_append,
    List.cons_append, List.nil_append, List.length_append, List.length_singleton,
    List.append_assoc] using later

end Scope

theorem Follows.joining (joining : Joining scope) (rest : List (Token α)) :
    Follows (joining.token :: rest) :=
  .cons (by simp [Joining.token, Lexeme.kind]) rest

theorem Scope.readsRow_of_ahead {tokens : List (Token α)} {row : Row α}
    (ahead : ∀ after, Scope.Closing after → ∀ operands below (bounded : Bounded below),
      Ahead scope
        ⟨operands, below,
          fun value => scope.conclude none after ⟨value :: operands, below, false, 0⟩, bounded⟩
        (tokens ++ after) row.first row.tail) :
    scope.ReadsRow tokens row.evaluate := by
  intro after closing below bounded previous operands position
  rw [Row.evaluate_eq_enter]
  exact ahead after closing operands below bounded [] previous position

mutual

/-- The tokens of a phrase are read as its row. -/
theorem Phrase.ahead (valid : scope.settings.Valid) (phrase : Phrase scope) (after : List (Token α))
    (closing : Scope.Closing after) (operands : List α) (below : List (Pending α))
    (bounded : Bounded below) :
    Ahead scope
      ⟨operands, below, fun value => scope.conclude none after ⟨value :: operands, below, false, 0⟩,
        bounded⟩
      (phrase.tokens ++ after) phrase.row.first phrase.row.tail := by
  match phrase with
  | .last (.mk leading primary trailing) =>
    exact .operand (primary.reads valid) (.of_closing closing)
      (.closing closing operands bounded) leading trailing
  | .joined (.mk leading primary trailing) joining rest =>
    have later := rest.ahead valid after closing operands below bounded
    have joined := Ahead.operand (primary.reads valid) (.joining joining _)
      (Behind.joining later joining) leading trailing
    simpa only [Phrase.tokens, Operand.tokens, Phrase.row, Operand.item, List.append_assoc,
      List.cons_append] using joined

theorem Primary.reads (valid : scope.settings.Valid) (primary : Primary scope) :
    Reads scope primary.tokens primary.evaluate := by
  match primary with
  | .number value place =>
    intro rest _ previous operands pending position
    rw [Primary.tokens, List.singleton_append, Scope.conclude_cons (by simp [Lexeme.kind]),
      Scope.step_number]
    exact Scope.conclude_behind ..
  | .identifier name place => exact Scope.reads_identifier name place
  | .group bracket inner =>
    exact (Scope.readsRow_of_ahead (inner.ahead valid)).group valid bracket
  | .emptyCall callee bracket callable => exact Scope.reads_emptyCall valid callee bracket callable
  | .call callee bracket callable arguments =>
    exact (arguments.reads valid).call callee bracket callable

theorem Arguments.reads (valid : scope.settings.Valid) (arguments : Arguments scope) :
    scope.ReadsArguments arguments.tokens arguments.evaluate := by
  match arguments with
  | .last argument => exact (Scope.readsRow_of_ahead (argument.ahead valid)).lastArgument valid
  | .more argument separator place rest =>
    exact (Scope.readsRow_of_ahead (argument.ahead valid)).moreArguments (rest.reads valid)
      separator place

end

theorem Phrase.tokens_ne_nil (phrase : Phrase scope) : phrase.tokens ≠ [] := by
  have operand (operand : Operand scope) : operand.tokens ≠ [] := by
    obtain ⟨leading, primary, trailing⟩ := operand
    cases primary <;> simp [Operand.tokens, Primary.tokens]
  cases phrase with
  | last first => exact operand first
  | joined first joining rest => simp [Phrase.tokens]

/-- Reading the tokens of a phrase gives what precedence climbing gives. -/
theorem Phrase.agree {registry : Registry α} {settings : Settings} {source : Option String}
    (valid : settings.Valid) (phrase : Phrase ⟨registry, settings, source⟩) :
    Agree Eq (evaluateTokens registry phrase.tokens source settings) phrase.evaluate := by
  have nonempty : phrase.tokens.isEmpty = false := by simpa using phrase.tokens_ne_nil
  have read := Scope.readsRow_of_ahead (phrase.ahead valid) [] trivial [] trivial none [] 0
  rw [List.append_nil] at read
  have ended : (fun value => Scope.conclude ⟨registry, settings, source⟩ none []
      ⟨[value], [], false, 0⟩) = Except.ok := rfl
  rw [ended] at read
  have whole : phrase.row.evaluate >>= Except.ok = phrase.evaluate := bind_pure _
  rw [whole] at read
  rw [evaluateTokens, nonempty]
  exact read

/-- The evaluation with two stacks is precedence climbing: it gives the same value, or the same
failure apart from its place. -/
theorem evaluateTokens_eq_climbing (registry : Registry α) (settings : Settings)
    (source : Option String) (valid : settings.Valid)
    (phrase : Phrase ⟨registry, settings, source⟩) :
    (evaluateTokens registry phrase.tokens source settings).mapError Fault.unplaced =
      phrase.evaluate.mapError Fault.unplaced :=
  (phrase.agree valid).mapError_eq

/-! ### A small registry -/

namespace Sample

/-- Binds less tightly than `sum`. -/
def negation : UnaryOperator Int := ⟨⟨"-", [], none⟩, .before, 1, fun x => .ok (-x)⟩

/-- Binds less tightly than `negation`. -/
def increment : UnaryOperator Int := ⟨⟨"!", [], none⟩, .after, 0, fun x => .ok (x + 1)⟩

def sum : BinaryOperator Int := ⟨⟨"+", [], none⟩, 2, .left, fun x y => .ok (x + y)⟩

def quotient : BinaryOperator Int :=
  ⟨⟨"/", [], none⟩, 3, .right, (NumberSystem.Integer.system ⟨none⟩).div⟩

def registry : Registry Int :=
  { Registry.empty (NumberSystem.Integer.system ⟨none⟩) Settings.standard with
    unary := [("-", ⟨0, negation⟩), ("!", ⟨1, increment⟩)]
    binary := [("+", ⟨2, sum⟩), ("/", ⟨3, quotient⟩)]
    names := [("-", "-"), ("!", "!"), ("+", "+"), ("/", "/")]
    nextSerial := 4 }

def context : Scope Int := ⟨registry, Settings.standard, none⟩

/-- `- 2 ! + 8 / - 1 + 3` -/
def phrase : Phrase context :=
  let minus (position : Nat) : Leading context := ⟨"-", position, negation, rfl, rfl⟩
  let bang : Trailing context := ⟨"!", 4, increment, rfl, rfl⟩
  let plus (position : Nat) : Joining context := ⟨"+", position, sum, rfl⟩
  .joined (.mk [minus 0] (.number 2 2) [bang]) (plus 6)
    (.joined (.mk [] (.number 8 8) []) ⟨"/", 10, quotient, rfl⟩
      (.joined (.mk [minus 12] (.number 1 14) []) (plus 16)
        (.last (.mk [] (.number 3 18) []))))

end Sample

/-- The first minus ends before `!`, and the second one extends over the sum. -/
theorem evaluateTokens_eq_climbing_sample :
    Settings.standard.Valid ∧
      evaluateTokens Sample.registry Sample.phrase.tokens none Settings.standard = .ok (-3) ∧
      Sample.phrase.evaluate.mapError Fault.unplaced = .ok (-3) :=
  ⟨⟨{}, rfl⟩, rfl,
    (evaluateTokens_eq_climbing Sample.registry Settings.standard none ⟨{}, rfl⟩
      Sample.phrase).symm.trans rfl⟩

end Reckoner.Evaluation

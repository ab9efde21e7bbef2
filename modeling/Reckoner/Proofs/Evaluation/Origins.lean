import Reckoner.Proofs.Evaluation.Errors
import Reckoner.Proofs.Evaluation.Places

/-! Which token an error of an operator points to. Every operator that waits was put there by a token and
has its place, so that is where its failure is reported, however late it is applied. A postfix operator is
applied at once, but behind tighter prefix operators; its failure is reported at the last of these. -/

namespace Reckoner.Evaluation

variable {α : Type} {scope : Scope α}

/-- Whether a token puts something on the second stack. -/
def Scope.puts (scope : Scope α) (token : Token α) : Bool :=
  match token.lexeme with
  | .functionCall _ | .openGroup _ | .binaryOperator _ => true
  | .unaryOperator name =>
    (scope.registry.getUnary? name).any fun operator => operator.placement == .before
  | .number _ | .identifier _ | .closeGroup _ | .separator _ => false

/-- Whether a token is that of an operator. -/
def Scope.Names (scope : Scope α) (token : Token α) : Operator α → Prop
  | .unary operator =>
    ∃ name, token.lexeme = .unaryOperator name ∧ scope.registry.getUnary? name = some operator
  | .binary operator =>
    ∃ name, token.lexeme = .binaryOperator name ∧ scope.registry.getBinary? name = some operator

/-- What waits above `height` other entries was put there by the token with this number, and has not been
taken from there since. -/
inductive PutBy (scope : Scope α) (height number : Nat) : List (Token α) → State α → Prop where
  | put {consumed state token following next} (reached : Reached scope consumed state)
      (read : scope.step consumed.getLast? token following state = .ok next)
      (puts : scope.puts token = true) (top : next.pending.length = height + 1)
      (last : consumed.length = number) :
    PutBy scope height number (consumed ++ taken token following) next
  | kept {consumed state token following next} (before : PutBy scope height number consumed state)
      (read : scope.step consumed.getLast? token following state = .ok next)
      (below : height + (scope.puts token).toNat < next.pending.length) :
    PutBy scope height number (consumed ++ taken token following) next

/-! ### One token -/

section Transitions

variable {previous following : Option (Token α)} {token : Token α} {state next : State α}

/-- A token that puts something on the second stack puts it above the lower part of what was there. -/
theorem Transition.pending_of_puts (moved : Transition scope previous following token state next)
    (puts : scope.puts token = true) :
    ∃ entry left, next.pending = entry :: left ∧ left <:+ state.pending ∧
      ∀ operator place, entry = .operator operator place →
        scope.Names token operator ∧ token.position = place := by
  cases moved with
  | number => cases puts
  | identifier found => cases puts
  | callee callee opener opens =>
    refine ⟨_, _, rfl, List.suffix_refl _, ?_⟩
    rintro operator place ⟨⟩
  | leading leading =>
    refine ⟨_, _, rfl, List.suffix_refl _, ?_⟩
    rintro operator place ⟨⟩
    exact ⟨⟨leading.name, rfl, leading.registered⟩, rfl⟩
  | trailing trailing reduced applied =>
    simp [Scope.puts, Trailing.token, trailing.registered, trailing.after] at puts
  | joining joining reduced =>
    refine ⟨_, _, rfl, Scope.reduce_suffix reduced, ?_⟩
    rintro operator place ⟨⟩
    exact ⟨⟨joining.name, rfl, joining.registered⟩, rfl⟩
  | opener =>
    refine ⟨_, _, rfl, List.suffix_refl _, ?_⟩
    rintro operator place ⟨⟩
  | separator reduced called => cases puts
  | group reduced plain matching => cases puts
  | call reduced called matching empty counted given => cases puts

/-- A token that puts nothing on the second stack leaves the lower part of what was there, except that it
may count a separator of the innermost group. -/
theorem Transition.pending_of_not_puts (moved : Transition scope previous following token state next)
    (puts : scope.puts token = false) :
    ∃ left, left <:+ state.pending ∧ left.length = next.pending.length ∧
      ∀ operator place below, (.operator operator place :: below) <:+ next.pending →
        (.operator operator place :: below) <:+ left := by
  cases moved with
  | number => exact ⟨_, List.suffix_refl _, rfl, fun _ _ _ within => within⟩
  | identifier found => exact ⟨_, List.suffix_refl _, rfl, fun _ _ _ within => within⟩
  | callee callee opener opens => cases puts
  | leading leading =>
    simp [Scope.puts, Leading.token, leading.registered, leading.before] at puts
  | trailing trailing reduced applied =>
    exact ⟨_, Scope.reduce_suffix reduced, rfl, fun _ _ _ within => within⟩
  | joining joining reduced => cases puts
  | opener => cases puts
  | separator reduced called =>
    refine ⟨_, Scope.reduce_suffix reduced, rfl, ?_⟩
    intro operator place below within
    rcases List.suffix_cons_iff.mp within with same | within
    · cases same
    · exact within.trans (List.suffix_cons _ _)
  | group reduced plain matching =>
    exact ⟨_, (List.suffix_cons _ _).trans (Scope.reduce_suffix reduced), rfl,
      fun _ _ _ within => within⟩
  | call reduced called matching empty counted given =>
    exact ⟨_, (List.suffix_cons _ _).trans (Scope.reduce_suffix reduced), rfl,
      fun _ _ _ within => within⟩

end Transitions

theorem getElem?_taken (consumed : List (Token α)) (token : Token α) (following : Option (Token α)) :
    (consumed ++ taken token following)[consumed.length]? = some token := by
  rw [List.getElem?_append_right (Nat.le_refl _), Nat.sub_self]
  unfold taken
  split <;> rfl

/-! ### Runs -/

/-- An operator that waits is that of the token that put it there, and has its place. -/
theorem PutBy.names {height number : Nat} {consumed : List (Token α)} {state : State α}
    (put : PutBy scope height number consumed state) {operator : Operator α} {place : Nat}
    {below : List (Pending α)} (waits : (.operator operator place :: below) <:+ state.pending)
    (level : below.length = height) :
    ∃ token, consumed[number]? = some token ∧ scope.Names token operator ∧ token.position = place := by
  induction put with
  | @put consumed state token following next reached read puts top last =>
    obtain ⟨entry, left, same, _, named⟩ := (Scope.step_eq_ok read).pending_of_puts puts
    -- At this height the operator is the entry that was put there, not one below it.
    have whole := waits.eq_of_length (by simp [top, level])
    rw [same] at whole
    cases whole
    refine ⟨token, ?_, named operator place rfl⟩
    rw [← last]
    exact getElem?_taken consumed token following
  | @kept consumed state token following next before read lower ih =>
    have waited : (.operator operator place :: below) <:+ state.pending := by
      cases puts : scope.puts token with
      | true =>
        obtain ⟨entry, left, same, within, _⟩ := (Scope.step_eq_ok read).pending_of_puts puts
        rw [same] at waits lower
        rcases List.suffix_cons_iff.mp waits with whole | further
        · cases whole
          simp [puts, level] at lower
        · exact further.trans within
      | false =>
        obtain ⟨left, within, _, further⟩ := (Scope.step_eq_ok read).pending_of_not_puts puts
        exact (further operator place below waits).trans within
    obtain ⟨source, found, named⟩ := ih waited
    refine ⟨source, ?_, named⟩
    rw [List.getElem?_append_left (List.getElem?_eq_some_iff.mp found).1]
    exact found

theorem Reached.putBy {consumed : List (Token α)} {state : State α}
    (reached : Reached scope consumed state) {height : Nat} (waits : height < state.pending.length) :
    ∃ number, PutBy scope height number consumed state := by
  induction reached with
  | initial => cases waits
  | @next consumed state token following next before read ih =>
    cases puts : scope.puts token with
    | true =>
      obtain ⟨entry, left, same, within, _⟩ := (Scope.step_eq_ok read).pending_of_puts puts
      by_cases top : next.pending.length = height + 1
      · exact ⟨consumed.length, .put before read puts top rfl⟩
      · have lower : height + 1 < next.pending.length := by omega
        have shorter := within.length_le
        rw [same, List.length_cons] at lower
        obtain ⟨number, put⟩ := ih (by omega)
        exact ⟨number, .kept put read (by simp [puts, same]; omega)⟩
    | false =>
      obtain ⟨left, within, sized, _⟩ := (Scope.step_eq_ok read).pending_of_not_puts puts
      have shorter := within.length_le
      obtain ⟨number, put⟩ := ih (by omega)
      exact ⟨number, .kept put read (by simpa [puts] using waits)⟩

/-! ### Operators that are applied -/

namespace Scope

/-- The operator of the token with this number is applied to the operands on top. `before` are the prefix
operators that a postfix operator makes run first; when an operator that waits is applied, nothing comes
between. -/
inductive Applied (scope : Scope α) (tokens : List (Token α)) (number : Nat) :
    Operator α → List α → List (Pending α) → Prop where
  | waiting {consumed rest state due operator place below operands}
      (split : tokens = consumed ++ rest) (read : scope.steps none consumed initial = .ok state)
      (complete : state.expectsOperand = false) (dues : scope.Due rest.head? due)
      (reduces : scope.Reduces due state.pending state.operands (.operator operator place :: below)
        operands)
      (isDue : due operator = true) (put : PutBy scope below.length number consumed state) :
    Applied scope tokens number operator operands []
  | trailing {consumed rest state below operands last} (trailing : Trailing scope)
      (split : tokens = consumed ++ trailing.token :: rest)
      (read : scope.steps none consumed initial = .ok state) (complete : state.expectsOperand = false)
      (reduced : scope.reduce (Operator.precedesPostfix trailing.operator.precedence) state.pending
        state.operands trailing.position = .ok (below, operands, last))
      (last : consumed.length = number) :
    Applied scope tokens number (.unary trailing.operator) operands
      (state.pending.takeWhile
        (Pending.isDue (Operator.precedesPostfix trailing.operator.precedence)))

variable {tokens : List (Token α)} {number : Nat} {operator : Operator α} {operands : List α}
  {before below : List (Pending α)} {place : Nat} {fault : Fault}

/-- An operator is applied when it is its turn, and its failure is reported at its token or at the last of
the operators that come between. -/
theorem Applied.turn (applied : scope.Applied tokens number operator operands before) :
    ∃ consumed rest state place below token, tokens = consumed ++ rest ∧
      Reached scope consumed state ∧ scope.Turn rest.head? state operator place below operands ∧
      tokens[number]? = some token ∧ scope.Names token operator ∧
      place = lastPlace before token.position := by
  cases applied with
  | @waiting consumed rest state due _ place below _ split read complete dues reduces isDue put =>
    obtain ⟨token, found, named, same⟩ := put.names reduces.suffix rfl
    refine ⟨consumed, rest, state, place, below, token, split, reached_iff.mpr read,
      .waiting complete dues reduces isDue, ?_, named, same.symm⟩
    rw [split, List.getElem?_append_left (List.getElem?_eq_some_iff.mp found).1]
    exact found
  | @trailing consumed rest state below _ place trailing split read complete reduced last =>
    refine ⟨consumed, trailing.token :: rest, state, place, below, trailing.token, split,
      reached_iff.mpr read, .trailing complete trailing rfl reduced, ?_,
      ⟨trailing.name, rfl, trailing.registered⟩, (reduce_eq_ok reduced).2.2⟩
    simp [split, ← last]

theorem Turn.applied {consumed rest : List (Token α)} {state : State α}
    (turn : scope.Turn rest.head? state operator place below operands)
    (reached : Reached scope consumed state) :
    ∃ number before, scope.Applied (consumed ++ rest) number operator operands before := by
  have read := reached_iff.mp reached
  cases turn with
  | waiting complete dues reduces isDue =>
    have waits : below.length < state.pending.length := by
      have within := reduces.suffix.length_le
      rw [List.length_cons] at within
      omega
    obtain ⟨number, put⟩ := reached.putBy waits
    exact ⟨number, [], .waiting rfl read complete dues reduces isDue put⟩
  | trailing complete trailing reads reduced =>
    cases rest with
    | nil => cases reads
    | cons token rest =>
      cases reads
      exact ⟨consumed.length, _, .trailing trailing rfl read complete reduced rfl⟩

theorem Turn.complete {next : Option (Token α)} {state : State α}
    (turn : scope.Turn next state operator place below operands) : state.expectsOperand = false := by
  cases turn with
  | waiting complete => exact complete
  | trailing complete => exact complete

theorem evaluateTokens_of_turn {consumed rest : List (Token α)} {state : State α}
    (reached : Reached scope consumed state)
    (turn : scope.Turn rest.head? state operator place below operands)
    (failed : scope.apply operator place operands = .error fault) :
    evaluateTokens scope.registry (consumed ++ rest) scope.source scope.settings = .error fault := by
  have ends : scope.steps none (consumed ++ rest) initial >>= scope.finish = .error fault := by
    rw [steps_of_reached reached]
    cases rest with
    | nil => exact finish_of_turn turn failed
    | cons token rest =>
      obtain ⟨others, _, _, runs⟩ := scope.steps_taken token rest
      rw [runs, step_of_turn turn failed]
      rfl
  have some : (consumed ++ rest).isEmpty = false := by
    cases whole : consumed ++ rest with
    | cons token others => rfl
    | nil =>
      obtain ⟨rfl, rfl⟩ := List.append_eq_nil_iff.mp whole
      cases reached_iff.mp reached
      cases turn.complete
  simpa only [evaluateTokens, some, Bool.false_eq_true, if_false] using ends

end Scope

/-- An operator of a token that fails with a fault without a place ends the evaluation with an error at
that token; but if it is a postfix operator and tighter prefix operators are applied before it, the error
is at the last of these. There is such a token for every operator whose turn it ever is. -/
theorem operatorError_points (scope : Scope α) (tokens : List (Token α)) :
    (∀ number operator operands before fault,
      scope.Applied tokens number operator operands before →
      operator.Answers operands (.error fault) → fault.Placeable →
      ∃ token error, tokens[number]? = some token ∧ scope.Names token operator ∧
        evaluateTokens scope.registry tokens scope.source scope.settings =
          .error (.described error) ∧
        error.position = some (lastPlace before token.position : Int)) ∧
    ∀ consumed rest state operator place below operands, tokens = consumed ++ rest →
      scope.steps none consumed initial = .ok state →
      scope.Turn rest.head? state operator place below operands →
      ∃ number before, scope.Applied tokens number operator operands before := by
  constructor
  · intro number operator operands before fault applied answers placeable
    obtain ⟨consumed, rest, state, place, below, token, rfl, reached, turn, found, named, same⟩ :=
      applied.turn
    obtain ⟨error, located, position⟩ := scope.located_position placeable place
    refine ⟨token, error, found, named, ?_, ?_⟩
    · rw [Scope.evaluateTokens_of_turn reached turn (Scope.apply_of_answers answers place), located]
    · rw [position, same]
  · rintro consumed rest state operator place below operands rfl read turn
    exact turn.applied (Scope.reached_iff.mpr read)

namespace Sample

/-- Binds tighter than `fraction`. -/
def identity : UnaryOperator Int := ⟨⟨"~", [], none⟩, .before, 5, fun x => .ok x⟩

/-- Always fails. -/
def fraction : UnaryOperator Int := ⟨⟨"!", [], none⟩, .after, 4, fun _ => .error (.divisionByZero "")⟩

/-- Binds less tightly than both. -/
def modulus : BinaryOperator Int :=
  ⟨⟨"%", [], none⟩, 3, .left, (NumberSystem.Integer.system ⟨none⟩).div⟩

def failing : Scope Int where
  registry :=
    { Registry.empty (NumberSystem.Integer.system ⟨none⟩) Settings.standard with
      unary := [("~", ⟨0, identity⟩), ("!", ⟨1, fraction⟩)]
      binary := [("%", ⟨2, modulus⟩)]
      names := [("~", "~"), ("!", "!"), ("%", "%")]
      nextSerial := 3 }
  settings := Settings.standard
  source := none

/-- `1 % ~ 0` -/
def divided : List (Token Int) :=
  [⟨.number 1, 0⟩, ⟨.binaryOperator "%", 2⟩, ⟨.unaryOperator "~", 4⟩, ⟨.number 0, 6⟩]

/-- `~ 3 !` -/
def reduced : List (Token Int) :=
  [⟨.unaryOperator "~", 0⟩, ⟨.number 3, 2⟩, ⟨.unaryOperator "!", 4⟩]

end Sample

open Sample in
/-- The division by zero is reported at the second token, though it happens at the end. -/
theorem operatorError_points_sample :
    failing.Applied divided 1 (.binary modulus) [0, 1] [] ∧
      ∃ token error, divided[1]? = some token ∧ failing.Names token (.binary modulus) ∧
        evaluateTokens failing.registry divided failing.source failing.settings =
          .error (.described error) ∧
        error.position = some (lastPlace ([] : List (Pending Int)) token.position : Int) := by
  have first : Reached failing [⟨.number 1, 0⟩] ⟨[1], [], false, 0⟩ := Scope.reached_iff.mpr rfl
  have put : PutBy failing 0 1 ([⟨.number 1, 0⟩] ++ taken ⟨.binaryOperator "%", 2⟩ none)
      ⟨[1], [.operator (.binary modulus) 2], true, 2⟩ := .put first rfl rfl rfl rfl
  have leading : PutBy failing 0 1 ([⟨.number 1, 0⟩, ⟨.binaryOperator "%", 2⟩] ++
      taken ⟨.unaryOperator "~", 4⟩ none)
      ⟨[1], [.operator (.unary identity) 4, .operator (.binary modulus) 2], true, 4⟩ :=
    .kept put rfl (by decide)
  have last : PutBy failing 0 1 ([⟨.number 1, 0⟩, ⟨.binaryOperator "%", 2⟩, ⟨.unaryOperator "~", 4⟩] ++
      taken ⟨.number 0, 6⟩ none)
      ⟨[0, 1], [.operator (.unary identity) 4, .operator (.binary modulus) 2], false, 6⟩ :=
    .kept leading rfl (by decide)
  have applied : failing.Applied divided 1 (.binary modulus) [0, 1] [] :=
    .waiting (List.append_nil _).symm rfl rfl .finish (.apply rfl rfl (.refl _ _)) rfl last
  obtain ⟨points, _⟩ := operatorError_points failing divided
  exact ⟨applied, points _ _ _ _ _ applied (.binary modulus 1 0 []) rfl⟩

open Sample in
/-- The failing operator is the third token, but the error is at the first one, which is applied before
it. -/
theorem fraction_at_identity :
    failing.Applied reduced 2 (.unary fraction) [3] [.operator (.unary identity) 0] ∧
      ∃ error, evaluateTokens failing.registry reduced failing.source failing.settings =
          .error (.described error) ∧
        error.kind = .divisionByZero ∧ error.position = some 0 ∧ error.position ≠ some 4 := by
  let trailing : Trailing failing := ⟨"!", 4, fraction, rfl, rfl⟩
  have applied : failing.Applied reduced 2 (.unary trailing.operator) [3]
      [.operator (.unary identity) 0] :=
    @Scope.Applied.trailing _ _ _ _ [⟨.unaryOperator "~", 0⟩, ⟨.number 3, 2⟩] [] _ [] _ _ trailing rfl
      rfl rfl rfl rfl
  exact ⟨applied, _, rfl, rfl, rfl, by decide⟩

end Reckoner.Evaluation

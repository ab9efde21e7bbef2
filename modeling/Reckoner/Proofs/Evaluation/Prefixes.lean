import Reckoner.Proofs.Evaluation.Reductions
import Reckoner.Proofs.Settings

/-! What the tokens read so far look like. They open some groups one inside the other; behind the
innermost opener or separator stand either a phrase or the beginning of one that waits for an
operand. The stack of open groups and the flag of the state say which. -/

namespace Reckoner.Evaluation

variable {α : Type} {scope : Scope α}

/-! ### Phrases that grow -/

theorem Phrase.derives_trailing (phrase : Phrase scope) (trailing : Trailing scope) :
    scope.Derives (phrase.tokens ++ [trailing.token]) := by
  match phrase with
  | .last (.mk leading primary behind) =>
    refine ⟨.last (.mk leading primary (behind ++ [trailing])), ?_⟩
    simp [Phrase.tokens, Operand.tokens]
  | .joined operand joining rest =>
    obtain ⟨longer, same⟩ := rest.derives_trailing trailing
    refine ⟨.joined operand joining longer, ?_⟩
    simp [Phrase.tokens, same]

theorem Phrase.derives_joining (phrase : Phrase scope) (joining : Joining scope)
    (operand : Operand scope) :
    scope.Derives (phrase.tokens ++ joining.token :: operand.tokens) := by
  match phrase with
  | .last first => exact ⟨.joined first joining (.last operand), rfl⟩
  | .joined first earlier rest =>
    obtain ⟨longer, same⟩ := rest.derives_joining joining operand
    refine ⟨.joined first earlier longer, ?_⟩
    simp [Phrase.tokens, same]

/-- The beginning of a phrase that waits for an operand. -/
inductive Waiting (scope : Scope α) : List (Token α) → Prop where
  | start : Waiting scope []
  | leading {tokens} (waiting : Waiting scope tokens) (leading : Leading scope) :
    Waiting scope (tokens ++ [leading.token])
  | joining (phrase : Phrase scope) (joining : Joining scope) :
    Waiting scope (phrase.tokens ++ [joining.token])

theorem Waiting.derives {tokens : List (Token α)} (waiting : Waiting scope tokens)
    (operand : Operand scope) : scope.Derives (tokens ++ operand.tokens) := by
  induction waiting generalizing operand with
  | start => exact ⟨.last operand, rfl⟩
  | leading _ operator ih =>
    obtain ⟨leading, primary, trailing⟩ := operand
    simpa [Operand.tokens] using ih (.mk (operator :: leading) primary trailing)
  | joining phrase joining => simpa using phrase.derives_joining joining operand

theorem Waiting.derives_primary {tokens : List (Token α)} (waiting : Waiting scope tokens)
    (primary : Primary scope) : scope.Derives (tokens ++ primary.tokens) := by
  simpa [Operand.tokens] using waiting.derives (.mk [] primary [])

theorem Waiting.getLast?_kind {tokens : List (Token α)} (waiting : Waiting scope tokens) :
    ∀ token ∈ tokens.getLast?, token.lexeme.kind ≠ .openGroup := by
  cases waiting with
  | start => simp
  | leading _ operator => simp [Leading.token, Lexeme.kind]
  | joining phrase joining => simp [Joining.token, Lexeme.kind]

/-! ### Open groups -/

/-- Complete arguments of a call with the separators behind them. -/
inductive Started (scope : Scope α) : Nat → List (Token α) → Prop where
  | none : Started scope 0 []
  | more {count tokens} (started : Started scope count tokens) (argument : Phrase scope)
      (separator : String) (place : Nat) :
    Started scope (count + 1) (tokens ++ (argument.tokens ++ [⟨.separator separator, place⟩]))

theorem Started.arguments {count : Nat} {tokens : List (Token α)}
    (started : Started scope count tokens) (rest : Arguments scope) :
    ∃ whole : Arguments scope, whole.tokens = tokens ++ rest.tokens := by
  induction started generalizing rest with
  | none => exact ⟨rest, rfl⟩
  | more _ argument separator place ih =>
    obtain ⟨whole, same⟩ := ih (.more argument separator place rest)
    refine ⟨whole, ?_⟩
    simpa [Arguments.tokens] using same

theorem Started.getLast?_kind {count : Nat} {tokens : List (Token α)}
    (started : Started scope count tokens) :
    ∀ token ∈ tokens.getLast?, token.lexeme.kind ≠ .openGroup := by
  cases started with
  | none => simp
  | more _ argument separator place => simp [Lexeme.kind]

/-- Tokens that do not end with an opener are none if an opener is the last one read. -/
theorem eq_nil_of_opener {front tokens : List (Token α)}
    (ending : ∀ token ∈ tokens.getLast?, token.lexeme.kind ≠ .openGroup)
    (opener : ∃ token ∈ (front ++ tokens).getLast?, token.lexeme.kind = .openGroup) :
    tokens = [] := by
  obtain ⟨token, last, isOpener⟩ := opener
  cases found : tokens.getLast? with
  | none => exact List.getLast?_eq_none_iff.mp found
  | some other =>
    have same : other = token := by simpa [List.getLast?_append, found] using last
    exact absurd isOpener (same ▸ ending other found)

/-- Tokens up to the innermost opener or separator, with the groups that are open, the innermost one
first. -/
inductive Opened (scope : Scope α) : List (Group α) → List (Token α) → Prop where
  | outside : Opened scope [] []
  | group {groups before body symbol place base} (outer : Opened scope groups before)
      (waiting : Waiting scope body) :
    Opened scope (⟨symbol, place, none, base, 0⟩ :: groups)
      (before ++ body ++ [⟨.openGroup symbol, place⟩])
  | call {groups before body symbol place base count arguments} (outer : Opened scope groups before)
      (waiting : Waiting scope body) (callee : Callee scope) (opens : scope.OpensCall symbol)
      (started : Started scope count arguments) :
    Opened scope (⟨symbol, place, some callee.function, base, count⟩ :: groups)
      (before ++ body ++ callee.token :: ⟨.openGroup symbol, place⟩ :: arguments)

/-- The groups among what waits. -/
def openGroups : List (Pending α) → List (Group α)
  | [] => []
  | .operator _ _ :: rest => openGroups rest
  | .group group :: rest => group :: openGroups rest

/-- A state belongs to the tokens that are read. -/
def Reading (scope : Scope α) (consumed : List (Token α)) (state : State α) : Prop :=
  ∃ before body, before ++ body = consumed ∧ Opened scope (openGroups state.pending) before ∧
    if state.expectsOperand then Waiting scope body else scope.Derives body

theorem reading_initial : Reading scope [] initial :=
  ⟨[], [], rfl, .outside, .start⟩

theorem Scope.Reduces.openGroups {due : Operator α → Bool} {pending left : List (Pending α)}
    {operands rest : List α} (reduces : scope.Reduces due pending operands left rest) :
    openGroups left = openGroups pending := by
  induction reduces with
  | refl => rfl
  | apply _ _ _ ih => exact ih

theorem Scope.reduce_openGroups {due : Operator α → Bool} {pending left : List (Pending α)}
    {operands rest : List α} {place last : Nat}
    (reduced : scope.reduce due pending operands place = .ok (left, rest, last)) :
    openGroups left = openGroups pending := (reduce_eq_ok reduced).1.openGroups

theorem Scope.bracket_of_closingText? {opening closing : String}
    (matching : scope.settings.closingText? opening = some closing) (openedAt closedAt : Nat) :
    ∃ bracket : Bracket scope, bracket.opener = ⟨.openGroup opening, openedAt⟩ ∧
      bracket.closer = ⟨.closeGroup closing, closedAt⟩ ∧
      (scope.OpensCall opening → bracket.CanCall) := by
  obtain ⟨first, last, member, rfl, rfl⟩ := Settings.closingText?_eq_some matching
  refine ⟨⟨first, last, openedAt, closedAt, member⟩, rfl, rfl, ?_⟩
  rintro (any | same)
  · exact .inl any
  · exact .inr (String.singleton_inj.mp same)

/-! ### One token -/

theorem Scope.Derives.trailing {body : List (Token α)} (derives : scope.Derives body)
    (trailing : Trailing scope) : scope.Derives (body ++ [trailing.token]) := by
  obtain ⟨phrase, rfl⟩ := derives
  exact phrase.derives_trailing trailing

theorem Reading.group {pending below : List (Pending α)} {group : Group α} {operands : List α}
    {symbol : String} {place last : Nat} {consumed : List (Token α)}
    (reading : Reading scope consumed ⟨operands, pending, false, last⟩)
    (same : openGroups pending = group :: openGroups below) (plain : group.function = none)
    (matching : scope.settings.closingText? group.symbol = some symbol) (results : List α)
    (final : Nat) :
    Reading scope (consumed ++ [⟨.closeGroup symbol, place⟩]) ⟨results, below, false, final⟩ := by
  obtain ⟨before, body, rfl, opened, phrase, rfl⟩ := reading
  simp only [same] at opened
  cases opened with
  | call outer waiting callee opens started => cases plain
  | @group _ before head opening openedAt base outer waiting =>
    obtain ⟨bracket, opener, closer, _⟩ := scope.bracket_of_closingText? matching openedAt place
    have complete := waiting.derives_primary (.group bracket phrase)
    refine ⟨before, _, ?_, outer, complete⟩
    simp [Primary.tokens, opener, closer]

theorem Reading.call {pending below : List (Pending α)} {group : Group α}
    {function : NamedFunction α} {operands : List α} {expects : Bool} {symbol : String}
    {place last : Nat} {consumed : List (Token α)}
    (reading : Reading scope consumed ⟨operands, pending, expects, last⟩)
    (same : openGroups pending = group :: openGroups below) (called : group.function = some function)
    (matching : scope.settings.closingText? group.symbol = some symbol)
    (empty : expects = true → ∃ token ∈ consumed.getLast?, token.lexeme.kind = .openGroup)
    (results : List α) (final : Nat) :
    Reading scope (consumed ++ [⟨.closeGroup symbol, place⟩]) ⟨results, below, false, final⟩ := by
  obtain ⟨before, body, rfl, opened, behind⟩ := reading
  simp only [same] at opened
  cases opened with
  | group outer waiting => cases called
  | @call _ before head opening openedAt base count arguments outer waiting callee opens started =>
    obtain ⟨bracket, opener, closer, callable⟩ := scope.bracket_of_closingText? matching openedAt place
    cases expects with
    | false =>
      obtain ⟨phrase, rfl⟩ := behind
      obtain ⟨whole, made⟩ := started.arguments (.last phrase)
      have complete := waiting.derives_primary (.call callee bracket (callable opens) whole)
      refine ⟨before, _, ?_, outer, complete⟩
      simp [Primary.tokens, Arguments.tokens, opener, closer, made]
    | true =>
      have bare : body = [] := eq_nil_of_opener behind.getLast?_kind (empty rfl)
      subst bare
      have last : ∃ token ∈ ((before ++ head ++ [callee.token, ⟨.openGroup opening, openedAt⟩]) ++
          arguments).getLast?, token.lexeme.kind = .openGroup := by simpa using empty rfl
      have unstarted : arguments = [] := eq_nil_of_opener started.getLast?_kind last
      subst unstarted
      have complete := waiting.derives_primary (.emptyCall callee bracket (callable opens))
      refine ⟨before, _, ?_, outer, complete⟩
      simp [Primary.tokens, opener, closer]

theorem opener_of_closesEmptyCall {state : State α} {previous : Option (Token α)}
    (empty : Scope.closesEmptyCall state previous = true) :
    ∃ token ∈ previous, token.lexeme.kind = .openGroup := by
  unfold Scope.closesEmptyCall at empty
  split at empty
  · have opener := (Bool.and_eq_true_iff.mp empty).2
    cases previous with
    | none => cases opener
    | some token => exact ⟨token, rfl, by simpa using opener⟩
  · cases empty

/-- A token that is read without a failure goes on with what the tokens look like. -/
theorem Transition.reading {consumed : List (Token α)} {following : Option (Token α)}
    {token : Token α} {state next : State α}
    (moved : Transition scope consumed.getLast? following token state next)
    (reading : Reading scope consumed state) :
    Reading scope (consumed ++ taken token following) next := by
  cases moved with
  | @number value operands pending place position =>
    obtain ⟨before, body, rfl, opened, waiting⟩ := reading
    refine ⟨before, _, ?_, opened, waiting.derives_primary (.number value place)⟩
    simp [taken, Lexeme.kind, Primary.tokens]
  | @identifier name value operands pending place position =>
    obtain ⟨before, body, rfl, opened, waiting⟩ := reading
    refine ⟨before, _, ?_, opened, waiting.derives_primary (.identifier name place)⟩
    simp [taken, Lexeme.kind, Primary.tokens]
  | callee callee opener opens =>
    obtain ⟨before, body, rfl, opened, waiting⟩ := reading
    subst opener
    exact ⟨_, [], List.append_nil _, .call opened waiting callee opens .none, .start⟩
  | leading leading =>
    obtain ⟨before, body, rfl, opened, waiting⟩ := reading
    refine ⟨before, _, ?_, opened, waiting.leading leading⟩
    simp [taken, Leading.token, Lexeme.kind]
  | trailing trailing reduced applied =>
    obtain ⟨before, body, rfl, opened, derives⟩ := reading
    rw [← Scope.reduce_openGroups reduced] at opened
    refine ⟨before, _, ?_, opened, derives.trailing trailing⟩
    simp [taken, Trailing.token, Lexeme.kind]
  | joining joining reduced =>
    obtain ⟨before, body, rfl, opened, phrase, rfl⟩ := reading
    rw [← Scope.reduce_openGroups reduced] at opened
    refine ⟨before, _, ?_, opened, .joining phrase joining⟩
    simp [taken, Joining.token, Lexeme.kind]
  | opener =>
    obtain ⟨before, body, rfl, opened, waiting⟩ := reading
    exact ⟨_, [], List.append_nil _, .group opened waiting, .start⟩
  | @separator symbol operands pending place position rest below last group function reduced called =>
    obtain ⟨before, body, rfl, opened, phrase, rfl⟩ := reading
    rw [← Scope.reduce_openGroups reduced] at opened
    cases opened with
    | group outer waiting => cases called
    | call outer waiting callee opens started =>
      have more := started.more phrase symbol place
      refine ⟨_, [], ?_, .call outer waiting callee opens more, .start⟩
      simp [taken, Lexeme.kind]
  | group reduced plain matching =>
    exact reading.group (Scope.reduce_openGroups reduced).symm plain matching _ _
  | call reduced called matching empty counted given =>
    refine reading.call (Scope.reduce_openGroups reduced).symm called matching ?_ _ _
    intro expects
    exact opener_of_closesEmptyCall (empty expects)

/-- Every state that is reached belongs to the tokens read so far. -/
theorem Reached.reading {consumed : List (Token α)} {state : State α}
    (reached : Reached scope consumed state) : Reading scope consumed state := by
  induction reached with
  | initial => exact reading_initial
  | next _ read ih => exact (Scope.step_eq_ok read).reading ih

theorem derives_of_value {registry : Registry α} {settings : Settings} {source : Option String}
    {tokens : List (Token α)} {value : α}
    (evaluated : evaluateTokens registry tokens source settings = .ok value) :
    Scope.Derives ⟨registry, settings, source⟩ tokens := by
  unfold evaluateTokens at evaluated
  split at evaluated
  · cases evaluated
  · obtain ⟨final, read, finished⟩ := bind_eq_ok.mp evaluated
    obtain ⟨before, body, same, opened, derives⟩ := (Scope.reached_iff.mpr read).reading
    obtain ⟨operands, pending, expects, place⟩ := final
    obtain ⟨rfl, last, reduced⟩ := Scope.finish_eq_ok finished
    simp only [← Scope.reduce_openGroups reduced, openGroups] at opened
    cases opened
    exact same ▸ derives

end Reckoner.Evaluation

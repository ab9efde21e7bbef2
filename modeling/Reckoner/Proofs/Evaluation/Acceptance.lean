import Reckoner.Proofs.Evaluation.Failures
import Reckoner.Proofs.Evaluation.Prefixes
import Reckoner.Proofs.Evaluation.Progress
import Reckoner.Proofs.Evaluation.Simulation
import Reckoner.Proofs.Numeral

/-! Which tokens have a value. Where no implementation fails these are the tokens of phrases, and all
others are refused as expressions, except that the message about a number in a wrong place has to
write that number. -/

namespace Reckoner.Evaluation

variable {α : Type} {scope : Scope α} {fault : Fault}

/-- Whether a fault refuses an expression as malformed. -/
def Refuses (fault : Fault) : Prop :=
  ∃ error, fault = .described error ∧ error.kind = .invalidExpression

/-- Whether what waits never fails. -/
def Pending.Total : Pending α → Prop := Pending.All Operator.Total NamedFunction.Total

namespace Scope

theorem refuses_invalid (message : String) (position : Nat) :
    Refuses (scope.invalid message position) := ⟨_, rfl, rfl⟩

theorem run_ne_error {position : Nat} {outcome : Outcome α} (total : ∃ value, outcome = .ok value) :
    scope.run position outcome ≠ .error fault := by
  obtain ⟨value, rfl⟩ := total
  intro failed
  cases failed

theorem explains_total : scope.Explains Operator.Total Refuses where
  invalid := refuses_invalid
  unary _ total x _ _ failed := absurd failed (run_ne_error (total x))
  binary _ total x y _ _ failed := absurd failed (run_ne_error (total x y))

theorem explainsCalls_total : scope.ExplainsCalls NamedFunction.Total Refuses :=
  fun _ total arguments place _ failed => absurd failed (run_ne_error (total place arguments))

end Scope

theorem Reached.total {consumed : List (Token α)} {state : State α}
    (reached : Reached scope consumed state) (resolved : ∀ token ∈ consumed, scope.Resolves token) :
    ∀ entry ∈ state.pending, entry.Total :=
  reached.pending_all fun token member => (resolved token member).supplies

/-! ### Steps that fail -/

namespace Scope

variable {previous following : Option (Token α)}

theorem Resolves.named {token : Token α} (resolves : scope.Resolves token) (kind : ErrorKind)
    (message : String) : ¬ scope.Unknown following token.lexeme kind message := by
  obtain ⟨lexeme, place⟩ := token
  intro unknown
  cases unknown with
  | called unset undefined =>
    obtain ⟨value, meant⟩ := resolves
    simp [meaning, unset, undefined] at meant
  | variable_ unset undefined =>
    obtain ⟨value, meant⟩ := resolves
    simp [meaning, unset, undefined] at meant
  | function missing =>
    obtain ⟨function, found, _⟩ := resolves
    cases missing.symm.trans found
  | unary missing =>
    obtain ⟨operator, found, _⟩ := resolves
    cases missing.symm.trans found
  | binary missing =>
    obtain ⟨operator, found, _⟩ := resolves
    cases missing.symm.trans found

/-- A step on a token that resolves refuses the expression or fails to write a number. -/
theorem step_error {token : Token α} {state : State α} (resolves : scope.Resolves token)
    (total : ∀ entry ∈ state.pending, entry.Total)
    (failed : scope.step previous token following state = .error fault) :
    Refuses fault ∨ ∃ value, token.lexeme = .number value ∧ state.expectsOperand = false ∧
      scope.registry.system.write value = .error fault := by
  have waits : ∀ entry ∈ state.pending, entry.All Operator.Total NamedFunction.Total := total
  rcases explains_total.stops resolves.supplies waits resolves.named (step_eq_error failed) with
    refuses | number | ⟨function, group, rest, raw, calls, fails, rfl⟩
  · exact .inl refuses
  · exact .inr number
  · exact .inl (explainsCalls_total.calls waits calls fails)

end Scope

/-! ### All token lists -/

/-- Whether a number stands behind an operand and cannot be written: the tokens before it are read
without a failure and do not wait for an operand. -/
def Scope.Misplaced (scope : Scope α) (tokens : List (Token α)) (fault : Fault) : Prop :=
  ∃ before value place after state, tokens = before ++ ⟨.number value, place⟩ :: after ∧
    scope.steps none before initial = .ok state ∧ state.expectsOperand = false ∧
    scope.registry.system.write value = .error fault

theorem Scope.Misplaced.steps_eq {tokens : List (Token α)} (misplaced : scope.Misplaced tokens fault) :
    scope.steps none tokens initial = .error fault := by
  obtain ⟨before, value, place, after, state, rfl, read, unexpected, unwritten⟩ := misplaced
  have stops : scope.step before.getLast? ⟨.number value, place⟩ after.head? state = .error fault := by
    simp only [Scope.step, Scope.operand, unexpected, Bool.false_eq_true, if_false, Lexeme.write,
      unwritten]
    rfl
  rw [Scope.steps_of_reached (Scope.reached_iff.mpr read), Scope.steps_cons (by simp [Lexeme.kind]),
    stops]
  rfl

/-- A run on tokens that resolve fails with a refusal or at a misplaced number. -/
theorem Scope.steps_error {tokens : List (Token α)}
    (resolved : ∀ token ∈ tokens, scope.Resolves token)
    (failed : scope.steps none tokens initial = .error fault) :
    Refuses fault ∨ scope.Misplaced tokens fault := by
  rcases scope.steps_cases .initial tokens with ⟨final, read, _⟩ | stopped
  · cases failed.symm.trans read
  · obtain ⟨found, before, token, rest, state, same, rfl, reached, stops⟩ := stopped
    cases failed.symm.trans same
    obtain ⟨earlier, resolves, _⟩ := by
      simpa only [List.nil_append, List.forall_mem_append, List.forall_mem_cons] using resolved
    rcases Scope.step_error resolves (reached.total earlier) stops with refuses | unwritten
    · exact .inl refuses
    · obtain ⟨value, number, unexpected, unwritten⟩ := unwritten
      obtain ⟨lexeme, place⟩ := token
      cases number
      exact .inr ⟨before, value, place, rest, state, rfl, Scope.reached_iff.mp reached, unexpected,
        unwritten⟩

section Tokens

variable {registry : Registry α} {settings : Settings} {source : Option String}
  {tokens : List (Token α)}

theorem value_of_derives (valid : settings.Valid)
    (resolved : ∀ token ∈ tokens, Scope.Resolves ⟨registry, settings, source⟩ token)
    (derives : Scope.Derives ⟨registry, settings, source⟩ tokens) :
    ∃ value, evaluateTokens registry tokens source settings = .ok value := by
  obtain ⟨phrase, rfl⟩ := derives
  obtain ⟨value, given⟩ := phrase.evaluate_total resolved
  have agree := phrase.agree valid
  rw [given] at agree
  cases same : evaluateTokens registry phrase.tokens source settings with
  | ok result => exact ⟨result, rfl⟩
  | error fault =>
    rw [same] at agree
    cases agree

/-- Tokens that resolve are refused or have a misplaced number, if their evaluation fails. -/
theorem evaluateTokens_error
    (resolved : ∀ token ∈ tokens, Scope.Resolves ⟨registry, settings, source⟩ token)
    (nonempty : tokens.isEmpty = false)
    (failed : evaluateTokens registry tokens source settings = .error fault) :
    Refuses fault ∨ Scope.Misplaced ⟨registry, settings, source⟩ tokens fault := by
  simp only [evaluateTokens, nonempty, Bool.false_eq_true, if_false] at failed
  rcases bind_eq_error.mp failed with failed | ⟨final, read, failed⟩
  · exact Scope.steps_error resolved failed
  · have total := (Scope.reached_iff.mpr read).total resolved
    exact .inl (Scope.explains_total.finish total fault failed)

end Tokens

/-- Where every name stands for something that never fails, exactly the phrases have a value. All
other tokens are refused, unless a number that stands behind an operand cannot be written; then
the evaluation fails as the writing does. -/
theorem evaluateTokens_accepts (registry : Registry α) (settings : Settings)
    (source : Option String) (valid : settings.Valid) (tokens : List (Token α))
    (resolved : ∀ token ∈ tokens, Scope.Resolves ⟨registry, settings, source⟩ token) :
    ((∃ value, evaluateTokens registry tokens source settings = .ok value) ↔
      Scope.Derives ⟨registry, settings, source⟩ tokens) ∧
    (∀ fault, Scope.Misplaced ⟨registry, settings, source⟩ tokens fault →
      evaluateTokens registry tokens source settings = .error fault) ∧
    (¬ Scope.Derives ⟨registry, settings, source⟩ tokens →
      (∀ fault, ¬ Scope.Misplaced ⟨registry, settings, source⟩ tokens fault) →
      ∃ error, evaluateTokens registry tokens source settings = .error (.described error) ∧
        error.kind = if tokens.isEmpty then .emptyExpression else .invalidExpression) := by
  refine ⟨⟨?_, value_of_derives valid resolved⟩, ?_, ?_⟩
  · rintro ⟨value, evaluated⟩
    exact derives_of_value evaluated
  · intro fault misplaced
    have nonempty : tokens.isEmpty = false := by
      obtain ⟨before, value, place, after, state, rfl, _⟩ := misplaced
      simp
    simp only [evaluateTokens, nonempty, Bool.false_eq_true, if_false, misplaced.steps_eq]
    rfl
  · intro unmatched written
    cases nonempty : tokens.isEmpty with
    | true =>
      refine ⟨_, by rw [evaluateTokens, nonempty]; rfl, rfl⟩
    | false =>
      cases evaluated : evaluateTokens registry tokens source settings with
      | ok value => exact absurd (derives_of_value evaluated) unmatched
      | error fault =>
        rcases evaluateTokens_error resolved nonempty evaluated with ⟨error, rfl, kind⟩ | misplaced
        · exact ⟨error, rfl, kind⟩
        · exact absurd misplaced (written fault)

/-- The tokens of `- 2 ! + (3)`. -/
def Sample.tokens : List (Token Int) :=
  [⟨.unaryOperator "-", 0⟩, ⟨.number 2, 2⟩, ⟨.unaryOperator "!", 4⟩, ⟨.binaryOperator "+", 6⟩,
    ⟨.openGroup "(", 8⟩, ⟨.number 3, 9⟩, ⟨.closeGroup ")", 10⟩]

theorem Sample.tokens_resolve : ∀ token ∈ tokens, Sample.context.Resolves token := by
  simp only [tokens, List.forall_mem_cons]
  refine ⟨⟨negation, rfl, fun x => ⟨_, rfl⟩⟩, trivial, ⟨increment, rfl, fun x => ⟨_, rfl⟩⟩,
    ⟨sum, rfl, fun x y => ⟨_, rfl⟩⟩, trivial, trivial, trivial, List.forall_mem_nil _⟩

theorem evaluateTokens_accepts_sample :
    Settings.standard.Valid ∧ (∀ token ∈ Sample.tokens, Sample.context.Resolves token) ∧
      evaluateTokens Sample.registry Sample.tokens none Settings.standard = .ok 2 ∧
      Sample.context.Derives Sample.tokens :=
  ⟨⟨{}, rfl⟩, Sample.tokens_resolve, rfl,
    (evaluateTokens_accepts Sample.registry Settings.standard none ⟨{}, rfl⟩ Sample.tokens
      Sample.tokens_resolve).1.mp ⟨2, rfl⟩⟩

/-- A one and, with no operator between, the least number that has no text. -/
def Sample.longNumber : List (Token Int) :=
  [⟨.number 1, 0⟩, ⟨.number (10 ^ Numeral.digitLimit), 2⟩]

/-- Two numbers without an operator are refused as an expression only if the second one can be
written. -/
theorem longNumber_not_refused :
    Settings.standard.Valid ∧ (∀ token ∈ Sample.longNumber, Sample.context.Resolves token) ∧
      ¬ Sample.context.Derives Sample.longNumber ∧
      evaluateTokens Sample.registry Sample.longNumber none Settings.standard =
        .error NumberSystem.tooLong ∧
      ¬ ∃ error, evaluateTokens Sample.registry Sample.longNumber none Settings.standard =
        .error (.described error) := by
  have resolved : ∀ token ∈ Sample.longNumber, Sample.context.Resolves token := by
    simp [Sample.longNumber, Scope.Resolves]
  have unwritten : Numeral.write? (10 ^ Numeral.digitLimit) = none := by
    rw [Numeral.write?_eq_none_iff, Int.natAbs_pow]
    exact Nat.pow_le_pow_left (by decide) _
  have misplaced : Sample.context.Misplaced Sample.longNumber NumberSystem.tooLong := by
    refine ⟨[⟨.number 1, 0⟩], _, 2, [], ⟨[1], [], false, 0⟩, rfl, rfl, rfl, ?_⟩
    show NumberSystem.writeInt (10 ^ Numeral.digitLimit) = .error NumberSystem.tooLong
    rw [NumberSystem.writeInt, unwritten]
  have fails : evaluateTokens Sample.registry Sample.longNumber none Settings.standard =
      .error NumberSystem.tooLong := by
    show (Sample.context.steps none Sample.longNumber initial >>= Sample.context.finish) = _
    rw [misplaced.steps_eq]
    rfl
  refine ⟨⟨{}, rfl⟩, resolved, ?_, fails, ?_⟩
  · intro derives
    obtain ⟨value, evaluated⟩ := value_of_derives ⟨{}, rfl⟩ resolved derives
    cases fails.symm.trans evaluated
  · rintro ⟨error, described⟩
    cases fails.symm.trans described

end Reckoner.Evaluation

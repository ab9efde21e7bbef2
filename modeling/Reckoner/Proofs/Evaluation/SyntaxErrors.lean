import Reckoner.Proofs.Evaluation.Errors

/-! Where an expression is refused. A token that is out of place is where its error is. A symbol that does
not fit what is open is reported at the first of the operators that it makes run, and at its own place if
there are none. -/

namespace Reckoner.Evaluation

variable {α : Type} {scope : Scope α}

/-- When the operators of the innermost group are applied, errors are reported at the first one of them. -/
theorem lastPlace_inside (pending : List (Pending α)) (position : Nat) :
    inside pending = [] ∧ lastPlace (inside pending) position = position ∨
      ∃ later operator place, inside pending = later ++ [.operator operator place] ∧
        lastPlace (inside pending) position = place := by
  rcases List.eq_nil_or_concat (inside pending) with none | ⟨later, entry, same⟩
  · exact .inl ⟨none, by rw [none]; rfl⟩
  · have member : entry ∈ inside pending := by simp [same]
    have isDue := List.all_eq_true.mp List.all_takeWhile entry member
    cases entry with
    | group group => cases isDue
    | operator operator place =>
      refine .inr ⟨later, operator, place, by simpa using same, ?_⟩
      simp [same, lastPlace, Pending.place]

/-- Where an error points that refuses tokens. A token that is out of place has the place of the error. So
has a symbol that does not fit what is open, unless operators of the innermost group wait when it is read;
then the error is at the one that is applied last, which is the first of them. An opener that has no pair
or is not closed has its place as well, and a missing end is behind the source. -/
def Scope.Points (scope : Scope α) (tokens : List (Token α)) (error : EvalError) : Prop :=
  (∃ consumed token rest state, tokens = consumed ++ token :: rest ∧
    scope.steps none consumed initial = .ok state ∧
    (scope.Rejects consumed.getLast? rest.head? state token error.message ∧
        error.position = some (token.position : Int) ∨
      scope.Unfit token.lexeme (around state.pending) error.message ∧
        (inside state.pending = [] ∧ error.position = some (token.position : Int) ∨
          ∃ later operator, ∃ place : Nat,
            inside state.pending = later ++ [.operator operator place] ∧
            error.position = some (place : Int)) ∨
      ∃ symbol group below, token.lexeme = .closeGroup symbol ∧
        around state.pending = .group group :: below ∧
        scope.settings.closingText? group.symbol = none ∧
        error.message = "'" ++ group.symbol ++ "' is not a group symbol" ∧
        ⟨.openGroup group.symbol, group.position⟩ ∈ consumed ∧
        error.position = some (group.position : Int))) ∨
  ∃ state, scope.steps none tokens initial = .ok state ∧
    (state.expectsOperand = true ∧ error.message = "Unexpected end of expression" ∧
        error.position = some (scope.endPlace state : Int) ∨
      ∃ group below, state.expectsOperand = false ∧ around state.pending = .group group :: below ∧
        error.message = "Unclosed '" ++ group.symbol ++ "'" ∧
        ⟨.openGroup group.symbol, group.position⟩ ∈ tokens ∧
        error.position = some (group.position : Int))

theorem Scope.Malformed.points {tokens : List (Token α)} {message : String} {place : Nat}
    (malformed : scope.Malformed tokens message place) :
    scope.Points tokens ⟨.invalidExpression, message, some place, scope.source⟩ := by
  cases malformed with
  | @rejected consumed token rest state _ split read rejects =>
    exact .inl ⟨consumed, token, rest, state, split, read, .inl ⟨rejects, rfl⟩⟩
  | @unfit consumed token rest state _ split read unfit =>
    refine .inl ⟨consumed, token, rest, state, split, read, .inr (.inl ⟨unfit, ?_⟩)⟩
    rcases lastPlace_inside state.pending token.position with ⟨none, same⟩ |
      ⟨later, operator, place, waiting, same⟩
    · exact .inl ⟨none, by rw [same]⟩
    · exact .inr ⟨later, operator, place, waiting, by rw [same]⟩
  | @unpaired consumed symbol place rest state group below split read open_ opener unpaired =>
    exact .inl ⟨consumed, _, rest, state, split, read,
      .inr (.inr ⟨symbol, group, below, rfl, open_, unpaired, rfl, opener, rfl⟩)⟩
  | @unfinished state read expects => exact .inr ⟨state, read, .inl ⟨expects, rfl, rfl⟩⟩
  | @unclosed state group below read complete open_ opener =>
    exact .inr ⟨state, read, .inr ⟨group, below, complete, open_, rfl, opener, rfl⟩⟩

/-- An error that refuses an expression points to a token, to an opener or behind the source, unless it
comes from an implementation. -/
theorem syntaxError_points {registry : Registry α} {settings : Settings} {source : Option String}
    {tokens : List (Token α)} {error : EvalError}
    (failed : evaluateTokens registry tokens source settings = .error (.described error))
    (refused : error.kind = .invalidExpression) :
    Scope.Throws ⟨registry, settings, source⟩ tokens (.described error) ∨
      Scope.Points ⟨registry, settings, source⟩ tokens error := by
  cases failure_of_evaluateTokens failed with
  | empty none => cases refused
  | unknown split read unknown => exact absurd refused unknown.kind_ne
  | thrown throws => exact .inl throws
  | malformed malformed => exact .inr malformed.points

namespace Sample

/-- `2+3)` -/
def overclosed : List (Token Int) :=
  [⟨.number 2, 0⟩, ⟨.binaryOperator "+", 1⟩, ⟨.number 3, 2⟩, ⟨.closeGroup ")", 3⟩]

def unmatched : EvalError := ⟨.invalidExpression, "Unmatched ')'", some 1, some "2+3)"⟩

end Sample

open Sample in
theorem syntaxError_points_sample :
    evaluateTokens registry overclosed (some "2+3)") Settings.standard = .error (.described unmatched) ∧
      (Scope.Throws ⟨registry, Settings.standard, some "2+3)"⟩ overclosed (.described unmatched) ∨
        Scope.Points ⟨registry, Settings.standard, some "2+3)"⟩ overclosed unmatched) := by
  have failed : evaluateTokens registry overclosed (some "2+3)") Settings.standard =
    .error (.described unmatched) := rfl
  exact ⟨failed, syntaxError_points failed rfl⟩

open Sample in
/-- The closing symbol that matches nothing is the fourth character, but the error is at the sum. -/
theorem unmatched_at_operator :
    ∃ error, evaluateTokens registry overclosed (some "2+3)") Settings.standard =
        .error (.described error) ∧
      error.kind = .invalidExpression ∧ error.message = "Unmatched ')'" ∧
      error.position = some 1 ∧ error.position ≠ some 3 :=
  ⟨unmatched, rfl, rfl, rfl, rfl, by decide⟩

end Reckoner.Evaluation

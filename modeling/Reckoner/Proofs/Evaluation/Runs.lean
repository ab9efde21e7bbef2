import Reckoner.Proofs.Evaluation.Steps
import Reckoner.Proofs.Evaluation.Transitions

/-! Runs of the evaluation: the states that the tokens read so far lead to, and the step at which a run
fails. -/

namespace Reckoner.Evaluation

variable {α : Type} {scope : Scope α}

/-- The tokens that are read in one step: the name of a function with its opener, else a single
token. -/
def taken (token : Token α) (following : Option (Token α)) : List (Token α) :=
  if token.lexeme.kind = .functionCall then token :: following.toList else [token]

/-- The states that reading some tokens from the beginning leads to. -/
inductive Reached (scope : Scope α) : List (Token α) → State α → Prop where
  | initial : Reached scope [] initial
  | next {consumed state token following next} (reached : Reached scope consumed state)
      (read : scope.step consumed.getLast? token following state = .ok next) :
    Reached scope (consumed ++ taken token following) next

theorem getLast?_taken (consumed : List (Token α)) (token : Token α) (following : Option (Token α)) :
    (consumed ++ taken token following).getLast? = (taken token following).getLast? := by
  have nonempty : taken token following ≠ [] := by
    unfold taken
    split <;> simp
  simp [List.getLast?_append, List.getLast?_eq_some_getLast nonempty]

namespace Scope

theorem steps_taken (token : Token α) (rest : List (Token α)) :
    ∃ others, taken token rest.head? ++ others = token :: rest ∧ others.length ≤ rest.length ∧
      ∀ previous state, scope.steps previous (token :: rest) state =
        scope.step previous token rest.head? state >>=
          scope.steps (taken token rest.head?).getLast? others := by
  by_cases call : token.lexeme.kind = .functionCall
  · cases rest with
    | nil =>
      refine ⟨[], by simp [taken, call], Nat.le_refl _, ?_⟩
      intro previous state
      rw [steps, List.head?_nil]
      cases scope.step previous token none state <;> rfl
    | cons opener rest =>
      refine ⟨rest, by simp [taken, call], Nat.le_succ _, ?_⟩
      intro previous state
      simp [steps_call call, taken, call]
  · refine ⟨rest, by simp [taken, call], Nat.le_refl _, ?_⟩
    intro previous state
    simp [steps_cons call, taken, call]

/-- A run reaches its last state, or stops at a step that fails. -/
theorem steps_cases {consumed : List (Token α)} {state : State α}
    (reached : Reached scope consumed state) (tokens : List (Token α)) :
    (∃ final, scope.steps consumed.getLast? tokens state = .ok final ∧
      Reached scope (consumed ++ tokens) final) ∨
    ∃ fault before token rest stopped,
      scope.steps consumed.getLast? tokens state = .error fault ∧
        consumed ++ tokens = before ++ token :: rest ∧ Reached scope before stopped ∧
        scope.step before.getLast? token rest.head? stopped = .error fault := by
  match tokens with
  | [] => exact .inl ⟨state, rfl, by simpa using reached⟩
  | token :: rest =>
    obtain ⟨others, split, shorter, runs⟩ := scope.steps_taken token rest
    rw [runs]
    cases stepped : scope.step consumed.getLast? token rest.head? state with
    | error fault => exact .inr ⟨fault, consumed, token, rest, state, rfl, rfl, reached, stepped⟩
    | ok next =>
      have further := steps_cases (.next reached stepped) others
      rw [getLast?_taken, List.append_assoc, split] at further
      exact further
termination_by tokens.length
decreasing_by exact Nat.lt_succ_of_le shorter

/-- What comes behind a token matters only for the names of functions and for errors. -/
theorem step_following {previous following : Option (Token α)} {token : Token α}
    {state next : State α} (other : token.lexeme.kind ≠ .functionCall)
    (read : scope.step previous token following state = .ok next) (behind : Option (Token α)) :
    scope.step previous token behind state = .ok next := by
  obtain ⟨lexeme, place⟩ := token
  cases lexeme with
  | functionCall name => exact absurd rfl other
  | identifier name =>
    simp only [step, identifier] at read ⊢
    split at read
    · exact read
    · exact read
    · split at read <;> cases read
  | _ => exact read

theorem steps_of_reached {consumed : List (Token α)} {state : State α}
    (reached : Reached scope consumed state) (tokens : List (Token α)) :
    scope.steps none (consumed ++ tokens) initial = scope.steps consumed.getLast? tokens state := by
  induction reached generalizing tokens with
  | initial => rfl
  | @next consumed state token following next _ read ih =>
    rw [List.append_assoc, ih, getLast?_taken]
    by_cases call : token.lexeme.kind = .functionCall
    · cases following with
      | none =>
        cases step_eq_ok read with
        | callee callee opener => cases opener
        | _ => cases call
      | some opener => simp [taken, call, steps_call call, read, ok_bind]
    · simp [taken, call, steps_cons call, step_following call read, ok_bind]

theorem reached_iff {consumed : List (Token α)} {state : State α} :
    Reached scope consumed state ↔ scope.steps none consumed initial = .ok state := by
  constructor
  · intro reached
    simpa [steps] using scope.steps_of_reached reached []
  · intro read
    rcases scope.steps_cases .initial consumed with ⟨final, same, reached⟩ | failed
    · cases same.symm.trans read
      exact reached
    · obtain ⟨fault, _, _, _, _, failed, _⟩ := failed
      cases failed.symm.trans read

end Scope

end Reckoner.Evaluation

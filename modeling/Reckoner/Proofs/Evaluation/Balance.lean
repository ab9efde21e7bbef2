import Reckoner.Proofs.Evaluation.Prefixes
import Reckoner.Proofs.Evaluation.Reductions

/-! The two stacks of an evaluation fit together. Every binary operator that waits has its left operand on
the stack, every open call the values of its complete arguments, and where an operand is complete it is
the only one on top of these. So all that is applied has its operands, and has them within the innermost
argument. -/

namespace Reckoner.Evaluation

variable {α : Type} {scope : Scope α}

/-- What an operator needs. -/
def Operator.arity : Operator α → Nat
  | .unary _ => 1
  | .binary _ => 2

/-- What an operator answers for the operands on top, the last one in front. -/
inductive Operator.Answers : Operator α → List α → Outcome α → Prop where
  | unary (operator : UnaryOperator α) (x : α) (rest : List α) :
    Answers (.unary operator) (x :: rest) (operator.run x)
  | binary (operator : BinaryOperator α) (x y : α) (rest : List α) :
    Answers (.binary operator) (y :: x :: rest) (operator.run x y)

/-- Whether a run went through these stacks on its way, with an operand to follow. -/
def Scope.Began (scope : Scope α) (consumed : List (Token α)) (pending : List (Pending α))
    (operands : List α) : Prop :=
  ∃ earlier place, earlier <+: consumed ∧ Reached scope earlier ⟨operands, pending, true, place⟩

theorem Scope.Began.mono {consumed longer : List (Token α)} {pending : List (Pending α)}
    {operands : List α} (began : scope.Began consumed pending operands)
    (extended : consumed <+: longer) : scope.Began longer pending operands := by
  obtain ⟨earlier, place, before, reached⟩ := began
  exact ⟨earlier, place, before.trans extended, reached⟩

/-- What waits and the operands that belong to it. A group has the values of its complete arguments, and
its innermost argument began with these stacks. -/
inductive Balanced (scope : Scope α) (consumed : List (Token α)) : List (Pending α) → List α → Prop where
  | bottom : Balanced scope consumed [] []
  | unary {operator place pending operands} (below : Balanced scope consumed pending operands) :
    Balanced scope consumed (.operator (.unary operator) place :: pending) operands
  | binary {operator place pending operands} (left : α)
      (below : Balanced scope consumed pending operands) :
    Balanced scope consumed (.operator (.binary operator) place :: pending) (left :: operands)
  | group {group pending operands} (arguments : List α) (below : Balanced scope consumed pending operands)
      (base : group.base = operands.length) (counted : arguments.length = group.separators)
      (plain : group.function = none → arguments = [])
      (began : scope.Began consumed (.group group :: pending) (arguments ++ operands)) :
    Balanced scope consumed (.group group :: pending) (arguments ++ operands)

/-- A state with balanced stacks. A complete operand stands on top of all that belongs to what waits. -/
inductive Consistent (scope : Scope α) (consumed : List (Token α)) : State α → Prop where
  | expecting {operands pending position} (balanced : Balanced scope consumed pending operands) :
    Consistent scope consumed ⟨operands, pending, true, position⟩
  | complete {operands pending position} (value : α)
      (balanced : Balanced scope consumed pending operands) :
    Consistent scope consumed ⟨value :: operands, pending, false, position⟩

namespace Balanced

variable {consumed longer : List (Token α)} {pending left : List (Pending α)} {operands rest : List α}
  {operator : Operator α} {place : Nat} {due : Operator α → Bool}

theorem mono (balanced : Balanced scope consumed pending operands) (extended : consumed <+: longer) :
    Balanced scope longer pending operands := by
  induction balanced with
  | bottom => exact .bottom
  | unary _ ih => exact .unary ih
  | binary left _ ih => exact .binary left ih
  | group arguments _ base counted plain began ih =>
    exact .group arguments ih base counted plain (began.mono extended)

/-- The operators of the innermost argument have their left operands on top of those that stood there
when it began. -/
theorem began (balanced : Balanced scope consumed pending operands) :
    ∃ own kept, operands = own ++ kept ∧ scope.Began consumed (around pending) kept := by
  induction balanced with
  | bottom => exact ⟨[], [], rfl, [], 0, List.nil_prefix, .initial⟩
  | unary _ ih => exact ih
  | binary left _ ih =>
    obtain ⟨own, kept, rfl, began⟩ := ih
    exact ⟨left :: own, kept, rfl, began⟩
  | @group _ _ below arguments _ _ _ _ began _ => exact ⟨[], arguments ++ below, rfl, began⟩

/-- An operator on top of what waits has its operands, and leaves one in their place. -/
theorem apply_eq (balanced : Balanced scope consumed (.operator operator place :: pending) operands)
    (value : α) :
    ∃ answer below, operator.Answers (value :: operands) answer ∧
      Balanced scope consumed pending below ∧
      scope.apply operator place (value :: operands) =
        (scope.run place answer).map fun result => result :: below := by
  cases balanced with
  | unary below =>
    refine ⟨_, _, .unary _ value operands, below, ?_⟩
    simp only [Scope.apply]
    cases scope.run place _ <;> rfl
  | binary x below =>
    refine ⟨_, _, .binary _ x value _, below, ?_⟩
    simp only [Scope.apply]
    cases scope.run place _ <;> rfl

/-- An operator that is applied leaves one operand on top of balanced stacks. -/
theorem of_apply (balanced : Balanced scope consumed (.operator operator place :: pending) operands)
    {value : α} {results : List α}
    (applied : scope.apply operator place (value :: operands) = .ok results) :
    ∃ result below, results = result :: below ∧ Balanced scope consumed pending below := by
  obtain ⟨answer, below, _, further, same⟩ := balanced.apply_eq value
  rw [same] at applied
  cases answered : scope.run place answer with
  | ok result =>
    rw [answered] at applied
    cases applied
    exact ⟨result, below, rfl, further⟩
  | error fault =>
    rw [answered] at applied
    cases applied

theorem reduces (reduces : scope.Reduces due pending operands left rest) {value : α}
    {below : List α} (split : operands = value :: below)
    (balanced : Balanced scope consumed pending below) :
    ∃ result lower, rest = result :: lower ∧ Balanced scope consumed left lower := by
  induction reduces generalizing value below with
  | refl => exact ⟨value, below, split, balanced⟩
  | apply isDue applied _ ih =>
    subst split
    obtain ⟨result, lower, split, further⟩ := balanced.of_apply applied
    exact ih split further

theorem of_reduce {position last : Nat} {value : α}
    (balanced : Balanced scope consumed pending operands)
    (reduced : scope.reduce due pending (value :: operands) position = .ok (left, rest, last)) :
    ∃ result lower, rest = result :: lower ∧ Balanced scope consumed left lower :=
  reduces (Scope.reduce_eq_ok reduced).1 rfl balanced

/-- The operands of an operator whose turn it is are on top of those that stood there when the innermost
argument began. -/
theorem arity_le (balanced : Balanced scope consumed (.operator operator place :: pending) operands)
    (value : α) :
    ∃ own kept, value :: operands = own ++ kept ∧ operator.arity ≤ own.length ∧
      scope.Began consumed (around pending) kept := by
  cases balanced with
  | unary below =>
    obtain ⟨own, kept, rfl, began⟩ := below.began
    exact ⟨value :: own, kept, rfl, by simp [Operator.arity], began⟩
  | binary left below =>
    obtain ⟨own, kept, rfl, began⟩ := below.began
    exact ⟨value :: left :: own, kept, rfl, by simp [Operator.arity], began⟩

end Balanced

theorem Consistent.mono {consumed longer : List (Token α)} {state : State α}
    (consistent : Consistent scope consumed state) (extended : consumed <+: longer) :
    Consistent scope longer state := by
  cases consistent with
  | expecting balanced => exact .expecting (balanced.mono extended)
  | complete value balanced => exact .complete value (balanced.mono extended)

/-! ### Runs -/

theorem Started.eq_zero {count : Nat} {arguments : List (Token α)}
    (started : Started scope count arguments) (none : arguments = []) : count = 0 := by
  cases started with
  | none => rfl
  | more _ argument separator place => simp at none

/-- The call that a closing symbol behind its opener ends has no complete argument. -/
theorem Reached.separators_eq_zero {consumed : List (Token α)} {operands : List α}
    {pending : List (Pending α)} {group : Group α} {position : Nat}
    (reached : Reached scope consumed ⟨operands, .group group :: pending, true, position⟩)
    {place : Nat}
    (empty : Scope.closesEmptyCall ⟨operands, .group group :: pending, true, place⟩
      consumed.getLast? = true) : group.separators = 0 := by
  obtain ⟨before, body, rfl, opened, waiting⟩ := reached.reading
  have last := opener_of_closesEmptyCall empty
  have bare : body = [] := eq_nil_of_opener waiting.getLast?_kind last
  subst bare
  simp only [openGroups] at opened
  cases opened with
  | group outer waits => rfl
  | @call _ before head symbol openedAt base count arguments outer waits callee opens started =>
    have last : ∃ token ∈ ((before ++ head ++ [callee.token, ⟨.openGroup symbol, openedAt⟩]) ++
        arguments).getLast?, token.lexeme.kind = .openGroup := by simpa using last
    exact started.eq_zero (eq_nil_of_opener started.getLast?_kind last)

/-- The innermost group that a closing symbol finds has the operands of its arguments on top of those
that stood there when it was opened. -/
theorem Consistent.innermost {consumed : List (Token α)} {operands rest : List α}
    {pending below : List (Pending α)} {expects : Bool} {position place last : Nat} {group : Group α}
    {previous : Option (Token α)}
    (consistent : Consistent scope consumed ⟨operands, pending, expects, position⟩)
    (empty : expects = true → Scope.closesEmptyCall ⟨operands, pending, true, place⟩ previous = true)
    (reduced : scope.reduce (fun _ => true) pending operands place =
      .ok (.group group :: below, rest, last)) :
    ∃ own kept, rest = own ++ kept ∧ group.base = kept.length ∧ Balanced scope consumed below kept ∧
      own.length = group.separators + if expects then 0 else 1 := by
  cases consistent with
  | expecting balanced =>
    match pending, empty rfl with
    | .group top :: others, _ =>
      cases reduced
      cases balanced with
      | @group _ _ kept arguments below base counted _ _ =>
        exact ⟨arguments, kept, rfl, base, below, counted⟩
  | complete value balanced =>
    obtain ⟨result, lower, rfl, inner⟩ := balanced.of_reduce reduced
    cases inner with
    | @group _ _ kept arguments below base counted _ _ =>
      exact ⟨result :: arguments, kept, rfl, base, below, by simp [counted]⟩

theorem Transition.consistent {consumed : List (Token α)} {previous following : Option (Token α)}
    {token : Token α} {state next : State α}
    (moved : Transition scope previous following token state next)
    (consistent : Consistent scope consumed state) (reached : Reached scope consumed next) :
    Consistent scope consumed next := by
  -- Behind an opener or a separator the argument begins with the very stacks that are reached.
  have began {operands pending position} (same : next = ⟨operands, pending, true, position⟩) :
      scope.Began consumed pending operands :=
    ⟨consumed, position, List.prefix_refl _, same ▸ reached⟩
  cases moved with
  | number =>
    obtain ⟨balanced⟩ := consistent
    exact .complete _ balanced
  | identifier found =>
    obtain ⟨balanced⟩ := consistent
    exact .complete _ balanced
  | callee callee opener opens =>
    obtain ⟨balanced⟩ := consistent
    exact .expecting (.group [] balanced rfl rfl (fun _ => rfl) (began rfl))
  | leading leading =>
    obtain ⟨balanced⟩ := consistent
    exact .expecting (.unary balanced)
  | @trailing operands pending position rest left place results trailing reduced applied =>
    obtain _ | ⟨value, balanced⟩ := consistent
    obtain ⟨result, lower, rfl, below⟩ := balanced.of_reduce reduced
    have waiting : Balanced scope consumed (.operator (.unary trailing.operator) place :: left) lower :=
      .unary below
    obtain ⟨answer, _, rfl, balanced⟩ := waiting.of_apply applied
    exact .complete answer balanced
  | joining joining reduced =>
    obtain _ | ⟨value, balanced⟩ := consistent
    obtain ⟨result, lower, rfl, below⟩ := balanced.of_reduce reduced
    exact .expecting (.binary result below)
  | opener =>
    obtain ⟨balanced⟩ := consistent
    exact .expecting (.group [] balanced rfl rfl (fun _ => rfl) (began rfl))
  | separator reduced called =>
    obtain _ | ⟨value, balanced⟩ := consistent
    obtain ⟨result, lower, rfl, inner⟩ := balanced.of_reduce reduced
    cases inner with
    | @group _ _ kept arguments below base counted plain _ =>
      refine .expecting (.group (result :: arguments) below base ?_ ?_ (began rfl))
      · simp [counted]
      · intro unnamed
        rw [called] at unnamed
        cases unnamed
  | group reduced plain matching =>
    obtain _ | ⟨value, balanced⟩ := consistent
    obtain ⟨result, lower, rfl, inner⟩ := balanced.of_reduce reduced
    cases inner with
    | group arguments below _ _ unnamed _ =>
      rw [unnamed plain, List.nil_append]
      exact .complete result below
  | call reduced called matching empty counted given =>
    obtain ⟨own, kept, rfl, base, below, _⟩ := consistent.innermost empty reduced
    rw [base, List.length_append, Nat.add_sub_cancel, List.drop_left]
    exact .complete _ below

/-- The stacks of every state that a run reaches are balanced. -/
theorem Reached.consistent {consumed : List (Token α)} {state : State α}
    (reached : Reached scope consumed state) : Consistent scope consumed state := by
  induction reached with
  | initial => exact .expecting .bottom
  | next before read ih =>
    exact (Scope.step_eq_ok read).consistent (ih.mono (List.prefix_append _ _)) (.next before read)

end Reckoner.Evaluation

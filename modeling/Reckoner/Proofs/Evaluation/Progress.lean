import Reckoner.Proofs.Evaluation.Frames

/-! Progress: where no implementation fails, precedence climbing comes to a value. -/

namespace Reckoner.Evaluation

variable {α : Type} {scope : Scope α}

/-- Whether an operator gives a value for all operands. -/
def Operator.Total : Operator α → Prop
  | .unary operator => ∀ x, ∃ value, operator.run x = .ok value
  | .binary operator => ∀ x y, ∃ value, operator.run x y = .ok value

/-- Whether a call of a function with any arguments gives a value. -/
def NamedFunction.Total (function : NamedFunction α) : Prop :=
  ∀ place arguments, ∃ value, function.call place arguments = .ok value

/-- Whether the name of a token stands for a value or for an implementation that never fails. -/
def Scope.Resolves (scope : Scope α) (token : Token α) : Prop :=
  match token.lexeme with
  | .identifier name => ∃ value, scope.meaning name = .ok value
  | .functionCall name => ∃ function, scope.registry.getFunction? name = some function ∧
    NamedFunction.Total function
  | .unaryOperator name => ∃ operator, scope.registry.getUnary? name = some operator ∧
    (Operator.unary operator).Total
  | .binaryOperator name => ∃ operator, scope.registry.getBinary? name = some operator ∧
    (Operator.binary operator).Total
  | .number _ | .openGroup _ | .closeGroup _ | .separator _ => True

theorem Scope.Resolves.supplies {token : Token α} (resolves : scope.Resolves token) :
    scope.Supplies Operator.Total NamedFunction.Total token := by
  obtain ⟨lexeme, place⟩ := token
  cases lexeme with
  | functionCall name =>
    obtain ⟨function, found, total⟩ := resolves
    intro other registered
    cases found.symm.trans registered
    exact total
  | unaryOperator name =>
    obtain ⟨operator, found, total⟩ := resolves
    intro other registered
    cases found.symm.trans registered
    exact total
  | binaryOperator name =>
    obtain ⟨operator, found, total⟩ := resolves
    intro other registered
    cases found.symm.trans registered
    exact total
  | _ => trivial

/-! ### Phrases have values -/

/-- Whether nothing fails in an operand. -/
structure Item.Total (item : Item α) : Prop where
  leading : ∀ operator ∈ item.leading, (Operator.unary operator).Total
  primary : ∃ value, item.primary = .ok value
  trailing : ∀ operator ∈ item.trailing, (Operator.unary operator).Total

def Tail.Total (tail : Tail α) : Prop :=
  ∀ entry ∈ tail, (Operator.binary entry.1).Total ∧ entry.2.Total

theorem Frame.run_total {frame : Frame α} (total : frame.operator.Total) (x : α) :
    ∃ value, frame.run x = .ok value := by
  cases frame with
  | leading operator place => exact total x
  | joining left operator place => exact total left x

theorem proceed_popped {frame : Frame α} {frames : List (Frame α)} {value : α}
    {remainder : Remainder α} (total : frame.operator.Total)
    (left : extended (some frame.operator) value remainder = .ok (value, remainder))
    (later : ∀ value, ∃ result, proceed frames value remainder = .ok result) :
    ∃ result, proceed (frame :: frames) value remainder = .ok result := by
  obtain ⟨next, given⟩ := Frame.run_total total value
  rw [proceed_pop left, given]
  exact later next

mutual

/-- Climbing enters an operand and comes to a value if nothing on the way fails. -/
theorem enter_total (frames : List (Frame α)) (item : Item α) (tail : Tail α)
    (waiting : ∀ frame ∈ frames, frame.operator.Total) (first : item.Total) (others : tail.Total) :
    ∃ value, enter frames item tail = .ok value := by
  match item with
  | ⟨[], primary, trailing⟩ =>
    obtain ⟨value, given⟩ := first.primary
    rw [enter_primary, show primary = .ok value from given]
    exact proceed_total frames value ⟨trailing, tail⟩ waiting first.trailing others
  | ⟨operator :: leading, primary, trailing⟩ =>
    rw [enter_leading frames operator 0]
    have total : (Operator.unary operator).Total := first.leading operator List.mem_cons_self
    refine enter_total _ _ tail ?_ ⟨?_, first.primary, first.trailing⟩ others
    · exact List.forall_mem_cons.mpr ⟨total, waiting⟩
    · exact fun other member => first.leading other (List.mem_cons_of_mem _ member)
termination_by (Remainder.size ⟨item.trailing, tail⟩, item.leading.length + 1, 0)
decreasing_by
  · exact .right _ (.left _ _ (Nat.succ_pos _))
  · exact .right _ (.left _ _ (Nat.lt_succ_self _))

theorem proceed_total (frames : List (Frame α)) (value : α) (remainder : Remainder α)
    (waiting : ∀ frame ∈ frames, frame.operator.Total)
    (trailing : ∀ operator ∈ remainder.trailing, (Operator.unary operator).Total)
    (others : Tail.Total remainder.tail) :
    ∃ result, proceed frames value remainder = .ok result := by
  match remainder with
  | ⟨operator :: rest, tail⟩ =>
    cases taken : (level frames).all (Operator.takesIn operator) with
    | true =>
      obtain ⟨next, given⟩ := trailing operator List.mem_cons_self value
      rw [proceed_trailing taken, given]
      exact proceed_total frames next ⟨rest, tail⟩ waiting
        (fun other member => trailing other (List.mem_cons_of_mem _ member)) others
    | false =>
      match frames, taken with
      | frame :: frames, taken =>
        refine proceed_popped (waiting frame List.mem_cons_self) ?_ fun next =>
          proceed_total frames next ⟨operator :: rest, tail⟩
            (fun other member => waiting other (List.mem_cons_of_mem _ member)) trailing others
        rw [extended_trailing, if_neg (by simpa [level] using taken)]
  | ⟨[], (operator, item) :: tail⟩ =>
    cases taken : (level frames).all (Operator.extendsOver operator) with
    | true =>
      obtain ⟨total, first⟩ := others (operator, item) List.mem_cons_self
      rw [proceed_tail taken value 0]
      exact enter_total _ item tail (List.forall_mem_cons.mpr ⟨total, waiting⟩) first
        fun other member => others other (List.mem_cons_of_mem _ member)
    | false =>
      match frames, taken with
      | frame :: frames, taken =>
        refine proceed_popped (waiting frame List.mem_cons_self) ?_ fun next =>
          proceed_total frames next ⟨[], (operator, item) :: tail⟩
            (fun other member => waiting other (List.mem_cons_of_mem _ member)) trailing others
        rw [extended_tail, if_neg (by simpa [level] using taken)]
  | ⟨[], []⟩ =>
    match frames with
    | [] => exact ⟨value, proceed_nil value⟩
    | frame :: frames =>
      exact proceed_popped (waiting frame List.mem_cons_self) (extended_end _ value) fun next =>
        proceed_total frames next ⟨[], []⟩
          (fun other member => waiting other (List.mem_cons_of_mem _ member)) trailing others
termination_by (remainder.size, 0, frames.length)
decreasing_by
  · exact .right _ (.right _ (Nat.lt_succ_self _))
  · exact .left _ _ (Remainder.size_trailing operator rest tail)
  · exact .right _ (.right _ (Nat.lt_succ_self _))
  · exact .left _ _ (Remainder.size_tail operator item tail)
  · exact .right _ (.right _ (Nat.lt_succ_self _))

end

theorem Row.evaluate_total {row : Row α} (first : row.first.Total) (others : row.tail.Total) :
    ∃ value, row.evaluate = .ok value := by
  rw [Row.evaluate_eq_enter]
  exact enter_total [] _ _ (fun frame member => nomatch member) first others

mutual

theorem Phrase.row_total (phrase : Phrase scope)
    (resolved : ∀ token ∈ phrase.tokens, scope.Resolves token) :
    phrase.row.first.Total ∧ phrase.row.tail.Total := by
  match phrase with
  | .last operand =>
    exact ⟨operand.item_total resolved, fun entry member => nomatch member⟩
  | .joined operand joining rest =>
    simp only [Phrase.tokens, List.forall_mem_append, List.forall_mem_cons] at resolved
    obtain ⟨first, second, others⟩ := resolved
    obtain ⟨next, further⟩ := rest.row_total others
    exact ⟨operand.item_total first,
      List.forall_mem_cons.mpr
        ⟨⟨second.supplies joining.operator joining.registered, next⟩, further⟩⟩

theorem Operand.item_total (operand : Operand scope)
    (resolved : ∀ token ∈ operand.tokens, scope.Resolves token) : operand.item.Total := by
  match operand with
  | .mk leading primary trailing =>
    simp only [Operand.tokens, List.forall_mem_append, List.forall_mem_map] at resolved
    obtain ⟨before, inside, behind⟩ := resolved
    refine ⟨?_, primary.evaluate_total inside, ?_⟩
    · exact List.forall_mem_map.mpr fun leading member =>
        (before leading member).supplies leading.operator leading.registered
    · exact List.forall_mem_map.mpr fun trailing member =>
        (behind trailing member).supplies trailing.operator trailing.registered

theorem Primary.evaluate_total (primary : Primary scope)
    (resolved : ∀ token ∈ primary.tokens, scope.Resolves token) :
    ∃ value, primary.evaluate = .ok value := by
  match primary with
  | .number value place => exact ⟨value, rfl⟩
  | .identifier name place => exact resolved _ List.mem_cons_self
  | .group bracket inner =>
    simp only [Primary.tokens, List.forall_mem_cons, List.forall_mem_append] at resolved
    obtain ⟨first, others⟩ := inner.row_total resolved.2.1
    exact Row.evaluate_total first others
  | .emptyCall callee bracket callable =>
    have resolves : scope.Resolves callee.token := resolved _ List.mem_cons_self
    obtain ⟨value, given⟩ := resolves.supplies callee.function callee.registered bracket.closedAt []
    exact ⟨value, by rw [Primary.evaluate, given]; rfl⟩
  | .call callee bracket callable arguments =>
    simp only [Primary.tokens, List.forall_mem_cons, List.forall_mem_append] at resolved
    obtain ⟨values, found⟩ := arguments.evaluate_total resolved.2.2.1
    obtain ⟨value, given⟩ := resolved.1.supplies callee.function callee.registered bracket.closedAt values
    exact ⟨value, by rw [Primary.evaluate, found, ok_bind, given]; rfl⟩

theorem Arguments.evaluate_total (arguments : Arguments scope)
    (resolved : ∀ token ∈ arguments.tokens, scope.Resolves token) :
    ∃ values, arguments.evaluate = .ok values := by
  match arguments with
  | .last argument =>
    obtain ⟨first, others⟩ := argument.row_total resolved
    obtain ⟨value, given⟩ := Row.evaluate_total first others
    exact ⟨[value], by rw [Arguments.evaluate, given]; rfl⟩
  | .more argument separator place rest =>
    simp only [Arguments.tokens, List.forall_mem_append, List.forall_mem_cons] at resolved
    obtain ⟨first, others⟩ := argument.row_total resolved.1
    obtain ⟨value, given⟩ := Row.evaluate_total first others
    obtain ⟨values, found⟩ := rest.evaluate_total resolved.2.2
    exact ⟨value :: values, by rw [Arguments.evaluate, given, ok_bind, found]; rfl⟩

end

theorem Phrase.evaluate_total (phrase : Phrase scope)
    (resolved : ∀ token ∈ phrase.tokens, scope.Resolves token) :
    ∃ value, phrase.evaluate = .ok value := by
  obtain ⟨first, others⟩ := phrase.row_total resolved
  exact Row.evaluate_total first others

end Reckoner.Evaluation

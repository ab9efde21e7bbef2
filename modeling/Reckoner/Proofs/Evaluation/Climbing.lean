import Reckoner.Proofs.Evaluation.Phrase
import Reckoner.Proofs.Outcome

/-! Evaluation of phrases by precedence climbing. The operand of an operator is read by a recursive
call that is told the operator: it goes on as long as what follows binds tighter, and hands the rest
back. Operands are visited from left to right and each implementation is run once. -/

namespace Reckoner.Evaluation

variable {α : Type}

/-- An operand with the outcome of its primary. -/
structure Item (α : Type) where
  leading : List (UnaryOperator α)
  primary : Outcome α
  trailing : List (UnaryOperator α)

/-- Binary operators with the operands on their right. -/
abbrev Tail (α : Type) := List (BinaryOperator α × Item α)

/-- What follows a value: the operators behind it, then the rest of the row. -/
structure Remainder (α : Type) where
  trailing : List (UnaryOperator α)
  tail : Tail α

/-- The number of operators that are to be read from a row. -/
def Tail.size : Tail α → Nat
  | [] => 0
  | entry :: rest => entry.2.trailing.length + 1 + Tail.size rest

def Remainder.size (remainder : Remainder α) : Nat :=
  remainder.trailing.length + Tail.size remainder.tail

theorem Remainder.size_trailing (operator : UnaryOperator α) (trailing : List (UnaryOperator α))
    (tail : Tail α) : Remainder.size ⟨trailing, tail⟩ < Remainder.size ⟨operator :: trailing, tail⟩ := by
  simp only [Remainder.size, List.length_cons]
  omega

theorem Remainder.size_tail (operator : BinaryOperator α) (item : Item α) (tail : Tail α) :
    Remainder.size ⟨item.trailing, tail⟩ < Remainder.size ⟨[], (operator, item) :: tail⟩ := by
  simp only [Remainder.size, Tail.size, List.length_nil]
  omega

/-- A value and what is left behind it, no more than there was before. -/
abbrev Climbed (α : Type) (limit : Nat) :=
  { result : α × Remainder α // result.2.size ≤ limit }

/-- Whether the operand on the right of an operator extends over a following binary operator: always
over one of greater precedence, and over one of equal precedence if the operator is binary and
right-associative. -/
def Operator.extendsOver (next : BinaryOperator α) : Operator α → Bool
  | .unary operator => operator.precedence < next.precedence
  | .binary operator =>
    operator.precedence < next.precedence ||
      (operator.precedence == next.precedence && operator.associativity == .right)

/-- Whether the operand of an operator takes in a postfix operator. It does not if the operator is a
prefix operator of greater precedence: the postfix operator applies to what that one gives. -/
def Operator.takesIn (next : UnaryOperator α) : Operator α → Bool
  | .unary operator => operator.precedence ≤ next.precedence
  | .binary _ => true

mutual

/-- Reads an operand for an operator, or the whole row if there is none. -/
def climb (level : Option (Operator α)) (item : Item α) (tail : Tail α) :
    Outcome (Climbed α (Remainder.size ⟨item.trailing, tail⟩)) :=
  match item with
  | ⟨[], primary, trailing⟩ => do extend level (← primary) ⟨trailing, tail⟩
  | ⟨operator :: leading, primary, trailing⟩ => do
    let ⟨(x, rest), shorter⟩ ← climb (some (.unary operator)) ⟨leading, primary, trailing⟩ tail
    let value ← (operator.run x).mapError Fault.settled
    let ⟨result, shorterStill⟩ ← extend level value rest
    return ⟨result, Nat.le_trans shorterStill shorter⟩
termination_by (Remainder.size ⟨item.trailing, tail⟩, item.leading.length + 1)
decreasing_by
  · exact .right _ (Nat.succ_pos _)
  · exact .right _ (Nat.lt_succ_self _)
  · exact Prod.Lex.right' _ shorter (Nat.succ_pos _)

/-- Goes on behind a value as far as the operator allows. -/
def extend (level : Option (Operator α)) (value : α) (remainder : Remainder α) :
    Outcome (Climbed α remainder.size) :=
  match remainder with
  | ⟨operator :: trailing, tail⟩ =>
    if level.all (Operator.takesIn operator) then do
      let value ← (operator.run value).mapError Fault.settled
      let ⟨result, shorter⟩ ← extend level value ⟨trailing, tail⟩
      return ⟨result, Nat.le_trans shorter (Nat.le_of_lt (Remainder.size_trailing operator trailing tail))⟩
    else return ⟨(value, ⟨operator :: trailing, tail⟩), Nat.le_refl _⟩
  | ⟨[], (operator, item) :: tail⟩ =>
    if level.all (Operator.extendsOver operator) then do
      let ⟨(y, rest), shorter⟩ ← climb (some (.binary operator)) item tail
      let value ← (operator.run value y).mapError Fault.settled
      let ⟨result, shorterStill⟩ ← extend level value rest
      have below := Nat.lt_of_le_of_lt shorter (Remainder.size_tail operator item tail)
      return ⟨result, Nat.le_trans shorterStill (Nat.le_of_lt below)⟩
    else return ⟨(value, ⟨[], (operator, item) :: tail⟩), Nat.le_refl _⟩
  | ⟨[], []⟩ => return ⟨(value, ⟨[], []⟩), Nat.le_refl _⟩
termination_by (remainder.size, 0)
decreasing_by
  · exact .left _ _ (Remainder.size_trailing operator trailing tail)
  · exact .left _ _ (Remainder.size_tail operator item tail)
  · exact .left _ _ (Nat.lt_of_le_of_lt shorter (Remainder.size_tail operator item tail))

end

/-- `climb` without the bound on what is left. -/
def climbed (level : Option (Operator α)) (item : Item α) (tail : Tail α) :
    Outcome (α × Remainder α) :=
  (climb level item tail).map Subtype.val

/-- `extend` without the bound on what is left. -/
def extended (level : Option (Operator α)) (value : α) (remainder : Remainder α) :
    Outcome (α × Remainder α) :=
  (extend level value remainder).map Subtype.val

theorem climbed_primary (level : Option (Operator α)) (primary : Outcome α)
    (trailing : List (UnaryOperator α)) (tail : Tail α) :
    climbed level ⟨[], primary, trailing⟩ tail =
      primary >>= fun value => extended level value ⟨trailing, tail⟩ := by
  cases primary with
  | error fault => simp [climbed, climb, Except.map, bind, Except.bind]
  | ok value => simp [climbed, extended, climb, bind, Except.bind]

theorem climbed_leading (level : Option (Operator α)) (operator : UnaryOperator α)
    (leading trailing : List (UnaryOperator α)) (primary : Outcome α) (tail : Tail α) :
    climbed level ⟨operator :: leading, primary, trailing⟩ tail =
      climbed (some (.unary operator)) ⟨leading, primary, trailing⟩ tail >>= fun (x, rest) =>
        (operator.run x).mapError Fault.settled >>= fun value => extended level value rest := by
  rw [climbed, climb]
  simp only [climbed]
  cases climb (some (.unary operator)) ⟨leading, primary, trailing⟩ tail with
  | error fault => rfl
  | ok result =>
    obtain ⟨⟨x, rest⟩, shorter⟩ := result
    cases same : (operator.run x).mapError Fault.settled with
    | error fault => simp [Except.map, bind, Except.bind, same]
    | ok value =>
      simp only [bind, Except.bind, Except.map, same, extended]
      cases extend level value rest <;> rfl

theorem extended_trailing (level : Option (Operator α)) (value : α) (operator : UnaryOperator α)
    (trailing : List (UnaryOperator α)) (tail : Tail α) :
    extended level value ⟨operator :: trailing, tail⟩ =
      if level.all (Operator.takesIn operator) then
        (operator.run value).mapError Fault.settled >>= fun value =>
          extended level value ⟨trailing, tail⟩
      else .ok (value, ⟨operator :: trailing, tail⟩) := by
  rw [extended, extend]
  split
  · cases same : (operator.run value).mapError Fault.settled with
    | error fault => simp [Except.map, bind, Except.bind]
    | ok value =>
      simp only [bind, Except.bind, Except.map, extended]
      cases extend level value ⟨trailing, tail⟩ <;> rfl
  · rfl

theorem extended_tail (level : Option (Operator α)) (value : α) (operator : BinaryOperator α)
    (item : Item α) (tail : Tail α) :
    extended level value ⟨[], (operator, item) :: tail⟩ =
      if level.all (Operator.extendsOver operator) then
        climbed (some (.binary operator)) item tail >>= fun (y, rest) =>
          (operator.run value y).mapError Fault.settled >>= fun value => extended level value rest
      else .ok (value, ⟨[], (operator, item) :: tail⟩) := by
  rw [extended, extend]
  split
  · simp only [climbed]
    cases climb (some (.binary operator)) item tail with
    | error fault => rfl
    | ok result =>
      obtain ⟨⟨y, rest⟩, shorter⟩ := result
      cases same : (operator.run value y).mapError Fault.settled with
      | error fault => simp [Except.map, bind, Except.bind, same]
      | ok next =>
        simp only [bind, Except.bind, Except.map, same, extended]
        cases extend level next rest <;> rfl
  · rfl

theorem extended_end (level : Option (Operator α)) (value : α) :
    extended level value ⟨[], []⟩ = .ok (value, ⟨[], []⟩) := by
  rw [extended, extend]
  rfl

/-! ### Phrases -/

/-- A row of operands whose primaries have an outcome. -/
structure Row (α : Type) where
  first : Item α
  tail : Tail α

/-- The value of a row. Nothing is left when no operator waits for it. -/
def Row.evaluate (row : Row α) : Outcome α := (climb none row.first row.tail).map (·.val.1)

variable {scope : Scope α}

mutual

/-- The operands of a phrase from left to right, their primaries evaluated. -/
def Phrase.row : Phrase scope → Row α
  | .last operand => ⟨operand.item, []⟩
  | .joined operand operator rest =>
    let row := rest.row
    ⟨operand.item, (operator.operator, row.first) :: row.tail⟩

def Operand.item : Operand scope → Item α
  | .mk leading primary trailing =>
    ⟨leading.map Leading.operator, primary.evaluate, trailing.map Trailing.operator⟩

/-- The outcome of a primary. A call evaluates its arguments first, and is made where its bracket closes. -/
def Primary.evaluate : Primary scope → Outcome α
  | .number value _ => .ok value
  | .identifier name _ => scope.meaning name
  | .group _ inner => inner.row.evaluate
  | .emptyCall callee bracket _ => (callee.function.call bracket.closedAt []).mapError Fault.settled
  | .call callee bracket _ arguments => do
    (callee.function.call bracket.closedAt (← arguments.evaluate)).mapError Fault.settled

/-- The values of arguments from left to right. -/
def Arguments.evaluate : Arguments scope → Outcome (List α)
  | .last argument => do return [← argument.row.evaluate]
  | .more argument _ _ rest => do
    let value ← argument.row.evaluate
    return value :: (← rest.evaluate)

end

/-- The value of a phrase by precedence climbing. -/
def Phrase.evaluate (phrase : Phrase scope) : Outcome α := phrase.row.evaluate

end Reckoner.Evaluation

import Reckoner.Proofs.Evaluation.Climbing

/-! Precedence climbing with an explicit stack. A frame is a recursive call that waits for the operand
of its operator; what the calls do with a value is read off the frames, one frame at a time. -/

namespace Reckoner.Evaluation

variable {α : Type}

/-- An operator that waits for its last operand, with the operand before it if there is one. -/
inductive Frame (α : Type) where
  | leading (operator : UnaryOperator α) (position : Nat)
  | joining (left : α) (operator : BinaryOperator α) (position : Nat)

namespace Frame

def operator : Frame α → Operator α
  | leading operator _ => .unary operator
  | joining _ operator _ => .binary operator

def position : Frame α → Nat
  | leading _ position => position
  | joining _ _ position => position

/-- The operands that a frame keeps. -/
def kept : Frame α → List α
  | leading _ _ => []
  | joining left _ _ => [left]

/-- What the operator of a frame gives for its last operand. -/
def run (x : α) : Frame α → Outcome α
  | leading operator _ => operator.run x
  | joining left operator _ => operator.run left x

end Frame

/-- The operator whose operand is being read. -/
def level (frames : List (Frame α)) : Option (Operator α) := frames.head?.map Frame.operator

/-- Hands a value and what is left behind it to the innermost frame, and so on outwards. -/
def resume : List (Frame α) → α × Remainder α → Outcome α
  | [], (value, _) => .ok value
  | frame :: frames, (x, remainder) => do
    let value ← (frame.run x).mapError Fault.settled
    resume frames (← extended (level frames) value remainder)

/-- Goes on behind a value that is read inside some frames. -/
def proceed (frames : List (Frame α)) (value : α) (remainder : Remainder α) : Outcome α := do
  resume frames (← extended (level frames) value remainder)

/-- Goes on with an operand that is to be read inside some frames. -/
def enter (frames : List (Frame α)) (item : Item α) (tail : Tail α) : Outcome α := do
  resume frames (← climbed (level frames) item tail)

theorem enter_primary (frames : List (Frame α)) (primary : Outcome α)
    (trailing : List (UnaryOperator α)) (tail : Tail α) :
    enter frames ⟨[], primary, trailing⟩ tail =
      primary >>= fun value => proceed frames value ⟨trailing, tail⟩ := by
  rw [enter, climbed_primary, bind_assoc]
  rfl

theorem enter_leading (frames : List (Frame α)) (operator : UnaryOperator α) (position : Nat)
    (leading trailing : List (UnaryOperator α)) (primary : Outcome α) (tail : Tail α) :
    enter frames ⟨operator :: leading, primary, trailing⟩ tail =
      enter (.leading operator position :: frames) ⟨leading, primary, trailing⟩ tail := by
  simp only [enter, climbed_leading, bind_assoc]
  rfl

theorem proceed_pop {frame : Frame α} {value : α} {remainder : Remainder α}
    (left : extended (some frame.operator) value remainder = .ok (value, remainder))
    (frames : List (Frame α)) :
    proceed (frame :: frames) value remainder =
      (frame.run value).mapError Fault.settled >>= fun value => proceed frames value remainder := by
  rw [proceed]
  simp only [level, List.head?_cons, Option.map_some, left]
  rfl

theorem proceed_trailing {frames : List (Frame α)} {operator : UnaryOperator α}
    (taken : (level frames).all (Operator.takesIn operator) = true) (value : α)
    (trailing : List (UnaryOperator α)) (tail : Tail α) :
    proceed frames value ⟨operator :: trailing, tail⟩ =
      (operator.run value).mapError Fault.settled >>= fun value =>
        proceed frames value ⟨trailing, tail⟩ := by
  simp only [proceed, extended_trailing, taken, if_true, bind_assoc]

theorem proceed_tail {frames : List (Frame α)} {operator : BinaryOperator α}
    (taken : (level frames).all (Operator.extendsOver operator) = true) (value : α)
    (position : Nat) (item : Item α) (tail : Tail α) :
    proceed frames value ⟨[], (operator, item) :: tail⟩ =
      enter (.joining value operator position :: frames) item tail := by
  simp only [proceed, extended_tail, taken, if_true, bind_assoc]
  rfl

theorem proceed_nil (value : α) : proceed [] value ⟨[], []⟩ = .ok value := by
  rw [proceed, extended_end]
  rfl

theorem Row.evaluate_eq_enter (row : Row α) : row.evaluate = enter [] row.first row.tail := by
  simp only [Row.evaluate, enter, climbed, level, List.head?_nil, Option.map_none]
  cases climb none row.first row.tail <;> rfl

end Reckoner.Evaluation

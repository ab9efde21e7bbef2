import Reckoner.Proofs.Evaluation.Failures
import Reckoner.Proofs.Library.Faults

/-! Where an evaluation fails: every error has the place of a token, or that of the end of the source. -/

namespace Reckoner

variable {α : Type} {limit : Nat}

namespace Evaluation

variable {scope : Scope α}

/-- Whether an operator fails with faults that have a place to get. -/
abbrev Operator.Placeable : Operator α → Prop :=
  Operator.All UnaryOperator.Placeable BinaryOperator.Placeable

/-- Whether what waits is from a place of at most the limit. -/
def Pending.UpTo (limit : Nat) : Pending α → Prop
  | .operator _ place => place ≤ limit
  | .group opened => opened.position ≤ limit

/-- Whether a state comes from places of at most the limit, and what waits fails with faults that have
a place to get. -/
structure State.UpTo (state : State α) (limit : Nat) : Prop where
  position : state.position ≤ limit
  pending : ∀ entry ∈ state.pending, entry.UpTo limit
  placeable : ∀ entry ∈ state.pending, entry.All Operator.Placeable NamedFunction.Placeable

namespace Scope

/-! ### Places of faults -/

theorem error_placed {kind : ErrorKind} {message : String} {position : Nat} (near : position ≤ limit) :
    (scope.error kind message position).PlacedUpTo limit := ⟨_, position, rfl, rfl, near⟩

theorem invalid_placed {message : String} {position : Nat} (near : position ≤ limit) :
    (scope.invalid message position).PlacedUpTo limit := error_placed near

theorem located_position {fault : Fault} (placeable : fault.Placeable) (place : Nat) :
    ∃ error, scope.located place fault = .described error ∧ error.position = some (place : Int) := by
  cases fault with
  | described error =>
    have unplaced : error.position = none := placeable
    simp only [located, unplaced, Option.isNone_none, if_true]
    exact ⟨_, rfl, rfl⟩
  | signal signal text => cases signal <;> exact ⟨_, rfl, rfl⟩
  | mistyped => exact placeable.elim
  | missing => exact placeable.elim
  | foreign name => exact placeable.elim
  | _ => exact ⟨_, rfl, rfl⟩

theorem located_placed {position : Nat} (near : position ≤ limit) {fault : Fault}
    (placeable : fault.Placeable) : (scope.located position fault).PlacedUpTo limit := by
  obtain ⟨error, located, placed⟩ := scope.located_position placeable position
  exact ⟨error, position, located, placed, near⟩

theorem run_placed {position : Nat} (near : position ≤ limit) {outcome : Outcome α}
    (placeable : Fails Fault.Placeable outcome) :
    Fails (Fault.PlacedUpTo limit) (scope.run position outcome) :=
  placeable.mapError fun _ => located_placed near

theorem apply_placed {operator : Operator α} (placeable : operator.Placeable) {position : Nat}
    (near : position ≤ limit) (operands : List α) :
    Fails (Fault.PlacedUpTo limit) (scope.apply operator position operands) := by
  match operator, operands with
  | .unary operator, x :: _ => exact .bind (run_placed near (placeable x)) fun _ _ => .ok _
  | .binary operator, y :: x :: _ => exact .bind (run_placed near (placeable x y)) fun _ _ => .ok _
  | .unary operator, [] => exact .error (invalid_placed near)
  | .binary operator, [] => exact .error (invalid_placed near)
  | .binary operator, [_] => exact .error (invalid_placed near)

/-! ### Reductions -/

theorem lastPlace_le {applied : List (Pending α)} {position : Nat} (near : position ≤ limit)
    (waiting : ∀ entry ∈ applied, entry.UpTo limit) : lastPlace applied position ≤ limit := by
  unfold lastPlace
  cases last : applied.getLast? with
  | none => exact near
  | some entry =>
    have placed := waiting entry (List.mem_of_getLast? last)
    cases entry <;> exact placed

/-- Errors are reported at the place of an operator that waited, or at that of the token. -/
theorem reduce_position {due : Operator α → Bool} {pending left : List (Pending α)}
    {operands rest : List α} {position last : Nat} (near : position ≤ limit)
    (waiting : ∀ entry ∈ pending, entry.UpTo limit)
    (reduced : scope.reduce due pending operands position = .ok (left, rest, last)) :
    last ≤ limit := by
  obtain ⟨_, _, rfl⟩ := reduce_eq_ok reduced
  exact lastPlace_le near fun entry member => waiting entry ((List.takeWhile_prefix _).mem member)

theorem reduce_upTo {due : Operator α → Bool} {pending left : List (Pending α)}
    {operands rest : List α} {position last : Nat}
    (near : ∀ entry ∈ pending, entry.UpTo limit)
    (reduced : scope.reduce due pending operands position = .ok (left, rest, last)) :
    ∀ entry ∈ left, entry.UpTo limit :=
  fun entry member => near entry ((reduce_suffix reduced).mem member)

/-! ### Steps -/

variable {state : State α} {token : Token α} {previous following next : Option (Token α)}

theorem Turn.placed {operator : Operator α} {place : Nat} {below : List (Pending α)} {operands : List α}
    (turn : scope.Turn next state operator place below operands)
    (all : scope.registry.All NamedFunction.Placeable UnaryOperator.Placeable BinaryOperator.Placeable)
    (upTo : state.UpTo limit) (near : ∀ token ∈ next, token.position ≤ limit) :
    Fails (Fault.PlacedUpTo limit) (scope.apply operator place operands) := by
  have placeable := turn.all upTo.placeable fun token _ => supplies_of_all all token
  refine apply_placed placeable ?_ operands
  cases turn with
  | waiting complete dues reduces isDue => exact upTo.pending _ (reduces.suffix.mem List.mem_cons_self)
  | trailing complete trailing reads reduced =>
    exact reduce_position (near _ reads) upTo.pending reduced

end Scope

/-! ### Runs -/

theorem Callee.mem_taken (callee : Callee scope) {opener : Token α} {following : Option (Token α)}
    (same : following = some opener) : opener ∈ taken callee.token following := by
  simp [taken, same, Callee.token, Lexeme.kind]

/-- Reading tokens from places of at most the limit leads to no farther place. -/
theorem Transition.upTo {previous following : Option (Token α)} {token : Token α}
    {state next : State α} (moved : Transition scope previous following token state next)
    (all : scope.registry.All NamedFunction.Placeable UnaryOperator.Placeable BinaryOperator.Placeable)
    (near : ∀ read ∈ taken token following, read.position ≤ limit) (upTo : state.UpTo limit) :
    next.UpTo limit := by
  have place := near token (mem_taken token following)
  have placeable := moved.pending_all (Scope.supplies_of_all all token) upTo.placeable
  obtain ⟨_, waiting, _⟩ := upTo
  cases moved with
  | number => exact ⟨place, waiting, placeable⟩
  | identifier found => exact ⟨place, waiting, placeable⟩
  | callee callee opener opens =>
    have opened := near _ (callee.mem_taken opener)
    exact ⟨place, List.forall_mem_cons.mpr ⟨opened, waiting⟩, placeable⟩
  | leading leading => exact ⟨place, List.forall_mem_cons.mpr ⟨place, waiting⟩, placeable⟩
  | trailing trailing reduced applied =>
    exact ⟨Scope.reduce_position place waiting reduced, Scope.reduce_upTo waiting reduced, placeable⟩
  | joining joining reduced =>
    exact ⟨Scope.reduce_position place waiting reduced,
      List.forall_mem_cons.mpr ⟨place, Scope.reduce_upTo waiting reduced⟩, placeable⟩
  | opener => exact ⟨place, List.forall_mem_cons.mpr ⟨place, waiting⟩, placeable⟩
  | separator reduced called =>
    obtain ⟨opened, others⟩ := List.forall_mem_cons.mp (Scope.reduce_upTo waiting reduced)
    exact ⟨Scope.reduce_position place waiting reduced, List.forall_mem_cons.mpr ⟨opened, others⟩,
      placeable⟩
  | group reduced plain matching =>
    exact ⟨Scope.reduce_position place waiting reduced,
      (List.forall_mem_cons.mp (Scope.reduce_upTo waiting reduced)).2, placeable⟩
  | call reduced called matching empty counted given =>
    exact ⟨place, (List.forall_mem_cons.mp (Scope.reduce_upTo waiting reduced)).2, placeable⟩

theorem Reached.upTo {consumed : List (Token α)} {state : State α}
    (reached : Reached scope consumed state)
    (all : scope.registry.All NamedFunction.Placeable UnaryOperator.Placeable BinaryOperator.Placeable)
    (near : ∀ token ∈ consumed, token.position ≤ limit) : state.UpTo limit := by
  induction reached with
  | initial => exact ⟨Nat.zero_le _, nofun, nofun⟩
  | @next consumed state token following after _ read ih =>
    obtain ⟨before, last⟩ := List.forall_mem_append.mp near
    exact (Scope.step_eq_ok read).upTo all last (ih before)

end Evaluation

end Reckoner

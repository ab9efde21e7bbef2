import Reckoner.Library.Install
import Reckoner.Proofs.Outcome

/-! Properties that no function of the library loses. What holds of all results of a number system for
numbers that have the property holds of all results of the library. -/

namespace Reckoner

variable {α : Type} {holds : α → Prop}

/-- Whether the constants of a number system have a property once they are registered, coerced anew. -/
def NumberSystem.Registers (system : NumberSystem α) (holds : α → Prop) : Prop :=
  Yields (fun constants => ∀ entry ∈ constants, Yields holds (system.coerce (system.toDatum entry.2)))
    system.constants

/-- Whether a property is closed in a number system: literals and whole and floating numbers have it,
and so has what is computed of numbers that have it. -/
structure NumberSystem.Closed (system : NumberSystem α) (holds : α → Prop) : Prop where
  literal : ∀ text, Yields holds (system.parse (system.literals.span text).1)
  ofInt : ∀ n, Yields holds (system.ofInt n)
  ofFloat : ∀ value, Yields holds (system.ofFloat value)
  constants : system.Registers holds
  native : ∀ function native, system.native? function = some native → ∀ arguments,
    (∀ x ∈ arguments, holds x) → Yields holds (native arguments)
  add : ∀ x y, holds x → holds y → Yields holds (system.add x y)
  sub : ∀ x y, holds x → holds y → Yields holds (system.sub x y)
  mul : ∀ x y, holds x → holds y → Yields holds (system.mul x y)
  div : ∀ x y, holds x → holds y → Yields holds (system.div x y)
  rem : ∀ x y, holds x → holds y → Yields holds (system.rem x y)
  pow : ∀ x y, holds x → holds y → Yields holds (system.pow x y)
  neg : ∀ x, holds x → Yields holds (system.neg x)
  toIntegral : ∀ rounding x, holds x → Yields holds (system.toIntegral rounding x)

/-- Whether a number system keeps a property: it is closed, and all that is coerced has it too. -/
structure NumberSystem.Keeps (system : NumberSystem α) (holds : α → Prop) : Prop
    extends system.Closed holds where
  coerce : ∀ value, Yields holds (system.coerce value)

namespace Library

/-- Whether a library keeps a property: it is closed in the number system, and zero and one have it. -/
structure Base.Keeps (base : Base α) (holds : α → Prop) : Prop where
  system : base.system.Closed holds
  zero : holds base.zero
  one : holds base.one

theorem Base.keeps_of {system : NumberSystem α} (closed : system.Closed holds) {base : Base α}
    (made : Base.of system = .ok base) : base.Keeps holds := by
  obtain ⟨zero, zeroMade, made⟩ := bind_eq_ok.mp made
  obtain ⟨one, oneMade, same⟩ := bind_eq_ok.mp made
  cases same
  exact ⟨closed, closed.ofInt 0 zero zeroMade, closed.ofInt 1 one oneMade⟩

theorem floatPath_keeps {system : NumberSystem α} (closed : system.Closed holds) (label : String)
    (function : List Float → Except Binary64.NoValue Float) (arguments : List α) :
    Yields holds (floatPath system label function arguments) := by
  refine .bind ?_
  intro xs _
  split
  · exact closed.ofFloat _
  · exact closed.ofFloat _
  · exact .ite (.error _) (closed.ofFloat _)
  · exact .error _

theorem elementary_keeps {system : NumberSystem α} (closed : system.Closed holds)
    (function : Elementary) {arguments : List α} (held : ∀ x ∈ arguments, holds x) :
    Yields holds (elementary system function arguments) := by
  unfold elementary
  cases found : system.native? function with
  | some native => exact closed.native function native found arguments held
  | none =>
    cases Binary64.elementary? function with
    | some apply => exact floatPath_keeps closed _ _ _
    | none => exact .error _

theorem aggregate_keeps {combine : α → α → Outcome α}
    (keeps : ∀ x y, holds x → holds y → Yields holds (combine x y)) {arguments : List α}
    (held : ∀ x ∈ arguments, holds x) : Yields holds (Base.aggregate combine arguments) := by
  cases arguments with
  | nil => exact .error _
  | cons first rest =>
    obtain ⟨start, others⟩ := List.forall_mem_cons.mp held
    clear held
    show Yields holds (rest.foldlM combine first)
    induction rest generalizing first with
    | nil => exact .ok start
    | cons second rest ih =>
      obtain ⟨next, others⟩ := List.forall_mem_cons.mp others
      rw [List.foldlM_cons]
      refine .bind ?_
      intro value given
      exact ih value (keeps first second start next value given) others

namespace Base

variable {base : Base α}

theorem boolean_keeps (keeps : base.Keeps holds) (flag : Bool) : holds (base.boolean flag) := by
  cases flag with
  | true => exact keeps.one
  | false => exact keeps.zero

theorem average_keeps (keeps : base.Keeps holds) {arguments : List α}
    (held : ∀ x ∈ arguments, holds x) : Yields holds (base.average arguments) := by
  refine .bind ?_
  intro total summed
  refine .bind ?_
  intro count counted
  exact keeps.system.div total count (aggregate_keeps keeps.system.add held total summed)
    (keeps.system.ofInt _ count counted)

theorem extreme_keeps (better : Ordering) {arguments : List α} (held : ∀ x ∈ arguments, holds x) :
    Yields holds (base.extreme better arguments) := by
  refine aggregate_keeps ?_ held
  intro best value first second
  refine .bind ?_
  intro order _
  by_cases exceeds : order = better
  · rw [if_pos exceeds]
    exact .ok second
  · rw [if_neg exceeds]
    exact .ok first

theorem absolute_keeps (keeps : base.Keeps holds) (x : α) (held : holds x) :
    Yields holds (base.absolute x) := by
  unfold absolute
  split
  · rename_i native found
    exact keeps.system.native .abs native found [x] (by simpa using held)
  · refine .bind ?_
    intro order _
    exact .ite (keeps.system.neg x held) (.ok held)

theorem sign_keeps (keeps : base.Keeps holds) (x : α) : Yields holds (base.sign x) :=
  .bind fun _ _ => keeps.system.ofInt _

theorem multiplyUp_keeps (keeps : base.Keeps holds) (count : Nat) (next : Int) (product : α)
    (held : holds product) : Yields holds (base.multiplyUp count next product) := by
  induction count generalizing next product with
  | zero => exact .ok held
  | succ count ih =>
    unfold multiplyUp
    refine .bind ?_
    intro factor made
    refine .bind ?_
    intro product multiplied
    have kept := keeps.system.mul _ factor held (keeps.system.ofInt next factor made) product multiplied
    exact .ite (ih (next + 1) product kept) (.ok kept)

theorem factorial_keeps (keeps : base.Keeps holds) (x : α) : Yields holds (base.factorial x) := by
  refine .bind ?_
  intro isInteger _
  refine .ite ?_ ?_
  · refine .bind ?_
    intro n _
    refine .ite (.bind fun _ _ => .throw _ _) (.ite (.bind fun _ _ => .throw _ _) ?_)
    exact multiplyUp_keeps keeps _ _ _ keeps.one
  · exact .bind fun next _ => floatPath_keeps keeps.system _ _ _

theorem random_keeps (keeps : base.Keeps holds) (draw : Float) (arguments : List α) :
    Yields holds (base.random draw arguments) := by
  have drawn (low high : Float) : Yields holds (do
      if high < low then
        throw (.report .invalidInput ("random: minimum " ++ Binary64.write low ++
          " is greater than maximum " ++ Binary64.write high))
      base.system.ofFloat (low + draw * (high - low))) := .ite (.throw _ _) (keeps.system.ofFloat _)
  unfold random
  match arguments with
  | [] => exact drawn 0.0 1.0
  | [high] => exact .bind fun high _ => drawn 0.0 high
  | low :: high :: _ => exact .bind fun low _ => .bind fun high _ => drawn low high

theorem logarithm_keeps (keeps : base.Keeps holds) {arguments : List α}
    (held : ∀ x ∈ arguments, holds x) : Yields holds (base.logarithm arguments) := by
  match arguments, held with
  | [], _ => exact .error _
  | [x], held => exact elementary_keeps keeps.system .log held
  | x :: y :: _, held =>
    refine .bind ?_
    intro numerator above
    refine .bind ?_
    intro denominator below
    have first : holds x := held x (by simp)
    have second : holds y := held y (by simp)
    exact keeps.system.div numerator denominator
      (elementary_keeps keeps.system .ln (by simpa using first) numerator above)
      (elementary_keeps keeps.system .ln (by simpa using second) denominator below)

theorem reciprocalOf_keeps (keeps : base.Keeps holds) (function : Elementary) (x : α) (held : holds x) :
    Yields holds (base.reciprocalOf function x) := by
  refine .bind ?_
  intro value given
  exact keeps.system.div _ value keeps.one
    (elementary_keeps keeps.system function (by simpa using held) value given)

theorem ofReciprocal_keeps (keeps : base.Keeps holds) (function : Elementary) (x : α) (held : holds x) :
    Yields holds (base.ofReciprocal function x) := by
  refine .bind ?_
  intro value given
  have kept := keeps.system.div _ x keeps.one held value given
  exact elementary_keeps keeps.system function (by simpa using kept)

theorem ordered_keeps (keeps : base.Keeps holds) (condition : Ordering → Bool) (x y : α) :
    Yields holds (base.ordered condition x y) :=
  .bind fun _ _ => .ok (base.boolean_keeps keeps _)

theorem equality_keeps (keeps : base.Keeps holds) (condition : Bool → Bool) (x y : α) :
    Yields holds (base.equality condition x y) :=
  .bind fun _ _ => .ok (base.boolean_keeps keeps _)

theorem conjunction_keeps (keeps : base.Keeps holds) (x y : α) :
    Yields holds (base.conjunction x y) := by
  refine .bind ?_
  intro _ _
  exact .ite (.bind fun _ _ => .ok (base.boolean_keeps keeps _)) (.ok (base.boolean_keeps keeps _))

theorem disjunction_keeps (keeps : base.Keeps holds) (x y : α) :
    Yields holds (base.disjunction x y) := by
  refine .bind ?_
  intro _ _
  exact .ite (.ok (base.boolean_keeps keeps _)) (.bind fun _ _ => .ok (base.boolean_keeps keeps _))

theorem negation_keeps (keeps : base.Keeps holds) (x : α) : Yields holds (base.negation x) :=
  .bind fun _ _ => .ok (base.boolean_keeps keeps _)

end Base

/-! ### The rows of the library -/

variable {base : Base α}

theorem binaryRows_keep (keeps : base.Keeps holds) :
    ∀ row ∈ binaryRows base, ∀ x y, holds x → holds y → Yields holds (row.run x y) := by
  have system := keeps.system
  simp only [binaryRows, List.forall_mem_cons]
  refine ⟨system.add, system.sub, system.mul, system.div, system.rem, system.pow, ?_, ?_, ?_, ?_, ?_,
    ?_, ?_, ?_, by simp⟩
  · exact fun x y _ _ => base.equality_keeps keeps _ x y
  · exact fun x y _ _ => base.equality_keeps keeps _ x y
  · exact fun x y _ _ => base.ordered_keeps keeps _ x y
  · exact fun x y _ _ => base.ordered_keeps keeps _ x y
  · exact fun x y _ _ => base.ordered_keeps keeps _ x y
  · exact fun x y _ _ => base.ordered_keeps keeps _ x y
  · exact fun x y _ _ => base.conjunction_keeps keeps x y
  · exact fun x y _ _ => base.disjunction_keeps keeps x y

theorem unaryRows_keep (keeps : base.Keeps holds) :
    ∀ row ∈ unaryRows base, ∀ x, holds x → Yields holds (row.run x) := by
  simp only [unaryRows, List.forall_mem_cons]
  refine ⟨fun x held => .ok held, keeps.system.neg, ?_, ?_, by simp⟩
  · exact fun x _ => base.negation_keeps keeps x
  · exact fun x _ => base.factorial_keeps keeps x

/-- A function of lists keeps a property of numbers. -/
def KeepsAll (holds : α → Prop) (run : List α → Outcome α) : Prop :=
  ∀ arguments, (∀ x ∈ arguments, holds x) → Yields holds (run arguments)

theorem oneRow_keeps {run : α → Outcome α} (keeps : ∀ x, holds x → Yields holds (run x))
    (name : String) (place : Nat) : KeepsAll holds ((oneRow name run).run place) := by
  intro arguments held
  cases arguments with
  | nil => exact .error _
  | cons x rest => exact keeps x (held x List.mem_cons_self)

theorem functionRows_keep (keeps : base.Keeps holds) (draws : Draws) :
    ∀ row ∈ functionRows base draws, ∀ place, KeepsAll holds (row.run place) := by
  have system := keeps.system
  simp only [functionRows, List.forall_mem_append, List.forall_mem_cons, List.forall_mem_map]
  refine ⟨⟨⟨⟨?_, ?_, ?_, ?_, ?_, ?_, ?_, ?_, ?_, ?_, ?_, ?_, ?_, ?_, by simp⟩, ?_⟩, ?_⟩, ?_⟩
  · exact fun _ _ held => aggregate_keeps system.add held
  · exact fun _ _ held => aggregate_keeps system.mul held
  · exact fun _ _ held => base.average_keeps keeps held
  · exact fun _ _ held => base.extreme_keeps .gt held
  · exact fun _ _ held => base.extreme_keeps .lt held
  · exact oneRow_keeps (base.absolute_keeps keeps) _
  · exact oneRow_keeps (system.toIntegral .floor) _
  · exact oneRow_keeps (system.toIntegral .ceiling) _
  · exact oneRow_keeps (system.toIntegral .truncate) _
  · exact oneRow_keeps (system.toIntegral .halfUp) _
  · exact oneRow_keeps (fun x _ => base.sign_keeps keeps x) _
  · exact fun _ _ held => base.logarithm_keeps keeps held
  · exact fun place arguments _ => base.random_keeps keeps (draws.draw place) arguments
  · exact fun _ _ held => elementary_keeps system .atan2 held
  · intro function _
    exact oneRow_keeps (fun x held => elementary_keeps system function (by simpa using held)) _
  · rintro ⟨name, function⟩ _
    exact oneRow_keeps (base.reciprocalOf_keeps keeps function) name
  · rintro ⟨name, function⟩ _
    exact oneRow_keeps (base.ofReciprocal_keeps keeps function) name

end Library

end Reckoner

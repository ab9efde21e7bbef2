import Reckoner.Error

/-! Outcomes that differ only in the places of their errors. An evaluation reports where it failed;
what it computes and why it fails can be compared without that. -/

namespace Reckoner

namespace Fault

/-- The same fault without a place. -/
def unplaced : Fault → Fault
  | .described error => .report error.kind error.message
  | fault => fault

/-- The fault of an implementation as an expression reports it, without a place. What is no arithmetic
failure stays what it is. -/
def settled : Fault → Fault
  | .described error => .report error.kind error.message
  | .divisionByZero _ | .signal .divisionByZero _ => .report .divisionByZero "Division by zero"
  | .outOfRange text | .signal .overflow text => .report .overflow ("Overflow: " ++ text)
  | .unsuitable text | .arithmetic text | .signal _ text =>
    .report .invalidInput ("Invalid input: " ++ text)
  | .mistyped => .mistyped
  | .missing => .missing
  | .foreign name => .foreign name

end Fault

theorem ok_bind {β γ : Type} (x : β) (next : β → Outcome γ) :
    ((.ok x : Outcome β) >>= next) = next x := rfl

theorem throw_bind {β γ : Type} (fault : Fault) (next : β → Outcome γ) :
    ((throw fault : Outcome β) >>= next) = .error fault := rfl

theorem bind_eq_ok {ε β γ : Type} {first : Except ε β} {next : β → Except ε γ} {result : γ} :
    (first >>= next) = .ok result ↔ ∃ x, first = .ok x ∧ next x = .ok result := by
  constructor
  · intro given
    cases first with
    | ok x => exact ⟨x, rfl, given⟩
    | error fault => cases given
  · rintro ⟨x, rfl, given⟩
    exact given

theorem bind_eq_error {ε β γ : Type} {first : Except ε β} {next : β → Except ε γ} {fault : ε} :
    (first >>= next) = .error fault ↔
      first = .error fault ∨ ∃ x, first = .ok x ∧ next x = .error fault := by
  constructor
  · intro failed
    cases first with
    | ok x => exact .inr ⟨x, rfl, failed⟩
    | error other =>
      cases failed
      exact .inl rfl
  · rintro (rfl | ⟨x, rfl, failed⟩)
    · rfl
    · exact failed

theorem map_eq_ok_iff {ε β γ : Type} {function : β → γ} {outcome : Except ε β} {result : γ} :
    outcome.map function = .ok result ↔ ∃ x, outcome = .ok x ∧ function x = result := by
  cases outcome <;> simp [Except.map]

theorem eq_ok_of_toOption {ε β : Type} {outcome : Except ε β} {x : β}
    (found : outcome.toOption = some x) : outcome = .ok x := by
  cases outcome with
  | ok y => exact congrArg Except.ok (Option.some.inj found)
  | error fault => cases found

theorem guard_eq_ok_iff {ε β : Type} {condition : Prop} [Decidable condition] {refusal : ε}
    {next : PUnit → Except ε β} {result : β} :
    (if condition then throw refusal >>= next else next ⟨⟩) = .ok result ↔
      ¬ condition ∧ next ⟨⟩ = .ok result := by
  by_cases held : condition
  · rw [if_pos held]
    exact ⟨nofun, fun passed => absurd held passed.1⟩
  · simp [held]

theorem lastGuard_eq_ok_iff {ε : Type} {condition : Prop} [Decidable condition] {refusal : ε} :
    (if condition then throw refusal else pure ⟨⟩ : Except ε PUnit) = .ok ⟨⟩ ↔ ¬ condition := by
  by_cases held : condition
  · rw [if_pos held]
    exact ⟨nofun, fun passed => absurd held passed⟩
  · simp [held, pure, Except.pure]

/-! ### Values with a property -/

/-- Whether the value of an outcome, if it has one, has a property. -/
def Yields {ε β : Type} (holds : β → Prop) (outcome : Except ε β) : Prop :=
  ∀ value, outcome = .ok value → holds value

namespace Yields

variable {ε β γ : Type} {holds : β → Prop} {kept : γ → Prop}

theorem ok {x : β} (held : holds x) : Yields holds (.ok x : Except ε β) := by
  rintro value ⟨⟩
  exact held

theorem error (fault : ε) : Yields holds (.error fault : Except ε β) := by
  rintro value ⟨⟩

theorem throw (fault : ε) (next : γ → Except ε β) :
    Yields holds ((MonadExcept.throw fault : Except ε γ) >>= next) := .error fault

theorem bind {first : Except ε γ} {next : γ → Except ε β}
    (later : ∀ x, first = .ok x → Yields holds (next x)) : Yields holds (first >>= next) := by
  intro value given
  obtain ⟨x, found, given⟩ := bind_eq_ok.mp given
  exact later x found value given

theorem andThen {first : Except ε γ} {next : γ → Except ε β} (before : Yields kept first)
    (later : ∀ x, kept x → Yields holds (next x)) : Yields holds (first >>= next) :=
  .bind fun x found => later x (before x found)

theorem ite {condition : Prop} [Decidable condition] {left right : Except ε β}
    (first : Yields holds left) (second : Yields holds right) :
    Yields holds (if condition then left else right) := by
  split
  · exact first
  · exact second

theorem iteThen {condition : Prop} [Decidable condition] {left right : Except ε γ}
    {next : γ → Except ε β} (first : Yields kept left) (second : Yields kept right)
    (later : ∀ x, kept x → Yields holds (next x)) :
    Yields holds (if condition then left >>= next else right >>= next) :=
  .ite (first.andThen later) (second.andThen later)

theorem mapError {φ : Type} {outcome : Except ε β} (kept : Yields holds outcome) (name : ε → φ) :
    Yields holds (outcome.mapError name) := by
  cases outcome with
  | ok x => exact .ok (kept x rfl)
  | error fault => exact .error _

end Yields

/-! ### Faults with a property -/

/-- Whether the fault of an outcome, if it has one, has a property. -/
def Fails {ε β : Type} (holds : ε → Prop) (outcome : Except ε β) : Prop :=
  ∀ fault, outcome = .error fault → holds fault

namespace Fails

variable {ε β γ : Type} {holds : ε → Prop}

theorem ok (x : β) : Fails holds (.ok x) := by
  rintro fault ⟨⟩

theorem error {fault : ε} (held : holds fault) : Fails holds (.error fault : Except ε β) := by
  rintro found ⟨⟩
  exact held

theorem throw {fault : ε} (held : holds fault) (next : γ → Except ε β) :
    Fails holds ((MonadExcept.throw fault : Except ε γ) >>= next) := .error held

theorem bind {first : Except ε γ} {next : γ → Except ε β} (before : Fails holds first)
    (later : ∀ x, first = .ok x → Fails holds (next x)) : Fails holds (first >>= next) := by
  intro fault failed
  rcases bind_eq_error.mp failed with failed | ⟨x, found, failed⟩
  · exact before fault failed
  · exact later x found fault failed

theorem ite {condition : Prop} [Decidable condition] {left right : Except ε β}
    (first : Fails holds left) (second : Fails holds right) :
    Fails holds (if condition then left else right) := by
  split
  · exact first
  · exact second

theorem map {outcome : Except ε γ} (fails : Fails holds outcome) (function : γ → β) :
    Fails holds (outcome.map function) := by
  cases outcome with
  | ok x => exact .ok _
  | error fault => exact .error (fails fault rfl)

theorem mapError {φ : Type} {kept : φ → Prop} {outcome : Except ε β} (fails : Fails holds outcome)
    {name : ε → φ} (named : ∀ fault, holds fault → kept (name fault)) :
    Fails kept (outcome.mapError name) := by
  cases outcome with
  | ok x => exact .ok x
  | error fault => exact .error (named fault (fails fault rfl))

end Fails

/-! ### Values and faults with properties -/

/-- Whether the value of an outcome, if it has one, has a property, and its fault, if it has one, is
granted. With no fault granted there is a value. -/
structure Concludes {ε β : Type} (granted : ε → Prop) (holds : β → Prop) (outcome : Except ε β) : Prop where
  yields : Yields holds outcome
  fails : Fails granted outcome

namespace Concludes

variable {ε β γ : Type} {granted : ε → Prop} {holds : β → Prop} {kept : γ → Prop}

theorem ok {x : β} (held : holds x) : Concludes granted holds (.ok x) := ⟨.ok held, .ok x⟩

theorem error {fault : ε} (grants : granted fault) : Concludes granted holds (.error fault) :=
  ⟨.error fault, .error grants⟩

theorem andThen {first : Except ε γ} {next : γ → Except ε β} (before : Concludes granted kept first)
    (later : ∀ x, kept x → Concludes granted holds (next x)) : Concludes granted holds (first >>= next) where
  yields := before.yields.andThen fun x held => (later x held).yields
  fails := before.fails.bind fun x found => (later x (before.yields x found)).fails

theorem ite {condition : Prop} [Decidable condition] {left right : Except ε β}
    (first : condition → Concludes granted holds left) (second : ¬ condition → Concludes granted holds right) :
    Concludes granted holds (if condition then left else right) := by
  split
  · exact first ‹_›
  · exact second ‹_›

theorem iteThen {condition : Prop} [Decidable condition] {left right : Except ε γ} {next : γ → Except ε β}
    (first : condition → Concludes granted kept left) (second : ¬ condition → Concludes granted kept right)
    (later : ∀ x, kept x → Concludes granted holds (next x)) :
    Concludes granted holds (if condition then left >>= next else right >>= next) :=
  .ite (fun held => (first held).andThen later) fun failed => (second failed).andThen later

variable {outcome : Except ε β} (concludes : Concludes granted holds outcome)
include concludes

theorem mono {weaker : β → Prop} (weakens : ∀ x, holds x → weaker x) : Concludes granted weaker outcome :=
  ⟨fun x found => weakens x (concludes.yields x found), concludes.fails⟩

theorem and {also : β → Prop} (yields : Yields also outcome) :
    Concludes granted (fun x => holds x ∧ also x) outcome :=
  ⟨fun x found => ⟨concludes.yields x found, yields x found⟩, concludes.fails⟩

theorem grant {more : ε → Prop} (grants : ∀ fault, granted fault → more fault) :
    Concludes more holds outcome :=
  ⟨concludes.yields, fun fault failed => grants fault (concludes.fails fault failed)⟩

theorem mapError {φ : Type} {named : φ → Prop} {name : ε → φ}
    (names : ∀ fault, granted fault → named (name fault)) : Concludes named holds (outcome.mapError name) :=
  ⟨concludes.yields.mapError name, concludes.fails.mapError names⟩

end Concludes

/-- Whether an outcome is a value with a property. -/
abbrev Settles {ε β : Type} (holds : β → Prop) (outcome : Except ε β) : Prop :=
  Concludes (fun _ => False) holds outcome

theorem Concludes.exists_eq {ε β : Type} {holds : β → Prop} {outcome : Except ε β}
    (settles : Settles holds outcome) : ∃ x, outcome = .ok x ∧ holds x := by
  cases outcome with
  | ok x => exact ⟨x, rfl, settles.yields x rfl⟩
  | error fault => exact (settles.fails fault rfl).elim

/-! ### Agreement -/

/-- Two outcomes agree if both are values that are related or both are the same fault, places aside. -/
inductive Agree {β γ : Type} (related : β → γ → Prop) : Outcome β → Outcome γ → Prop where
  | value {x : β} {y : γ} (same : related x y) : Agree related (.ok x) (.ok y)
  | fault {f g : Fault} (same : f.unplaced = g.unplaced) : Agree related (.error f) (.error g)

namespace Agree

variable {β γ δ ε : Type} {related : β → γ → Prop}

theorem refl (outcome : Outcome β) : Agree Eq outcome outcome := by
  cases outcome with
  | ok value => exact .value rfl
  | error fault => exact .fault rfl

theorem trans {first second : Outcome β} {third : Outcome γ} (left : Agree Eq first second)
    (right : Agree related second third) : Agree related first third := by
  cases left with
  | value same =>
    subst same
    exact right
  | fault same =>
    cases right with
    | fault next => exact .fault (same.trans next)

theorem bind {later : δ → ε → Prop} {first : Outcome β} {second : Outcome γ}
    {next : β → Outcome δ} {other : γ → Outcome ε} (agree : Agree related first second)
    (continued : ∀ x y, related x y → Agree later (next x) (other y)) :
    Agree later (first >>= next) (second >>= other) := by
  cases agree with
  | value same => exact continued _ _ same
  | fault same => exact .fault same

theorem mapError_eq {first second : Outcome β} (agree : Agree Eq first second) :
    first.mapError Fault.unplaced = second.mapError Fault.unplaced := by
  cases agree with
  | value same => rw [same]
  | fault same => exact congrArg Except.error same

end Agree

end Reckoner

import Reckoner.Library.Install
import Reckoner.Proofs.Outcome
import Reckoner.Proofs.Registry.Announcement

/-! Calls that change a registry, as data: runs of them are lists. -/

namespace Reckoner

variable {α : Type}

namespace Registry

/-- The calls on constants and variables. -/
inductive ValueCall where
  | addConstant (name : String) (value : Datum) (overwrite : Bool)
  | setVariable (name : String) (value : Datum)
  | removeVariable (name : String)

/-- The host value that a call turns into a number. -/
def ValueCall.coerced? : ValueCall → Option Datum
  | .addConstant _ value _ => some value
  | .setVariable _ value => some value
  | .removeVariable _ => none

/-- The calls that change a registry. -/
inductive Call (α : Type) where
  | value (call : ValueCall)
  | addFunction (function : NamedFunction α)
  | addUnary (operator : UnaryOperator α)
  | addBinary (operator : BinaryOperator α)
  | copy
  | install (draws : Library.Draws) (vocabulary : Vocabulary)

def Call.coerced? : Call α → Option Datum
  | .value call => call.coerced?
  | _ => none

/-- A change that is refused leaves the registry as it is. -/
def settle (registry : Registry α) : Except Refusal (Registry α) → Registry α
  | .ok next => next
  | .error _ => registry

theorem settle_keeps {motive : Registry α → Prop} {registry : Registry α} (before : motive registry)
    {result : Except Refusal (Registry α)} (keeps : ∀ next, result = .ok next → motive next) :
    motive (registry.settle result) := by
  cases result with
  | ok next => exact keeps next rfl
  | error refusal => exact before

theorem attempt_left (registry : Registry α) (result : Except Refusal (Registry α)) :
    (registry.attempt result).1 = registry.settle result := by
  cases result with
  | ok next => rfl
  | error refusal => rfl

theorem coerce_eq_ok {registry : Registry α} {name : String} {value : Datum} {number : α}
    (coerced : registry.coerce name value = .ok number) :
    registry.system.coerce value = .ok number := by
  unfold Registry.coerce at coerced
  split at coerced
  · rename_i number found
    cases coerced
    exact found
  all_goals try (split at coerced)
  all_goals cases coerced

/-- A registration leaves what has been entered, also if it cannot be announced. -/
theorem register_left (registry : Registry α) (descriptor : Descriptor α) :
    (registry.register descriptor).1 = registry.settle (registry.enterDescriptor descriptor) := by
  unfold register
  cases registry.enterDescriptor descriptor with
  | error refusal => rfl
  | ok next => cases descriptor.announcement <;> rfl

/-- Entering a descriptor leaves all values, and lists its names behind those that are listed. -/
theorem enterDescriptor_leaves {registry next : Registry α} {descriptor : Descriptor α}
    (entered : registry.enterDescriptor descriptor = .ok next) :
    next.system = registry.system ∧ next.constants = registry.constants ∧ next.bindings = registry.bindings ∧
      next.names = remember descriptor.naming.names registry.names := by
  cases descriptor with
  | _ =>
    obtain ⟨_, _, same⟩ := bind_eq_ok.mp entered
    cases same
    exact ⟨rfl, rfl, rfl, rfl⟩

theorem register_of_refused {registry : Registry α} {descriptor : Descriptor α} {refusal : Refusal}
    (refused : registry.enterDescriptor descriptor = .error refusal) :
    registry.register descriptor = (registry, some refusal) := by
  rw [register, refused]

/-- A descriptor that is entered is registered if it can be announced. -/
theorem register_of_entered {registry next : Registry α} {descriptor : Descriptor α}
    (entered : registry.enterDescriptor descriptor = .ok next) :
    registry.register descriptor =
      (next, if descriptor.Writable then none else some (.failed NumberSystem.tooLong)) := by
  rw [register, entered]
  by_cases writable : descriptor.Writable
  · obtain ⟨text, announced⟩ := Descriptor.announcement_of_writable writable
    rw [if_pos writable, announced]
  · rw [if_neg writable, Descriptor.announcement_of_not_writable writable]

theorem register_eq_iff {registry next : Registry α} {descriptor : Descriptor α} :
    registry.register descriptor = (next, none) ↔
      registry.enterDescriptor descriptor = .ok next ∧ descriptor.Writable := by
  cases entered : registry.enterDescriptor descriptor with
  | error refusal => simp [register_of_refused entered]
  | ok middle => simp [register_of_entered entered]

theorem outcome_eq_ok_iff {attempt : Attempt α} {next : Registry α} :
    attempt.outcome = .ok next ↔ attempt = (next, none) := by
  obtain ⟨left, refusal⟩ := attempt
  cases refusal <;> simp [Attempt.outcome]

/-- A registration succeeds if the descriptor is entered and can be announced. -/
theorem add_eq_ok_iff {registry next : Registry α} {descriptor : Descriptor α} :
    registry.add descriptor = .ok next ↔
      registry.enterDescriptor descriptor = .ok next ∧ descriptor.Writable := by
  rw [add, outcome_eq_ok_iff, register_eq_iff]

theorem foldlM_add_of_writable {descriptors : List (Descriptor α)}
    (writable : ∀ descriptor ∈ descriptors, descriptor.Writable)
    (registry : Registry α) : descriptors.foldlM add registry = descriptors.foldlM enterDescriptor registry := by
  induction descriptors generalizing registry with
  | nil => rfl
  | cons descriptor rest ih =>
    obtain ⟨first, others⟩ := List.forall_mem_cons.mp writable
    have added : registry.add descriptor = registry.enterDescriptor descriptor := by
      cases entered : registry.enterDescriptor descriptor with
      | ok next => exact add_eq_ok_iff.mpr ⟨entered, first⟩
      | error refusal => rw [add, register_of_refused entered, Attempt.outcome]
    rw [List.foldlM_cons, List.foldlM_cons, added]
    exact bind_congr fun next => ih others next

def performValue (registry : Registry α) : ValueCall → Registry α
  | .addConstant name value overwrite => registry.settle (registry.addConstant name value overwrite)
  | .setVariable name value => registry.settle (registry.setVariable name value)
  | .removeVariable name => registry.removeVariable name

/-- The registry after a call. What a call that fails has entered by then stays. -/
def perform (registry : Registry α) : Call α → Registry α
  | .value call => registry.performValue call
  | .addFunction function => (registry.register (.function function)).1
  | .addUnary operator => (registry.register (.unary operator)).1
  | .addBinary operator => (registry.register (.binary operator)).1
  | .copy => registry.copy
  | .install draws vocabulary => (Library.install draws vocabulary registry).1

/-- The registry after some calls on an empty one. -/
def afterCalls (system : NumberSystem α) (settings : Settings) (calls : List (Call α)) :
    Registry α :=
  calls.foldl perform (empty system settings)

/-- The registry after some calls on constants and variables. -/
def withValues (registry : Registry α) (calls : List ValueCall) : Registry α :=
  calls.foldl performValue registry

end Registry

namespace Library

variable {registry next : Registry α} {base : Base α} {constants : List (String × α)} {draws : Draws}
  {vocabulary : Vocabulary} {register : Registration α}

theorem Base.system_of {system : NumberSystem α} {base : Base α} (based : Base.of system = .ok base) :
    base.system = system := by
  obtain ⟨zero, _, based⟩ := bind_eq_ok.mp based
  obtain ⟨one, _, same⟩ := bind_eq_ok.mp based
  cases same
  rfl

theorem registerConstant_left (entry : String × α) (registry : Registry α) :
    (registerConstant entry registry).1 =
      registry.settle (registry.addConstant entry.1 (registry.system.toDatum entry.2) true) :=
  registry.attempt_left _

theorem registerConstant_eq_iff {entry : String × α} : registerConstant entry registry = (next, none) ↔
    registry.addConstant entry.1 (registry.system.toDatum entry.2) true = .ok next := by
  unfold registerConstant
  cases registry.addConstant entry.1 (registry.system.toDatum entry.2) true <;> simp [Registry.attempt]

theorem registerChecked_eq_iff {made : Checked (Descriptor α)} : registerChecked made registry = (next, none) ↔
    ∃ descriptor, made = .ok descriptor ∧ registry.register descriptor = (next, none) := by
  cases made <;> simp [registerChecked]

/-- A registration of the library enters a constant or a descriptor that has passed its checks, or nothing. -/
theorem registration_keeps {motive : Registry α → Prop}
    (member : register ∈ registrations base constants draws vocabulary)
    (constant : ∀ entry ∈ constants, ∀ next,
      registry.addConstant entry.1 (registry.system.toDatum entry.2) true = .ok next → motive next)
    (callable : ∀ descriptor, .ok descriptor ∈ madeDescriptors base draws vocabulary → ∀ next,
      registry.enterDescriptor descriptor = .ok next → motive next)
    (before : motive registry) : motive (register registry).1 := by
  rcases List.mem_append.mp member with entered | entered
  · obtain ⟨entry, listed, rfl⟩ := List.mem_map.mp entered
    rw [registerConstant_left]
    exact Registry.settle_keeps before (constant entry listed)
  · obtain ⟨made, listed, rfl⟩ := List.mem_map.mp entered
    cases made with
    | error flaws => exact before
    | ok descriptor =>
      change motive (registry.register descriptor).1
      rw [Registry.register_left]
      exact Registry.settle_keeps before (callable descriptor listed)

/-- What every registration keeps, a run of them keeps as far as it comes. -/
theorem runAll_keeps {motive : Registry α → Prop} {registrations : List (Registration α)}
    (keeps : ∀ register ∈ registrations, ∀ registry, motive registry → motive (register registry).1)
    (before : motive registry) : motive (runAll registrations registry).1 := by
  induction registrations generalizing registry with
  | nil => exact before
  | cons register rest ih =>
    obtain ⟨first, others⟩ := List.forall_mem_cons.mp keeps
    have after := first registry before
    rw [runAll]
    generalize register registry = attempt at after
    obtain ⟨left, refusal⟩ := attempt
    cases refusal with
    | none => exact ih others after
    | some refusal => exact after

/-- Registrations of which each succeeds, after those before it, are all made. -/
theorem runAll_complete {kept : Registry α → Prop} {registrations : List (Registration α)}
    (each : ∀ register ∈ registrations, ∀ registry, kept registry →
      ∃ next, register registry = (next, none) ∧ kept next) (before : kept registry) :
    ∃ final, runAll registrations registry = (final, none) := by
  induction registrations generalizing registry with
  | nil => exact ⟨registry, rfl⟩
  | cons register rest ih =>
    obtain ⟨first, others⟩ := List.forall_mem_cons.mp each
    obtain ⟨next, ran, after⟩ := first registry before
    rw [runAll, ran]
    exact ih others after

theorem runAll_ran {registrations : List (Registration α)} (complete : (runAll registrations registry).2 = none) :
    ∀ register ∈ registrations, ∃ before after, register before = (after, none) := by
  induction registrations generalizing registry with
  | nil => exact List.forall_mem_nil _
  | cons register rest ih =>
    rw [runAll] at complete
    rcases ran : register registry with ⟨next, refusal | refusal⟩
    · rw [ran] at complete
      exact List.forall_mem_cons.mpr ⟨⟨registry, next, ran⟩, ih complete⟩
    · rw [ran] at complete
      cases complete

theorem install_keeps {motive : Registry α → Prop}
    (keeps : ∀ base constants, Base.of registry.system = .ok base → registry.system.constants = .ok constants →
      ∀ register ∈ registrations base constants draws vocabulary, ∀ before, motive before → motive (register before).1)
    (before : motive registry) : motive (install draws vocabulary registry).1 := by
  simp only [install]
  split
  · rename_i base constants prepared
    obtain ⟨made, based, prepared⟩ := bind_eq_ok.mp prepared
    obtain ⟨found, given, same⟩ := bind_eq_ok.mp prepared
    cases same
    exact runAll_keeps (keeps base constants based given) before
  · exact before

theorem install_of_withLibrary {system : NumberSystem α} {settings : Settings}
    (installed : withLibrary draws system settings = .ok registry) :
    (install draws Vocabulary.standard (Registry.empty system settings)).1 = registry := by
  rw [withLibrary, Registry.outcome_eq_ok_iff] at installed
  rw [installed]

end Library

end Reckoner

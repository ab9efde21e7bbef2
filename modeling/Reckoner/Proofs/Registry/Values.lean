import Reckoner.Proofs.Library.Closure
import Reckoner.Proofs.Registry.Implementations

/-! Values of a registry: a property that the number system keeps is one of all constants and variables
and is kept by all functions and operators, once the library is installed and whatever is made of
constants and variables. -/

namespace Reckoner

variable {α : Type} {holds : α → Prop}

def UnaryOperator.Keeps (operator : UnaryOperator α) (holds : α → Prop) : Prop :=
  ∀ x, holds x → Yields holds (operator.run x)

def BinaryOperator.Keeps (operator : BinaryOperator α) (holds : α → Prop) : Prop :=
  ∀ x y, holds x → holds y → Yields holds (operator.run x y)

def NamedFunction.Keeps (function : NamedFunction α) (holds : α → Prop) : Prop :=
  ∀ place, Library.KeepsAll holds (function.run place)

theorem NamedFunction.Keeps.call {function : NamedFunction α} (keeps : function.Keeps holds) (place : Nat) :
    Library.KeepsAll holds (function.call place) := by
  intro arguments held
  exact .ite (keeps place arguments held) (.bind fun _ _ => .error _)

/-- All that the library makes keeps what its number system is closed under. -/
theorem Library.Base.Keeps.makes {base : Base α} (keeps : base.Keeps holds) (draws : Draws) :
    Makes base draws (NamedFunction.Keeps · holds) (UnaryOperator.Keeps · holds)
      (BinaryOperator.Keeps · holds) where
  functions := by
    intro row member draft function _ _ made
    obtain ⟨_, rfl⟩ := Descriptor.Draft.function_eq_ok made
    exact functionRows_keep keeps draws row member
  unary := by
    intro row member draft operator made
    obtain ⟨_, _, same⟩ := Descriptor.Draft.unary_eq_ok made
    rw [UnaryOperator.Keeps, same]
    exact unaryRows_keep keeps row member
  binary := by
    intro row member draft operator made
    obtain ⟨_, _, same⟩ := Descriptor.Draft.binary_eq_ok made
    rw [BinaryOperator.Keeps, same]
    exact binaryRows_keep keeps row member

namespace Registry

variable {registry next : Registry α}

/-- Whether all constants and variables of a registry have a property. -/
structure Values (registry : Registry α) (holds : α → Prop) : Prop where
  constants : ∀ entry ∈ registry.constants, holds entry.2.2
  bindings : ∀ entry ∈ registry.bindings, holds entry.2

/-- Whether a property is closed in a registry: all its values have it, and what it computes of numbers
that have it has it too. -/
structure Closed (registry : Registry α) (holds : α → Prop) : Prop where
  system : registry.system.Closed holds
  values : registry.Values holds
  implementations : registry.All (NamedFunction.Keeps · holds) (UnaryOperator.Keeps · holds)
    (BinaryOperator.Keeps · holds)

/-- Whether a registry keeps a property whatever its constants and variables are set to. -/
structure Keeps (registry : Registry α) (holds : α → Prop) : Prop extends registry.Closed holds where
  coerces : ∀ value, Yields holds (registry.system.coerce value)

/-! ### What is looked up -/

namespace Values

theorem constant (values : registry.Values holds) {name : String} {value : α}
    (found : registry.getConstant? name = some value) : holds value := by
  obtain ⟨entry, entered, rfl⟩ := Option.map_eq_some_iff.mp found
  exact values.constants _ (Table.mem_of_find? entered)

theorem variable_ (values : registry.Values holds) {name : String} {value : α}
    (found : registry.getVariable? name = some value) : holds value :=
  values.bindings _ (Table.mem_of_find? found)

end Values

/-! ### Constants and variables -/

theorem performValue_system (registry : Registry α) (call : ValueCall) :
    (registry.performValue call).system = registry.system := by
  cases call with
  | addConstant name value overwrite =>
    apply settle_keeps (motive := (Registry.system · = registry.system)) rfl
    intro next added
    obtain ⟨_, _, added⟩ := bind_eq_ok.mp added
    obtain ⟨_, _, same⟩ := bind_eq_ok.mp added
    cases same
    rfl
  | setVariable name value =>
    apply settle_keeps (motive := (Registry.system · = registry.system)) rfl
    intro next added
    obtain ⟨_, _, added⟩ := bind_eq_ok.mp added
    obtain ⟨_, _, same⟩ := bind_eq_ok.mp added
    cases same
    rfl
  | removeVariable name => rfl

theorem withValues_system (registry : Registry α) (calls : List ValueCall) :
    (registry.withValues calls).system = registry.system := by
  induction calls generalizing registry with
  | nil => rfl
  | cons call rest ih => exact (ih _).trans (registry.performValue_system call)

namespace Values

theorem empty (system : NumberSystem α) (settings : Settings) :
    (Registry.empty system settings).Values holds :=
  ⟨nofun, nofun⟩

theorem storeConstant (values : registry.Values holds) (name : String) {value : α}
    (held : holds value) : (registry.storeConstant name value).Values holds :=
  { values with
    constants := by
      intro entry member
      rcases Table.mem_insert member with same | present
      · rw [same]
        exact held
      · exact values.constants entry present }

theorem performValue (values : registry.Values holds) {call : ValueCall}
    (coerces : ∀ value, call.coerced? = some value → Yields holds (registry.system.coerce value)) :
    (registry.performValue call).Values holds := by
  cases call with
  | addConstant name value overwrite =>
    apply settle_keeps (motive := (Registry.Values · holds)) values
    intro next added
    obtain ⟨_, _, added⟩ := bind_eq_ok.mp added
    obtain ⟨number, coerced, same⟩ := bind_eq_ok.mp added
    cases same
    exact values.storeConstant name (coerces value rfl number (coerce_eq_ok coerced))
  | setVariable name value =>
    apply settle_keeps (motive := (Registry.Values · holds)) values
    intro next added
    obtain ⟨_, _, added⟩ := bind_eq_ok.mp added
    obtain ⟨number, coerced, same⟩ := bind_eq_ok.mp added
    cases same
    refine { values with bindings := ?_ }
    intro entry member
    rcases Table.mem_insert member with same | present
    · rw [same]
      exact coerces value rfl number (coerce_eq_ok coerced)
    · exact values.bindings entry present
  | removeVariable name =>
    exact { values with
      bindings := fun entry member => values.bindings entry (List.mem_filter.mp member).1 }

theorem withValues (values : registry.Values holds)
    (coerces : ∀ value, Yields holds (registry.system.coerce value)) (calls : List ValueCall) :
    (registry.withValues calls).Values holds := by
  induction calls generalizing registry with
  | nil => exact values
  | cons call rest ih =>
    refine ih (values.performValue fun value _ => coerces value) ?_
    rw [performValue_system]
    exact coerces

end Values

theorem Closed.withValues (closed : registry.Closed holds) {calls : List ValueCall}
    (values : (registry.withValues calls).Values holds) :
    (registry.withValues calls).Closed holds where
  system := by
    rw [withValues_system]
    exact closed.system
  values := values
  implementations := closed.implementations.withValues calls

theorem Keeps.withValues (keeps : registry.Keeps holds) (calls : List ValueCall) :
    (registry.withValues calls).Keeps holds where
  toClosed := keeps.toClosed.withValues (keeps.values.withValues keeps.coerces calls)
  coerces := by
    rw [withValues_system]
    exact keeps.coerces

end Registry

/-! ### The library -/

namespace Library

variable {draws : Draws} {registry : Registry α}

/-- An installation leaves the number system and enters values that the library has. -/
theorem install_values (values : registry.Values holds) (given : registry.system.Registers holds)
    (draws : Draws) (vocabulary : Vocabulary) :
    (install draws vocabulary registry).1.Values holds ∧
      (install draws vocabulary registry).1.system = registry.system := by
  refine install_keeps (motive := fun next => next.Values holds ∧ next.system = registry.system) ?_ ⟨values, rfl⟩
  rintro base constants _ found register member before ⟨values, same⟩
  have held := given constants found
  rw [← same] at held
  refine registration_keeps (motive := fun next => next.Values holds ∧ next.system = registry.system) member ?_ ?_
    ⟨values, same⟩
  · intro entry listed next added
    obtain ⟨_, _, added⟩ := bind_eq_ok.mp added
    obtain ⟨number, coerced, entered⟩ := bind_eq_ok.mp added
    cases entered
    exact ⟨values.storeConstant _ (held entry listed number (Registry.coerce_eq_ok coerced)), same⟩
  · intro descriptor _ next entered
    obtain ⟨kept, constants, bindings, _⟩ := Registry.enterDescriptor_leaves entered
    exact ⟨⟨constants ▸ values.constants, bindings ▸ values.bindings⟩, kept.trans same⟩

theorem withLibrary_closed {system : NumberSystem α} (closed : system.Closed holds) {settings : Settings}
    (installed : withLibrary draws system settings = .ok registry) : registry.Closed holds := by
  obtain ⟨values, same⟩ := install_values (Registry.Values.empty system settings) closed.constants draws
    Vocabulary.standard
  rw [install_of_withLibrary installed] at values same
  refine ⟨?_, values, ?_⟩
  · rw [same]
    exact closed
  · exact .withLibrary (fun base based => (Base.keeps_of closed based).makes draws) installed

theorem withLibrary_system {system : NumberSystem α} {settings : Settings}
    (installed : withLibrary draws system settings = .ok registry) : registry.system = system := by
  have kept := (@install_values α (fun _ => True) _ (Registry.Values.empty system settings)
    (fun _ _ _ _ _ _ => trivial) draws Vocabulary.standard).2
  rw [install_of_withLibrary installed] at kept
  exact kept

theorem withLibrary_keeps {system : NumberSystem α} (keeps : system.Keeps holds) {settings : Settings}
    (installed : withLibrary draws system settings = .ok registry) : registry.Keeps holds where
  toClosed := withLibrary_closed keeps.toClosed installed
  coerces := by
    rw [withLibrary_system installed]
    exact keeps.coerce

end Library

/-! ### Runs of calls -/

namespace Registry

variable {registry : Registry α}

theorem Values.register (values : registry.Values holds) (descriptor : Descriptor α) :
    (registry.register descriptor).1.Values holds ∧ (registry.register descriptor).1.system = registry.system := by
  rw [register_left]
  apply settle_keeps (motive := fun next => next.Values holds ∧ next.system = registry.system) ⟨values, rfl⟩
  intro next entered
  obtain ⟨same, constants, bindings, _⟩ := enterDescriptor_leaves entered
  exact ⟨⟨constants ▸ values.constants, bindings ▸ values.bindings⟩, same⟩

theorem Values.perform {system : NumberSystem α} (given : system.Registers holds)
    (kept : registry.Values holds ∧ registry.system = system) {call : Call α}
    (coerces : ∀ value, call.coerced? = some value → Yields holds (system.coerce value)) :
    (registry.perform call).Values holds ∧ (registry.perform call).system = system := by
  obtain ⟨values, rfl⟩ := kept
  cases call with
  | value call => exact ⟨values.performValue coerces, registry.performValue_system call⟩
  | addFunction function => exact values.register (.function function)
  | addUnary operator => exact values.register (.unary operator)
  | addBinary operator => exact values.register (.binary operator)
  | copy => exact ⟨{ values with }, rfl⟩
  | install draws vocabulary => exact Library.install_values values given draws vocabulary

theorem Values.afterCalls {system : NumberSystem α} (settings : Settings) (given : system.Registers holds)
    {calls : List (Call α)}
    (coerces : ∀ call ∈ calls, ∀ value, call.coerced? = some value → Yields holds (system.coerce value)) :
    (Registry.afterCalls system settings calls).Values holds :=
  (List.foldlRecOn (motive := fun next => next.Values holds ∧ next.system = system) calls Registry.perform
    ⟨Values.empty system settings, rfl⟩
    fun _ kept call member => Values.perform given kept (coerces call member)).1

end Registry

end Reckoner

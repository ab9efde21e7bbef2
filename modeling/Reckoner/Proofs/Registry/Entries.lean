import Reckoner.Proofs.Registry.Names
import Reckoner.Proofs.Registry.WellNamed
import Mathlib.Data.List.Nodup

/-! What names stand for. A name is looked up by its folding, so spellings with one folding stand for the
same, and a name is that of a function or an operator exactly if a listed name has its folding. What is
registered under a name is what the name stands for then. -/

namespace Reckoner

open Reckoner.Unicode

variable {α : Type}

theorem fold_eq_iff {first second : String} :
    fold first = fold second ↔ foldChars first.toList = foldChars second.toList := by
  constructor
  · intro same
    simpa [fold] using congrArg String.toList same
  · exact congrArg String.ofList

namespace Registry

/-- What a name can stand for. -/
inductive Entry (α : Type) where
  | constant (value : α)
  | binding (value : α)
  | function (function : NamedFunction α)
  | unary (operator : UnaryOperator α)
  | binary (operator : BinaryOperator α)

/-- Whether a name stands for an entry. -/
def Has (registry : Registry α) (name : String) : Entry α → Prop
  | .constant value => registry.getConstant? name = some value
  | .binding value => registry.getVariable? name = some value
  | .function function => registry.getFunction? name = some function
  | .unary operator => registry.getUnary? name = some operator
  | .binary operator => registry.getBinary? name = some operator

/-- Whether a name is that of a function or an operator. -/
def IsCallable (registry : Registry α) (name : String) : Prop :=
  (registry.getFunction? name).isSome = true ∨ (registry.getUnary? name).isSome = true ∨
    (registry.getBinary? name).isSome = true

variable {registry : Registry α} {name : String}

/-! ### Tables that names are looked up in -/

theorem getFunction?_isSome_iff :
    (registry.getFunction? name).isSome = true ↔ fold name ∈ registry.functions.keys := by
  rw [getFunction?, Option.isSome_map, ← Table.contains_iff, Table.contains]

theorem getUnary?_isSome_iff :
    (registry.getUnary? name).isSome = true ↔ fold name ∈ registry.unary.keys := by
  rw [getUnary?, Option.isSome_map, ← Table.contains_iff, Table.contains]

theorem getBinary?_isSome_iff :
    (registry.getBinary? name).isSome = true ↔ fold name ∈ registry.binary.keys := by
  rw [getBinary?, Option.isSome_map, ← Table.contains_iff, Table.contains]

theorem getConstant?_isSome_iff :
    (registry.getConstant? name).isSome = true ↔ fold name ∈ registry.constants.keys := by
  rw [getConstant?, Option.isSome_map, ← Table.contains_iff, Table.contains]

theorem getVariable?_isSome_iff :
    (registry.getVariable? name).isSome = true ↔ name ∈ registry.bindings.keys := by
  rw [getVariable?, ← Table.contains_iff, Table.contains]

section Folding

variable {other : String} (same : fold other = fold name)

include same

theorem getFunction?_congr : registry.getFunction? other = registry.getFunction? name := by
  rw [getFunction?, getFunction?, same]

theorem getUnary?_congr : registry.getUnary? other = registry.getUnary? name := by
  rw [getUnary?, getUnary?, same]

theorem getBinary?_congr : registry.getBinary? other = registry.getBinary? name := by
  rw [getBinary?, getBinary?, same]

end Folding

/-! ### Names of functions and operators -/

namespace NamesApart

theorem eq_of_fold (apart : registry.NamesApart) {first second : String}
    (left : first ∈ registry.functionNames) (right : second ∈ registry.functionNames)
    (same : fold first = fold second) : first = second := by
  have distinct : (registry.functionNames.map fold).Nodup := by
    rw [apart.folded]
    exact apart.distinct
  exact List.inj_on_of_nodup_map distinct left right same

theorem mem_keys_iff (apart : registry.NamesApart) :
    fold name ∈ registry.names.keys ↔ ∃ spelled ∈ registry.functionNames, fold spelled = fold name := by
  rw [← apart.folded, List.mem_map]

/-- The names of functions and operators are the spellings of the listed ones. -/
theorem isCallable_iff (apart : registry.NamesApart) :
    registry.IsCallable name ↔ ∃ spelled ∈ registry.functionNames, fold spelled = fold name := by
  rw [IsCallable, getFunction?_isSome_iff, getUnary?_isSome_iff, getBinary?_isSome_iff,
    ← apart.covered, apart.mem_keys_iff]

theorem isCallable_of_mem (apart : registry.NamesApart) (member : name ∈ registry.functionNames) :
    registry.IsCallable name :=
  apart.isCallable_iff.mpr ⟨name, member, rfl⟩

theorem getFunction?_of_operator (apart : registry.NamesApart)
    (operator : (registry.getUnary? name).isSome = true ∨ (registry.getBinary? name).isSome = true) :
    registry.getFunction? name = none := by
  rw [← Option.not_isSome_iff_eq_none, getFunction?_isSome_iff]
  intro member
  obtain ⟨noUnary, noBinary⟩ := apart.function_operator _ member
  rcases operator with unary | binary
  · exact noUnary (getUnary?_isSome_iff.mp unary)
  · exact noBinary (getBinary?_isSome_iff.mp binary)

end NamesApart

/-! ### Registrations -/

/-- What calls enter, and under which names. A call that succeeds has entered what it registers. -/
inductive Registers (registry next : Registry α) : Call α → String → Entry α → Prop where
  | constant {name datum overwrite value}
      (added : registry.addConstant name datum overwrite = .ok next)
      (coerced : registry.coerce name datum = .ok value) :
    Registers registry next (.value (.addConstant name datum overwrite)) name (.constant value)
  | binding {name datum value} (added : registry.setVariable name datum = .ok next)
      (coerced : registry.coerce name datum = .ok value) :
    Registers registry next (.value (.setVariable name datum)) name (.binding value)
  | function {function name} (entered : registry.enterFunction function = .ok next)
      (member : name ∈ function.names) :
    Registers registry next (.addFunction function) name (.function function)
  | unary {operator name} (entered : registry.enterUnary operator = .ok next)
      (member : name ∈ operator.names) :
    Registers registry next (.addUnary operator) name (.unary operator)
  | binary {operator name} (entered : registry.enterBinary operator = .ok next)
      (member : name ∈ operator.names) :
    Registers registry next (.addBinary operator) name (.binary operator)

theorem find?_enter {β : Type} (names : List String) (item : β) (table : Table β) (key : String) :
    Table.find? (enter names item table) key =
      if key ∈ names.map fold then some item else table.find? key := by
  induction names generalizing table with
  | nil => simp [enter]
  | cons first rest ih =>
    rw [enter, List.foldl_cons, ← enter, ih, List.map_cons]
    by_cases same : key = fold first
    · subst same
      simp [Table.find?_insert_self]
    · simp [Table.find?_insert_of_ne same, same]

theorem find?_enter_self {β : Type} {names : List String} (member : name ∈ names) (item : β)
    (table : Table β) : Table.find? (enter names item table) (fold name) = some item := by
  rw [find?_enter, if_pos (List.mem_map_of_mem member)]

namespace Registers

variable {next : Registry α} {call : Call α} {entry : Entry α}

theorem check (registers : registry.Registers next call name entry) (checked : call.Checked) :
    Name.check name = .ok () := by
  cases registers with
  | constant added =>
    obtain ⟨_, checked, _⟩ := bind_eq_ok.mp added
    obtain ⟨_, valueName, _⟩ := bind_eq_ok.mp checked
    exact WellNamed.check_of_checkValueName valueName
  | binding added =>
    obtain ⟨_, valueName, _⟩ := bind_eq_ok.mp added
    exact WellNamed.check_of_checkValueName valueName
  | function _ member =>
    obtain ⟨_, _, made⟩ := checked
    exact WellNamed.function_checked made name member
  | unary _ member =>
    obtain ⟨_, _, made⟩ := checked
    exact WellNamed.unary_checked made name member
  | binary _ member =>
    obtain ⟨_, _, made⟩ := checked
    exact WellNamed.binary_checked made name member

theorem has (registers : registry.Registers next call name entry) : next.Has name entry := by
  cases registers with
  | constant added coerced =>
    obtain ⟨_, _, added⟩ := bind_eq_ok.mp added
    obtain ⟨number, found, same⟩ := bind_eq_ok.mp added
    cases found.symm.trans coerced
    cases same
    simp [Has, getConstant?, storeConstant, Table.find?_insert_self]
  | binding added coerced =>
    obtain ⟨_, _, added⟩ := bind_eq_ok.mp added
    obtain ⟨number, found, same⟩ := bind_eq_ok.mp added
    cases found.symm.trans coerced
    cases same
    exact Table.find?_insert_self _ _ _
  | function entered member =>
    obtain ⟨_, _, same⟩ := bind_eq_ok.mp entered
    cases same
    simp [Has, getFunction?, find?_enter_self member]
  | unary entered member =>
    obtain ⟨_, _, same⟩ := bind_eq_ok.mp entered
    cases same
    simp [Has, getUnary?, find?_enter_self member]
  | binary entered member =>
    obtain ⟨_, _, same⟩ := bind_eq_ok.mp entered
    cases same
    simp [Has, getBinary?, find?_enter_self member]

end Registers

end Registry

end Reckoner

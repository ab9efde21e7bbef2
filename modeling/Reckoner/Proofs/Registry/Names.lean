import Reckoner.Proofs.Outcome
import Reckoner.Proofs.Registry.Calls

/-! Names of a registry: whatever calls are made, in whatever order, no folded name stands for things of
two categories, and the list of function names has every name of a function or operator once. -/

namespace Reckoner.Registry

open Reckoner.Unicode

variable {α : Type} {registry next : Registry α}

/-! ### The invariant -/

/-- The categories of names are apart, and `names` covers functions and operators. -/
structure NamesApart (registry : Registry α) : Prop where
  constant_variable : ∀ name ∈ registry.bindings.keys, fold name ∉ registry.constants.keys
  constant_function : ∀ key ∈ registry.constants.keys, key ∉ registry.names.keys
  variable_function : ∀ name ∈ registry.bindings.keys, fold name ∉ registry.names.keys
  function_operator : ∀ key ∈ registry.functions.keys,
    key ∉ registry.unary.keys ∧ key ∉ registry.binary.keys
  folded : registry.functionNames.map fold = registry.names.keys
  distinct : registry.names.keys.Nodup
  covered : ∀ key, key ∈ registry.names.keys ↔
    key ∈ registry.functions.keys ∨ key ∈ registry.unary.keys ∨ key ∈ registry.binary.keys

theorem NamesApart.empty (system : NumberSystem α) (settings : Settings) :
    NamesApart (empty system settings) := by
  constructor <;> simp [Registry.empty, Table.keys, functionNames, Table.values]

/-! ### Tables under folded names -/

theorem mem_keys_enter {β : Type} {names : List String} {item : β} {table : Table β} {key : String} :
    key ∈ Table.keys (enter names item table) ↔ key ∈ names.map fold ∨ key ∈ table.keys := by
  induction names generalizing table with
  | nil => simp [enter]
  | cons name rest ih =>
    rw [enter, List.foldl_cons, ← enter, ih, Table.mem_keys_insert, List.map_cons, List.mem_cons,
      or_left_comm, or_assoc]

/-- Spellings are kept under their foldings, none of them twice. -/
def Folded (names : Table String) : Prop := names.values.map fold = names.keys ∧ names.keys.Nodup

theorem Folded.insertNew {names : Table String} (folded : Folded names) (name : String) :
    Folded (Table.insertNew (fold name) name names) := by
  obtain ⟨same, distinct⟩ := folded
  refine ⟨?_, Table.nodup_keys_insertNew distinct⟩
  unfold Table.insertNew
  split
  · exact same
  · simpa [Table.values, Table.keys] using same

theorem Folded.remember {table : Table String} (folded : Folded table) (names : List String) :
    Folded (remember names table) := by
  induction names generalizing table with
  | nil => exact folded
  | cons name rest ih => exact ih (folded.insertNew name)

theorem mem_keys_remember {names : List String} {table : Table String} {key : String} :
    key ∈ (remember names table).keys ↔ key ∈ names.map fold ∨ key ∈ table.keys := by
  induction names generalizing table with
  | nil => simp [remember]
  | cons name rest ih =>
    rw [remember, List.foldl_cons, ← remember, ih, Table.mem_keys_insertNew, List.map_cons,
      List.mem_cons, or_left_comm, or_assoc]

/-! ### Checks -/

theorem hasVariableFolded_eq_false_iff {key : String} : registry.hasVariableFolded key = false ↔
    ∀ name ∈ registry.bindings.keys, fold name ≠ key := by
  simp [hasVariableFolded, Table.keys]

theorem contains_eq_false_iff {β : Type} {table : Table β} {key : String} :
    table.contains key = false ↔ key ∉ table.keys := by
  rw [← Bool.not_eq_true, Table.contains_iff]

theorem checkValueName_eq_ok_iff {name : String} {role : ValueRole} :
    registry.checkValueName name role = .ok () ↔ Name.check name = .ok () ∧
      (role ≠ .fixed → fold name ∉ registry.constants.keys) ∧
      (role ≠ .settable → ∀ other ∈ registry.bindings.keys, fold other ≠ fold name) ∧
      fold name ∉ registry.names.keys := by
  unfold checkValueName
  cases Name.check name with
  | error message => exact ⟨nofun, fun passed => nomatch passed.1⟩
  | ok =>
    simp only [guard_eq_ok_iff, lastGuard_eq_ok_iff, not_and, Bool.not_eq_true,
      contains_eq_false_iff, hasVariableFolded_eq_false_iff, true_and]

theorem checkFunctionNames_eq_ok_iff {isFunction : Bool} {names : List String} :
    registry.checkFunctionNames isFunction names = .ok () ↔
      ∀ key ∈ names.map fold, key ∉ registry.constants.keys ∧
        (∀ other ∈ registry.bindings.keys, fold other ≠ key) ∧
        (isFunction = true → key ∉ registry.unary.keys ∧ key ∉ registry.binary.keys) ∧
        (isFunction = false → key ∉ registry.functions.keys) := by
  induction names with
  | nil => simp [checkFunctionNames]
  | cons name rest ih =>
    rw [List.map_cons, List.forall_mem_cons, ← ih, checkFunctionNames, guard_eq_ok_iff,
      guard_eq_ok_iff, guard_eq_ok_iff, guard_eq_ok_iff, Bool.not_eq_true, Bool.not_eq_true,
      contains_eq_false_iff, hasVariableFolded_eq_false_iff]
    cases isFunction with
    | true => simp [contains_eq_false_iff, and_assoc]
    | false => simp [contains_eq_false_iff, and_assoc]

/-! ### Steps -/

theorem NamesApart.storeConstant (apart : NamesApart registry) {name : String}
    (unset : ∀ other ∈ registry.bindings.keys, fold other ≠ fold name)
    (unnamed : fold name ∉ registry.names.keys) (value : α) :
    NamesApart (registry.storeConstant name value) where
  constant_variable other member found := by
    rcases Table.mem_keys_insert.mp found with same | present
    · exact unset other member same
    · exact apart.constant_variable other member present
  constant_function key member := by
    rcases Table.mem_keys_insert.mp member with rfl | present
    · exact unnamed
    · exact apart.constant_function key present
  variable_function := apart.variable_function
  function_operator := apart.function_operator
  folded := apart.folded
  distinct := apart.distinct
  covered := apart.covered

theorem NamesApart.checkedConstant (apart : NamesApart registry) {name : String} {overwrite : Bool}
    (checked : registry.checkConstant name overwrite = .ok ()) (value : α) :
    NamesApart (registry.storeConstant name value) := by
  obtain ⟨_, valueName, _⟩ := bind_eq_ok.mp checked
  obtain ⟨_, _, unset, unnamed⟩ := checkValueName_eq_ok_iff.mp valueName
  exact apart.storeConstant (unset (by decide)) unnamed value

theorem NamesApart.addConstant (apart : NamesApart registry) {name : String} {value : Datum}
    {overwrite : Bool} (added : registry.addConstant name value overwrite = .ok next) :
    NamesApart next := by
  obtain ⟨_, checked, added⟩ := bind_eq_ok.mp added
  obtain ⟨number, _, same⟩ := bind_eq_ok.mp added
  cases same
  exact apart.checkedConstant checked number

theorem NamesApart.setVariable (apart : NamesApart registry) {name : String} {value : Datum}
    (added : registry.setVariable name value = .ok next) : NamesApart next := by
  obtain ⟨_, checked, added⟩ := bind_eq_ok.mp added
  obtain ⟨number, _, same⟩ := bind_eq_ok.mp added
  cases same
  obtain ⟨_, undefined, _, unnamed⟩ := checkValueName_eq_ok_iff.mp checked
  refine { apart with constant_variable := ?_, variable_function := ?_ }
  · intro other member
    rcases Table.mem_keys_insert.mp member with rfl | present
    · exact undefined (by decide)
    · exact apart.constant_variable other present
  · intro other member
    rcases Table.mem_keys_insert.mp member with rfl | present
    · exact unnamed
    · exact apart.variable_function other present

theorem NamesApart.removeVariable (apart : NamesApart registry) (name : String) :
    NamesApart (registry.removeVariable name) := by
  have kept : ∀ other ∈ (registry.removeVariable name).bindings.keys, other ∈ registry.bindings.keys := by
    intro other member
    exact (List.filter_sublist.map Prod.fst).mem member
  exact { apart with
    constant_variable := fun other member => apart.constant_variable other (kept other member)
    variable_function := fun other member => apart.variable_function other (kept other member) }

/-- New names of functions or operators that have passed the check keep the categories apart. -/
theorem NamesApart.extend (apart : NamesApart registry) {isFunction : Bool} {names : List String}
    (checked : registry.checkFunctionNames isFunction names = .ok ())
    {functions : Table (Registered (NamedFunction α))} {unary : Table (Registered (UnaryOperator α))}
    {binary : Table (Registered (BinaryOperator α))}
    (function_operator : ∀ key ∈ functions.keys, key ∉ unary.keys ∧ key ∉ binary.keys)
    (covered : ∀ key, (key ∈ functions.keys ∨ key ∈ unary.keys ∨ key ∈ binary.keys) ↔
      key ∈ names.map fold ∨ key ∈ registry.functions.keys ∨ key ∈ registry.unary.keys ∨
        key ∈ registry.binary.keys) (serial : Nat) :
    NamesApart { registry with
      functions := functions
      unary := unary
      binary := binary
      names := remember names registry.names
      nextSerial := serial } where
  constant_variable := apart.constant_variable
  constant_function key member found := by
    rcases mem_keys_remember.mp found with new | present
    · exact (checkFunctionNames_eq_ok_iff.mp checked key new).1 member
    · exact apart.constant_function key member present
  variable_function name member found := by
    rcases mem_keys_remember.mp found with new | present
    · exact (checkFunctionNames_eq_ok_iff.mp checked (fold name) new).2.1 name member rfl
    · exact apart.variable_function name member present
  function_operator := function_operator
  folded := (Folded.remember ⟨apart.folded, apart.distinct⟩ names).1
  distinct := (Folded.remember ⟨apart.folded, apart.distinct⟩ names).2
  covered key := by rw [mem_keys_remember, apart.covered, covered]

theorem NamesApart.enterFunction (apart : NamesApart registry) {function : NamedFunction α}
    (entered : registry.enterFunction function = .ok next) : NamesApart next := by
  obtain ⟨_, checked, same⟩ := bind_eq_ok.mp entered
  cases same
  refine apart.extend checked ?_ ?_ _
  · intro key member
    rcases mem_keys_enter.mp member with new | present
    · exact (checkFunctionNames_eq_ok_iff.mp checked key new).2.2.1 rfl
    · exact apart.function_operator key present
  · intro key
    rw [mem_keys_enter, or_assoc]

theorem NamesApart.enterUnary (apart : NamesApart registry) {operator : UnaryOperator α}
    (entered : registry.enterUnary operator = .ok next) : NamesApart next := by
  obtain ⟨_, checked, same⟩ := bind_eq_ok.mp entered
  cases same
  refine apart.extend checked ?_ ?_ _
  · intro key member
    refine ⟨?_, (apart.function_operator key member).2⟩
    intro found
    rcases mem_keys_enter.mp found with new | present
    · exact (checkFunctionNames_eq_ok_iff.mp checked key new).2.2.2 rfl member
    · exact (apart.function_operator key member).1 present
  · intro key
    rw [mem_keys_enter]
    grind

theorem NamesApart.enterBinary (apart : NamesApart registry) {operator : BinaryOperator α}
    (entered : registry.enterBinary operator = .ok next) : NamesApart next := by
  obtain ⟨_, checked, same⟩ := bind_eq_ok.mp entered
  cases same
  refine apart.extend checked ?_ ?_ _
  · intro key member
    refine ⟨(apart.function_operator key member).1, ?_⟩
    intro found
    rcases mem_keys_enter.mp found with new | present
    · exact (checkFunctionNames_eq_ok_iff.mp checked key new).2.2.2 rfl member
    · exact (apart.function_operator key member).2 present
  · intro key
    rw [mem_keys_enter]
    grind

theorem NamesApart.enterDescriptor (apart : NamesApart registry) {descriptor : Descriptor α}
    (entered : registry.enterDescriptor descriptor = .ok next) : NamesApart next := by
  cases descriptor with
  | function function => exact apart.enterFunction entered
  | unary operator => exact apart.enterUnary entered
  | binary operator => exact apart.enterBinary entered

/-! ### Runs of calls -/

theorem NamesApart.register (apart : NamesApart registry) (descriptor : Descriptor α) :
    NamesApart (registry.register descriptor).1 := by
  rw [register_left]
  exact settle_keeps apart fun _ entered => apart.enterDescriptor entered

theorem NamesApart.registration {base : Library.Base α} {constants : List (String × α)} {draws : Library.Draws}
    {vocabulary : Vocabulary} {register : Library.Registration α}
    (member : register ∈ Library.registrations base constants draws vocabulary) (apart : NamesApart registry) :
    NamesApart (register registry).1 := by
  apply Library.registration_keeps member
  · intro entry _ next added
    exact apart.addConstant added
  · intro descriptor _ next entered
    exact apart.enterDescriptor entered
  · exact apart

theorem NamesApart.install (apart : NamesApart registry) (draws : Library.Draws) (vocabulary : Vocabulary) :
    NamesApart (Library.install draws vocabulary registry).1 := by
  apply Library.install_keeps _ apart
  intro base constants _ _ register member before apart
  exact apart.registration member

theorem NamesApart.performValue (apart : NamesApart registry) (call : ValueCall) :
    NamesApart (registry.performValue call) := by
  cases call with
  | addConstant name value overwrite => exact settle_keeps apart fun _ added => apart.addConstant added
  | setVariable name value => exact settle_keeps apart fun _ added => apart.setVariable added
  | removeVariable name => exact apart.removeVariable name

theorem NamesApart.perform (apart : NamesApart registry) (call : Call α) :
    NamesApart (registry.perform call) := by
  cases call with
  | value call => exact apart.performValue call
  | addFunction function => exact apart.register _
  | addUnary operator => exact apart.register _
  | addBinary operator => exact apart.register _
  | copy => exact { apart with }
  | install draws vocabulary => exact apart.install draws vocabulary

theorem namesApart_afterCalls (system : NumberSystem α) (settings : Settings) (calls : List (Call α)) :
    NamesApart (afterCalls system settings calls) := by
  apply List.foldlRecOn calls perform (NamesApart.empty system settings)
  intro _ apart call _
  exact apart.perform call

/-- After any calls, failed ones included, no folded name is that of two of a constant, a variable and
a function or operator, or of both a function and an operator; and the folded function names are
the names of functions, unary and binary operators, each once. -/
theorem names_afterCalls (system : NumberSystem α) (settings : Settings) (calls : List (Call α)) :
    let registry := afterCalls system settings calls
    let callable (key : String) := key ∈ registry.functions.keys ∨ key ∈ registry.unary.keys ∨
      key ∈ registry.binary.keys
    (∀ name ∈ registry.bindings.keys, fold name ∉ registry.constants.keys) ∧
    (∀ key ∈ registry.constants.keys, ¬ callable key) ∧
    (∀ name ∈ registry.bindings.keys, ¬ callable (fold name)) ∧
    (∀ key ∈ registry.functions.keys, key ∉ registry.unary.keys ∧ key ∉ registry.binary.keys) ∧
    (registry.functionNames.map fold).Nodup ∧
    ∀ key, key ∈ registry.functionNames.map fold ↔ callable key := by
  intro registry callable
  have apart : NamesApart registry := namesApart_afterCalls system settings calls
  refine ⟨apart.constant_variable, ?_, ?_, apart.function_operator, ?_, ?_⟩
  · intro key member called
    exact apart.constant_function key member ((apart.covered key).mpr called)
  · intro name member called
    exact apart.variable_function name member ((apart.covered (fold name)).mpr called)
  · rw [apart.folded]
    exact apart.distinct
  · intro key
    rw [apart.folded, apart.covered]

end Reckoner.Registry

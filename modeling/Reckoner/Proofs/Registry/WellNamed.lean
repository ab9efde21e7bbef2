import Reckoner.Proofs.Registry.Implementations

/-! Well-formed names. Values are only registered under names that pass the check, and functions and
operators only exist under such names, so all names of a registry that calls have led to pass it. -/

namespace Reckoner

open Reckoner.Unicode

variable {α : Type}

/-! ### Checked names -/

namespace Name

theorem checkCharacters_eq_ok_iff {name : String} {characters : List Char} :
    checkCharacters name characters = .ok () ↔
      ∀ c ∈ characters, isBlank c = false ∧ isControl c = false := by
  induction characters with
  | nil => simp [checkCharacters]
  | cons c rest ih =>
    rw [checkCharacters, List.forall_mem_cons, ← ih]
    cases isBlank c with
    | true => simp
    | false => cases isControl c <;> simp

theorem of_check {name : String} (checked : check name = .ok ()) :
    name.toList ≠ [] ∧ ∀ c ∈ name.toList, isBlank c = false := by
  unfold check at checked
  split at checked
  · cases checked
  · rename_i c rest same
    rw [same]
    refine ⟨List.cons_ne_nil c rest, ?_⟩
    intro d member
    split at checked
    · cases checked
    · exact (checkCharacters_eq_ok_iff.mp checked d member).1

end Name

namespace Descriptor.Draft

theorem checkNames_eq_ok_iff {names : List String} :
    checkNames names = .ok () ↔ ∀ name ∈ names, Name.check name = .ok () := by
  induction names with
  | nil => simp [checkNames]
  | cons name rest ih =>
    rw [List.forall_mem_cons, ← ih, checkNames, bind_eq_ok]
    constructor
    · rintro ⟨⟨⟩, first, others⟩
      exact ⟨first, others⟩
    · rintro ⟨first, others⟩
      exact ⟨(), first, others⟩

theorem eq_ok_of_flawOf {field : String} {result : Except String Unit}
    (flawless : Checked.flawOf field (Checked.ruleOf result) = []) : result = .ok () := by
  cases result with
  | ok => rfl
  | error message => cases flawless

theorem check_of_mem_names {draft : Draft} (flawless : draft.namingFlaws = []) {name : String}
    (member : name ∈ draft.naming.names) : Name.check name = .ok () := by
  obtain ⟨named, aliased⟩ := List.append_eq_nil_iff.mp flawless
  rcases List.mem_cons.mp member with rfl | among
  · unfold naming
    cases given : draft.name with
    | none => rw [given] at named; cases named
    | some name =>
      rw [given] at named
      exact eq_ok_of_flawOf named
  · exact checkNames_eq_ok_iff.mp (eq_ok_of_flawOf aliased) name (List.mem_filter.mp among).1

end Descriptor.Draft

/-- Whether all names of a function or operator pass the check. -/
def Naming.Checked (naming : Naming) : Prop := ∀ name ∈ naming.names, Name.check name = .ok ()

namespace Registry

variable {registry next : Registry α}

/-- Whether a function or operator of a call comes out of the checks of its fields. -/
def Call.Checked : Call α → Prop
  | .addFunction function =>
    ∃ (draft : Descriptor.Draft) (run : Nat → List α → Outcome α), draft.function run = .ok function
  | .addUnary operator =>
    ∃ (draft : Descriptor.Draft) (run : α → Outcome α), draft.unary run = .ok operator
  | .addBinary operator =>
    ∃ (draft : Descriptor.Draft) (run : α → α → Outcome α), draft.binary run = .ok operator
  | _ => True

/-- Whether all names of a registry pass the check, and constants are kept under their foldings. -/
structure WellNamed (registry : Registry α) : Prop where
  functions : ∀ name ∈ registry.functionNames, Name.check name = .ok ()
  constants : ∀ entry ∈ registry.constants, Name.check entry.2.1 = .ok () ∧ entry.1 = fold entry.2.1
  bindings : ∀ name ∈ registry.bindings.keys, Name.check name = .ok ()

namespace WellNamed

theorem empty (system : NumberSystem α) (settings : Settings) :
    (empty system settings).WellNamed := ⟨nofun, nofun, nofun⟩

theorem values (named : registry.WellNamed) {name : String} (member : name ∈ registry.valueNames) :
    Name.check name = .ok () := by
  rcases List.mem_append.mp member with constant | bound
  · obtain ⟨value, among, rfl⟩ := List.mem_map.mp constant
    obtain ⟨entry, present, rfl⟩ := List.mem_map.mp among
    exact (named.constants entry present).1
  · exact named.bindings name bound

/-! ### Constants and variables -/

theorem check_of_checkValueName {name : String} {role : ValueRole}
    (checked : registry.checkValueName name role = .ok ()) : Name.check name = .ok () := by
  unfold checkValueName at checked
  cases given : Name.check name with
  | ok => rfl
  | error message => rw [given] at checked; cases checked

theorem eq_or_mem_of_mem_insert {β : Type} {key : String} {value : β} {table : Table β}
    {entry : String × β} (member : entry ∈ table.insert key value) :
    entry = (key, value) ∨ entry ∈ table := by
  induction table with
  | nil => exact .inl (List.mem_singleton.mp member)
  | cons first rest ih =>
    obtain ⟨present, old⟩ := first
    unfold Table.insert at member
    split at member
    · rename_i same
      rw [eq_of_beq same]
      exact (List.mem_cons.mp member).imp_right (List.mem_cons_of_mem _)
    · rcases List.mem_cons.mp member with rfl | behind
      · exact .inr List.mem_cons_self
      · exact (ih behind).imp_right (List.mem_cons_of_mem _)

theorem checkedConstant (named : registry.WellNamed) {name : String} {overwrite : Bool}
    (checked : registry.checkConstant name overwrite = .ok ()) (value : α) :
    (registry.storeConstant name value).WellNamed := by
  obtain ⟨_, valueName, _⟩ := bind_eq_ok.mp checked
  refine { named with constants := ?_ }
  intro entry member
  rcases eq_or_mem_of_mem_insert member with rfl | present
  · exact ⟨check_of_checkValueName valueName, rfl⟩
  · exact named.constants entry present

theorem addConstant (named : registry.WellNamed) {name : String} {value : Datum} {overwrite : Bool}
    (added : registry.addConstant name value overwrite = .ok next) : next.WellNamed := by
  obtain ⟨_, checked, added⟩ := bind_eq_ok.mp added
  obtain ⟨number, _, same⟩ := bind_eq_ok.mp added
  cases same
  exact named.checkedConstant checked number

theorem setVariable (named : registry.WellNamed) {name : String} {value : Datum}
    (added : registry.setVariable name value = .ok next) : next.WellNamed := by
  obtain ⟨_, checked, added⟩ := bind_eq_ok.mp added
  obtain ⟨number, _, same⟩ := bind_eq_ok.mp added
  cases same
  refine { named with bindings := ?_ }
  intro other member
  rcases Table.mem_keys_insert.mp member with rfl | present
  · exact check_of_checkValueName checked
  · exact named.bindings other present

theorem removeVariable (named : registry.WellNamed) (name : String) :
    (registry.removeVariable name).WellNamed :=
  { named with
    bindings := fun other member =>
      named.bindings other ((List.filter_sublist.map Prod.fst).mem member) }

/-! ### Functions and operators -/

theorem mem_values_insertNew {key value other : String} {table : Table String}
    (member : other ∈ (table.insertNew key value).values) : other = value ∨ other ∈ table.values := by
  unfold Table.insertNew at member
  split at member
  · exact .inr member
  · simp only [Table.values, List.map_append, List.map_cons, List.map_nil, List.mem_append,
      List.mem_singleton] at member
    exact member.symm

theorem mem_values_remember {names : List String} {table : Table String} {name : String}
    (member : name ∈ (remember names table).values) : name ∈ names ∨ name ∈ table.values := by
  induction names generalizing table with
  | nil => exact .inr member
  | cons first rest ih =>
    rcases ih member with behind | among
    · exact .inl (List.mem_cons_of_mem first behind)
    · rcases mem_values_insertNew among with rfl | present
      · exact .inl List.mem_cons_self
      · exact .inr present

theorem enterDescriptor (named : registry.WellNamed) {descriptor : Descriptor α}
    (checked : descriptor.naming.Checked) (entered : registry.enterDescriptor descriptor = .ok next) :
    next.WellNamed := by
  obtain ⟨-, constants, bindings, names⟩ := enterDescriptor_leaves entered
  constructor
  · intro name member
    rw [functionNames, names] at member
    exact (mem_values_remember member).elim (checked name) (named.functions name)
  · rw [constants]
    exact named.constants
  · rw [bindings]
    exact named.bindings

theorem register (named : registry.WellNamed) {descriptor : Descriptor α} (checked : descriptor.naming.Checked) :
    (registry.register descriptor).1.WellNamed := by
  rw [register_left]
  exact settle_keeps named fun _ entered => named.enterDescriptor checked entered

theorem function_checked {draft : Descriptor.Draft} {run : Nat → List α → Outcome α}
    {function : NamedFunction α} (made : draft.function run = .ok function) : function.Checked := by
  obtain ⟨flawless, rfl⟩ := Descriptor.Draft.function_eq_ok made
  exact fun name member => Descriptor.Draft.check_of_mem_names flawless member

theorem unary_checked {draft : Descriptor.Draft} {run : α → Outcome α} {operator : UnaryOperator α}
    (made : draft.unary run = .ok operator) : operator.Checked := by
  obtain ⟨flawless, same, _⟩ := Descriptor.Draft.unary_eq_ok made
  rw [same]
  exact fun name member => Descriptor.Draft.check_of_mem_names flawless member

theorem binary_checked {draft : Descriptor.Draft} {run : α → α → Outcome α}
    {operator : BinaryOperator α} (made : draft.binary run = .ok operator) : operator.Checked := by
  obtain ⟨flawless, same, _⟩ := Descriptor.Draft.binary_eq_ok made
  rw [same]
  exact fun name member => Descriptor.Draft.check_of_mem_names flawless member

/-! ### Runs of calls -/

theorem registration {base : Library.Base α} {constants : List (String × α)} {draws : Library.Draws}
    {vocabulary : Vocabulary} {register : Library.Registration α}
    (member : register ∈ Library.registrations base constants draws vocabulary) (named : registry.WellNamed) :
    (register registry).1.WellNamed := by
  apply Library.registration_keeps member
  · intro entry _ next added
    exact named.addConstant added
  · intro descriptor listed next entered
    apply named.enterDescriptor _ entered
    rcases Library.mem_madeDescriptors listed with ⟨row, _, operator, made, rfl⟩ | ⟨row, _, operator, made, rfl⟩ |
      ⟨row, _, function, made, rfl⟩
    · exact binary_checked made
    · exact unary_checked made
    · exact function_checked made
  · exact named

theorem install (named : registry.WellNamed) (draws : Library.Draws) (vocabulary : Vocabulary) :
    (Library.install draws vocabulary registry).1.WellNamed := by
  apply Library.install_keeps _ named
  intro base constants _ _ register member before named
  exact named.registration member

theorem performValue (named : registry.WellNamed) (call : ValueCall) :
    (registry.performValue call).WellNamed := by
  cases call with
  | addConstant name value overwrite => exact settle_keeps named fun _ added => named.addConstant added
  | setVariable name value => exact settle_keeps named fun _ added => named.setVariable added
  | removeVariable name => exact named.removeVariable name

theorem perform (named : registry.WellNamed) {call : Call α} (checked : call.Checked) :
    (registry.perform call).WellNamed := by
  cases call with
  | value call => exact named.performValue call
  | addFunction function =>
    obtain ⟨_, _, made⟩ := checked
    exact named.register (function_checked made)
  | addUnary operator =>
    obtain ⟨_, _, made⟩ := checked
    exact named.register (unary_checked made)
  | addBinary operator =>
    obtain ⟨_, _, made⟩ := checked
    exact named.register (binary_checked made)
  | copy => exact { named with }
  | install draws vocabulary => exact named.install draws vocabulary

/-- After any calls with checked functions and operators all names pass the check. -/
theorem afterCalls (system : NumberSystem α) (settings : Settings) {calls : List (Call α)}
    (checked : ∀ call ∈ calls, call.Checked) :
    (Registry.afterCalls system settings calls).WellNamed := by
  apply List.foldlRecOn calls Registry.perform (WellNamed.empty system settings)
  intro _ named call member
  exact named.perform (checked call member)

end WellNamed

end Registry

end Reckoner

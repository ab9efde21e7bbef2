import Reckoner.NumberSystem.Integer
import Reckoner.Proofs.Library.Signs
import Reckoner.Proofs.Registry.Renumbering

/-! The library installed again. Whatever a registration has entered is of its own category still when the installation
ends, since entries are replaced only by ones of the same category; so nothing is refused the second time, and all
entries take their places once more. -/

namespace Reckoner

open Reckoner.Unicode

variable {α : Type}

/-! ### Entries that a registry has -/

namespace Registry

variable {registry : Registry α} {event : Event α}

theorem mem_keys_constants_record {key : String} (other : Event α) :
    key ∈ (registry.record other).constants.keys ↔ key ∈ other.constants.keys ∨ key ∈ registry.constants.keys := by
  rw [← Table.mem_keys_insertAll]
  cases other with
  | _ => rfl

theorem Tabulates.mem_keys_record {β : Type} {table : Registry α → Table (Registered β)} {made : Event α → Table β}
    (tabulates : Tabulates table made) {key : String} (other : Event α) :
    key ∈ (table (registry.record other)).keys ↔ key ∈ (made other).keys ∨ key ∈ (table registry).keys := by
  rw [tabulates.record, Table.mem_keys_insertAll, Table.keys_mapValues]

/-- Whether all names of an entry are those of entries of its category. -/
structure Holds (registry : Registry α) (event : Event α) : Prop where
  constants : ∀ key ∈ event.constants.keys, key ∈ registry.constants.keys
  functions : ∀ key ∈ event.functions.keys, key ∈ registry.functions.keys
  unary : ∀ key ∈ event.unaryOperators.keys, key ∈ registry.unary.keys
  binary : ∀ key ∈ event.binaryOperators.keys, key ∈ registry.binary.keys

theorem holds_record (registry : Registry α) (event : Event α) : (registry.record event).Holds event where
  constants _ member := (mem_keys_constants_record event).mpr (.inl member)
  functions _ member := (tabulates_functions.mem_keys_record event).mpr (.inl member)
  unary _ member := (tabulates_unary.mem_keys_record event).mpr (.inl member)
  binary _ member := (tabulates_binary.mem_keys_record event).mpr (.inl member)

theorem Holds.record (holds : registry.Holds event) (other : Event α) : (registry.record other).Holds event where
  constants key member := (mem_keys_constants_record other).mpr (.inr (holds.constants key member))
  functions key member := (tabulates_functions.mem_keys_record other).mpr (.inr (holds.functions key member))
  unary key member := (tabulates_unary.mem_keys_record other).mpr (.inr (holds.unary key member))
  binary key member := (tabulates_binary.mem_keys_record other).mpr (.inr (holds.binary key member))

theorem Holds.foldl_record (holds : registry.Holds event) (events : List (Event α)) :
    (events.foldl Registry.record registry).Holds event := by
  apply List.foldlRecOn (motive := fun next : Registry α => next.Holds event) _ _ holds
  intro _ kept other _
  exact kept.record other

theorem holds_foldl_record (events : List (Event α)) (registry : Registry α) :
    ∀ event ∈ events, (events.foldl record registry).Holds event := by
  induction events generalizing registry with
  | nil => exact List.forall_mem_nil _
  | cons event rest ih => exact List.forall_mem_cons.mpr ⟨(holds_record registry event).foldl_record rest, ih _⟩

/-! ### Names that may be entered again -/

theorem NamesApart.not_value (apart : NamesApart registry) {key : String} (called : key ∈ registry.names.keys) :
    key ∉ registry.constants.keys ∧ ∀ other ∈ registry.bindings.keys, fold other ≠ key := by
  constructor
  · intro defined
    exact apart.constant_function key defined called
  · rintro other bound rfl
    exact apart.variable_function other bound called

theorem NamesApart.checkFunction (apart : NamesApart registry) {names : List String}
    (present : ∀ key ∈ names.map fold, key ∈ registry.functions.keys) :
    registry.checkFunctionNames true names = .ok () := by
  apply checkFunctionNames_eq_ok_iff.mpr
  intro key member
  have called := present key member
  obtain ⟨undefined, unbound⟩ := apart.not_value ((apart.covered key).mpr (.inl called))
  exact ⟨undefined, unbound, fun _ => apart.function_operator key called, nofun⟩

theorem NamesApart.checkOperator (apart : NamesApart registry) {names : List String}
    (present : ∀ key ∈ names.map fold, key ∈ registry.unary.keys ∨ key ∈ registry.binary.keys) :
    registry.checkFunctionNames false names = .ok () := by
  apply checkFunctionNames_eq_ok_iff.mpr
  intro key member
  have called := present key member
  obtain ⟨undefined, unbound⟩ := apart.not_value ((apart.covered key).mpr (.inr called))
  refine ⟨undefined, unbound, nofun, ?_⟩
  intro _ function
  obtain ⟨unary, binary⟩ := apart.function_operator key function
  exact called.elim unary binary

theorem NamesApart.checkConstant (apart : NamesApart registry) {name : String} (wellFormed : Name.check name = .ok ())
    (present : fold name ∈ registry.constants.keys) : registry.checkConstant name true = .ok () := by
  have valueName : registry.checkValueName name .fixed = .ok () := by
    refine checkValueName_eq_ok_iff.mpr ⟨wellFormed, nofun, ?_, ?_⟩
    · intro _ other bound same
      exact apart.constant_variable other bound (same ▸ present)
    · exact apart.constant_function _ present
  simp [Registry.checkConstant, valueName, bind, Except.bind, pure, Except.pure]

end Registry

/-! ### Registrations that succeed again -/

namespace Library

variable {base : Base α} {constants : List (String × α)} {draws : Draws} {vocabulary : Vocabulary} {entry : Entry α}
  {registry next : Registry α}

theorem entries_lasting (member : entry ∈ entries base constants draws vocabulary) {event : Registry.Event α}
    (entered : entry.2 = some event) : event.IsLasting := by
  rcases List.mem_append.mp member with constant | descriptor
  · obtain ⟨constant, _, rfl⟩ := List.mem_map.mp constant
    obtain ⟨value, _, rfl⟩ := Option.map_eq_some_iff.mp entered
    trivial
  · obtain ⟨made, _, rfl⟩ := List.mem_map.mp descriptor
    obtain ⟨descriptor, _, rfl⟩ := Option.map_eq_some_iff.mp entered
    cases descriptor <;> trivial

theorem enterDescriptor_again {descriptor : Descriptor α} (apart : registry.NamesApart)
    (holds : registry.Holds (.ofDescriptor descriptor)) :
    ∃ next, registry.enterDescriptor descriptor = .ok next := by
  cases descriptor with
  | function f =>
    have present : ∀ key ∈ f.names.map fold, key ∈ registry.functions.keys := by
      simpa [Registry.Event.ofDescriptor, Registry.Event.functions, Table.keys] using holds.functions
    exact ⟨_, bind_eq_ok.mpr ⟨(), apart.checkFunction present, rfl⟩⟩
  | unary operator =>
    have present : ∀ key ∈ operator.names.map fold, key ∈ registry.unary.keys := by
      simpa [Registry.Event.ofDescriptor, Registry.Event.unaryOperators, Table.keys] using holds.unary
    have checked := apart.checkOperator fun key member => .inl (present key member)
    exact ⟨_, bind_eq_ok.mpr ⟨(), checked, rfl⟩⟩
  | binary operator =>
    have present : ∀ key ∈ operator.names.map fold, key ∈ registry.binary.keys := by
      simpa [Registry.Event.ofDescriptor, Registry.Event.binaryOperators, Table.keys] using holds.binary
    have checked := apart.checkOperator fun key member => .inr (present key member)
    exact ⟨_, bind_eq_ok.mpr ⟨(), checked, rfl⟩⟩

theorem ran_of_holds (named : ∀ constant ∈ constants, Name.check constant.1 = .ok ())
    (member : entry ∈ entries base constants draws vocabulary) (apart : registry.NamesApart)
    (same : registry.system = base.system) {event : Registry.Event α} (entered : entry.2 = some event)
    (holds : registry.Holds event) : ∃ next, entry.1 registry = (next, none) := by
  rcases List.mem_append.mp member with defined | descriptor
  · obtain ⟨constant, listed, rfl⟩ := List.mem_map.mp defined
    obtain ⟨value, found, rfl⟩ := Option.map_eq_some_iff.mp entered
    have checked := apart.checkConstant (named constant listed) (holds.constants _ List.mem_cons_self)
    have stored : registry.coerce constant.1 (registry.system.toDatum constant.2) = .ok value := by
      rw [same, Registry.coerce, same, eq_ok_of_toOption found]
    exact ⟨_, registerConstant_eq_iff.mpr (bind_eq_ok.mpr ⟨(), checked, bind_eq_ok.mpr ⟨value, stored, rfl⟩⟩)⟩
  · obtain ⟨made, listed, rfl⟩ := List.mem_map.mp descriptor
    obtain ⟨descriptor, found, rfl⟩ := Option.map_eq_some_iff.mp entered
    rw [eq_ok_of_toOption found] at listed ⊢
    obtain ⟨next, again⟩ := enterDescriptor_again apart holds
    exact ⟨next, Registry.register_eq_iff.mpr ⟨again, madeDescriptors_writable listed⟩⟩

/-- Whether a registry has all that the library enters, so that it may be entered again. -/
structure Installed (base : Base α) (constants : List (String × α)) (draws : Draws) (vocabulary : Vocabulary)
    (registry : Registry α) : Prop where
  apart : registry.NamesApart
  system : registry.system = base.system
  named : ∀ constant ∈ constants, Name.check constant.1 = .ok ()
  holds : ∀ entry ∈ entries base constants draws vocabulary, ∃ event, entry.2 = some event ∧ registry.Holds event

theorem system_runAll (same : registry.system = base.system) :
    (runAll (registrations base constants draws vocabulary) registry).1.system = base.system := by
  rw [← entries_registrations, runAll_eq_record (fun _ listed => listed) same, Registry.system_foldl_record, same]

theorem entered_of_complete {runs : List (Entry α)}
    (listed : ∀ entry ∈ runs, entry ∈ entries base constants draws vocabulary) (same : registry.system = base.system)
    (complete : (runAll (runs.map Prod.fst) registry).2 = none) :
    ∀ entry ∈ runs, ∃ event, entry.2 = some event := by
  induction runs generalizing registry with
  | nil => exact List.forall_mem_nil _
  | cons entry rest ih =>
    obtain ⟨first, others⟩ := List.forall_mem_cons.mp listed
    rw [List.map_cons, runAll] at complete
    rcases ran : entry.1 registry with ⟨next, refusal | refusal⟩
    · rw [ran] at complete
      obtain ⟨event, entered, rfl⟩ := entries_eq_record first same ran
      exact List.forall_mem_cons.mpr ⟨⟨event, entered⟩,
        ih others ((registry.system_record event).trans same) complete⟩
    · rw [ran] at complete
      cases complete

/-- Registrations that are all made leave what may be entered again. -/
theorem installed_of_complete (apart : registry.NamesApart) (same : registry.system = base.system)
    (complete : (runAll (registrations base constants draws vocabulary) registry).2 = none) :
    Installed base constants draws vocabulary (runAll (registrations base constants draws vocabulary) registry).1 where
  apart := runAll_keeps (fun register member _ apart => apart.registration member) apart
  system := system_runAll same
  named constant listed := by
    have member : registerConstant constant ∈ registrations base constants draws vocabulary :=
      List.mem_append_left _ (List.mem_map_of_mem listed)
    obtain ⟨before, after, ran⟩ := runAll_ran complete _ member
    obtain ⟨_, checked, _⟩ := bind_eq_ok.mp (registerConstant_eq_iff.mp ran)
    obtain ⟨_, valueName, _⟩ := bind_eq_ok.mp checked
    exact Registry.WellNamed.check_of_checkValueName valueName
  holds entry member := by
    have ran := complete
    rw [← entries_registrations] at ran
    obtain ⟨event, entered⟩ := entered_of_complete (fun _ listed => listed) same ran entry member
    have among : event ∈ (entries base constants draws vocabulary).flatMap (·.2.toList) :=
      List.mem_flatMap.mpr ⟨entry, member, Option.mem_toList.mpr entered⟩
    rw [runAll_eq_entries same complete]
    exact ⟨event, entered, Registry.holds_foldl_record _ _ event among⟩

/-- Where the library is installed every registration of it succeeds, and leaves it so. -/
theorem Installed.registration (installed : Installed base constants draws vocabulary registry)
    {register : Registration α} (member : register ∈ registrations base constants draws vocabulary) :
    ∃ next, register registry = (next, none) ∧ Installed base constants draws vocabulary next := by
  have apart := installed.apart.registration member
  obtain ⟨entry, listed, rfl⟩ := List.mem_map.mp (entries_registrations ▸ member)
  obtain ⟨event, entered, holds⟩ := installed.holds entry listed
  obtain ⟨next, ran⟩ := ran_of_holds installed.named listed installed.apart installed.system entered holds
  rw [ran] at apart
  obtain ⟨event, _, rfl⟩ := entries_eq_record listed installed.system ran
  refine ⟨_, ran, apart, (registry.system_record event).trans installed.system, installed.named, ?_⟩
  intro other among
  obtain ⟨made, entered, holds⟩ := installed.holds other among
  exact ⟨made, entered, holds.record event⟩

/-- A second installation is complete and renumbers what the first one has left. -/
theorem install_renumbers {start : Registry α} (apart : start.NamesApart) (numbered : start.Numbered)
    (complete : (install draws vocabulary start).2 = none) :
    ∃ change, Function.Injective change ∧ install draws vocabulary (install draws vocabulary start).1 =
      ((install draws vocabulary start).1.renumber change, none) := by
  obtain ⟨base, constants, based, given, complete⟩ := runAll_of_install complete
  rw [install_eq_runAll based given]
  have same : start.system = base.system := (Base.system_of based).symm
  have left := runAll_eq_entries same complete
  have system : (runAll (registrations base constants draws vocabulary) start).1.system = start.system :=
    (system_runAll same).trans same.symm
  have again : (runAll (registrations base constants draws vocabulary)
      (runAll (registrations base constants draws vocabulary) start).1).2 = none := by
    obtain ⟨final, ran⟩ := runAll_complete (fun _ member _ installed => installed.registration member)
      (installed_of_complete apart same complete)
    rw [ran]
  have lasting : ∀ event ∈ (entries base constants draws vocabulary).flatMap (·.2.toList), event.IsLasting := by
    intro event among
    obtain ⟨entry, member, entered⟩ := List.mem_flatMap.mp among
    exact entries_lasting member (Option.mem_toList.mp entered)
  have renumbered := Registry.foldl_record_again numbered lasting
  rw [← left, ← runAll_eq_entries (system.trans same) again] at renumbered
  rw [install_eq_runAll (system.symm ▸ based) (system.symm ▸ given)]
  exact ⟨_, Registry.shift_injective _ _, Prod.ext renumbered again⟩

/-- After any calls, an installation that is complete can be made once more with the same vocabulary. It is complete
again and changes nothing that can be asked for. -/
theorem install_twice (system : NumberSystem α) (settings : Settings) (calls : List (Registry.Call α)) (draws : Draws)
    (vocabulary : Vocabulary)
    (complete : (install draws vocabulary (Registry.afterCalls system settings calls)).2 = none) :
    let first := (install draws vocabulary (Registry.afterCalls system settings calls)).1
    ∃ second, install draws vocabulary first = (second, none) ∧
      second.system = first.system ∧ second.settings = first.settings ∧
      second.constants = first.constants ∧ second.bindings = first.bindings ∧
      second.functionNames = first.functionNames ∧
      (∀ name, second.getConstant? name = first.getConstant? name ∧
        second.getVariable? name = first.getVariable? name ∧
        second.getFunction? name = first.getFunction? name ∧
        second.getUnary? name = first.getUnary? name ∧
        second.getBinary? name = first.getBinary? name) ∧
      second.descriptors = first.descriptors := by
  intro first
  obtain ⟨change, injective, again⟩ := install_renumbers (Registry.namesApart_afterCalls system settings calls)
    (Registry.numbered_afterCalls system settings calls) complete
  refine ⟨first.renumber change, again, rfl, rfl, rfl, rfl, rfl, fun name => ⟨rfl, rfl, ?_, ?_, ?_⟩, ?_⟩
  · exact Registry.getFunction?_renumber change first name
  · exact Registry.getUnary?_renumber change first name
  · exact Registry.getBinary?_renumber change first name
  · exact Registry.descriptors_renumber injective first

/-- A function of the caller has an alias of the library, and the library gives it to one function after another: the
last one keeps it. -/
theorem install_twice_taken_alias :
    let system := NumberSystem.Integer.system ⟨none⟩
    let calls : List (Registry.Call Int) := [.value (.setVariable "x" (.int 5)),
      .addFunction ⟨⟨"double", ["Sum"], none⟩, 1, some 1, fun _ _ => .ok 0⟩]
    let vocabulary := { Vocabulary.standard with
      functions := [Vocabulary.known "sum" [] "", Vocabulary.known "max" ["SUM"] ""] }
    let start := Registry.afterCalls system Settings.standard calls
    let first := (install 0.5 vocabulary start).1
    (install 0.5 vocabulary start).2 = none ∧ ∃ second, install 0.5 vocabulary first = (second, none) ∧
      second.descriptors = first.descriptors ∧ second.functionNames = first.functionNames ∧
      (second.getFunction? "sum").map (·.name) = some "max" := by
  intro system calls vocabulary start first
  obtain ⟨complete, last⟩ : (install 0.5 vocabulary start).2 = none ∧
      (first.getFunction? "sum").map (·.name) = some "max" := by
    decide +kernel
  obtain ⟨second, again, _, _, _, _, names, lookups, descriptors⟩ :=
    install_twice system Settings.standard calls 0.5 vocabulary complete
  obtain ⟨_, _, function, _⟩ := lookups "sum"
  exact ⟨complete, second, again, descriptors, names, function ▸ last⟩

end Library

end Reckoner

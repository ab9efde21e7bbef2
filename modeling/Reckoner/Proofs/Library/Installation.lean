import Reckoner.Proofs.Registry.Implementations
import Reckoner.Proofs.Registry.Names

/-! The library can be installed: its names are well formed and those of constants, functions and
operators are apart, so no registration is refused in a registry that has no other names. -/

namespace Reckoner.Library

open Reckoner.Unicode Reckoner.Descriptor

variable {α : Type} {registry : Registry α}

/-! ### Names of the library -/

/-- The folded names of entries, with their aliases. -/
def keysOf (entries : Table VocabularyEntry) : List String :=
  entries.flatMap fun entry => (entry.1 :: entry.2.aliases).map fold

/-- The names of the constants of all number systems. -/
def constantNames : List String := ["PI", "E", "i"]

def constantKeys : List String := constantNames.map fold

def functionKeys : List String := keysOf Vocabulary.standard.functions

def operatorKeys : List String :=
  keysOf Vocabulary.standard.binary ++ keysOf Vocabulary.standard.unary

theorem keys_apart : (∀ key ∈ constantKeys, key ∉ functionKeys ∧ key ∉ operatorKeys) ∧
    ∀ key ∈ functionKeys, key ∉ operatorKeys := by decide +kernel

theorem constantNames_wellFormed : ∀ name ∈ constantNames, Name.check name = .ok () := by
  simp only [constantNames, List.forall_mem_cons]
  exact ⟨rfl, rfl, rfl, List.forall_mem_nil _⟩

/-- Whether the names of entries may be registered. -/
def WellNamed (entries : Table VocabularyEntry) : Prop :=
  ∀ entry ∈ entries, (Draft.checkNames (entry.1 :: entry.2.aliases)).isOk = true

instance (entries : Table VocabularyEntry) : Decidable (WellNamed entries) :=
  inferInstanceAs (Decidable (∀ entry ∈ entries, _ = true))

theorem standard_wellNamed : WellNamed Vocabulary.standard.binary ∧
    WellNamed Vocabulary.standard.unary ∧ WellNamed Vocabulary.standard.functions := by
  decide +kernel

theorem draftOf_named {entries : Table VocabularyEntry} (wellNamed : WellNamed entries)
    {name : String} (listed : entries.contains name = true) :
    (draftOf entries name).namingFlaws = [] ∧
      ∀ key ∈ (draftOf entries name).naming.names.map fold, key ∈ keysOf entries := by
  obtain ⟨entry, found⟩ := Option.isSome_iff_exists.mp listed
  have member := Table.mem_of_find? found
  have drafted : draftOf entries name =
      { name := some name, aliases := entry.aliases, description := entry.description } := by
    rw [draftOf, found]
  rw [drafted]
  constructor
  · have checked := wellNamed _ member
    unfold Draft.checkNames at checked
    cases first : Name.check name with
    | error message =>
      rw [first] at checked
      cases checked
    | ok =>
      rw [first] at checked
      cases others : Draft.checkNames entry.aliases with
      | error message =>
        rw [others] at checked
        cases checked
      | ok => simp [Draft.namingFlaws, first, others, Checked.flawOf, Checked.ruleOf]
  · intro key among
    obtain ⟨spelling, named, rfl⟩ := List.mem_map.mp among
    refine List.mem_flatMap.mpr ⟨(name, entry), member, List.mem_map_of_mem ?_⟩
    rcases List.mem_cons.mp named with rfl | further
    · exact List.mem_cons_self
    · exact List.mem_cons_of_mem _ (List.mem_filter.mp further).1

/-! ### Drafts that pass -/

theorem Associativity.ofText?_text (associativity : Associativity) :
    Associativity.ofText? associativity.text = some associativity := by
  cases associativity <;> decide

theorem Placement.ofText?_text (placement : Placement) :
    Placement.ofText? placement.text = some placement := by
  cases placement <;> decide

theorem binary_made (draft : Draft) (unflawed : draft.namingFlaws = [])
    {associativity : Associativity} (chosen : draft.associativity = associativity.text)
    (run : α → α → Outcome α) :
    ∃ operator, draft.binary run = .ok operator ∧ operator.names = draft.naming.names := by
  refine ⟨⟨draft.naming, draft.precedence.getD Precedence.low, associativity, run⟩, ?_, rfl⟩
  simp [Draft.binary, chosen, Associativity.ofText?_text, Draft.unlessFlawed, unflawed]

theorem unary_made (draft : Draft) (unflawed : draft.namingFlaws = []) {placement : Placement}
    (chosen : draft.placement = placement.text) (run : α → Outcome α) :
    ∃ operator, draft.unary run = .ok operator ∧ operator.names = draft.naming.names := by
  refine ⟨⟨draft.naming, placement, draft.precedence.getD Precedence.medium, run⟩, ?_, rfl⟩
  simp [Draft.unary, chosen, Placement.ofText?_text, Draft.unlessFlawed, unflawed]

/-- Whether numbers of arguments are a range from zero on. -/
def Ranged (least : Int) (greatest : Option Int) : Prop :=
  0 ≤ least ∧ ∀ most ∈ greatest, least ≤ most

theorem function_made (draft : Draft) (unflawed : draft.namingFlaws = [])
    (ranged : Ranged draft.minArgs draft.maxArgs) (run : Nat → List α → Outcome α) :
    ∃ function, draft.function run = .ok function ∧ function.names = draft.naming.names := by
  obtain ⟨positive, above⟩ := ranged
  refine ⟨⟨draft.naming, draft.minArgs.toNat, draft.maxArgs.map Int.toNat, run⟩, ?_, rfl⟩
  have enough : ¬ draft.minArgs < 0 := Int.not_lt.mpr positive
  unfold Draft.function
  simp only [unflawed, if_neg enough, Checked.flawOf, List.append_nil]
  cases bounded : draft.maxArgs with
  | none => rfl
  | some most =>
    have room : ¬ most < draft.minArgs := Int.not_lt.mpr (above most bounded)
    simp only [if_neg room]
    rfl

/-! ### Rows of the library -/

theorem binaryRows_listed (base : Base α) :
    ∀ row ∈ binaryRows base, Vocabulary.standard.binary.contains row.name = true :=
  List.all_eq_true.mp rfl

theorem unaryRows_listed (base : Base α) :
    ∀ row ∈ unaryRows base, Vocabulary.standard.unary.contains row.name = true :=
  List.all_eq_true.mp rfl

instance (least : Int) (greatest : Option Int) : Decidable (Ranged least greatest) :=
  inferInstanceAs (Decidable (_ ∧ ∀ most ∈ greatest, least ≤ most))

theorem functionRows_listed (base : Base α) (draws : Draws) : ∀ row ∈ functionRows base draws,
    Vocabulary.standard.functions.contains row.name = true ∧ Ranged row.minArgs row.maxArgs := by
  have all : (functionRows base draws).all (fun row =>
      Vocabulary.standard.functions.contains row.name &&
        decide (Ranged row.minArgs row.maxArgs)) = true := rfl
  intro row member
  simpa using List.all_eq_true.mp all row member

/-- Whether the names of a descriptor are names of the library for its kind. -/
def Listed : Descriptor α → Prop
  | .function f => ∀ key ∈ f.names.map fold, key ∈ functionKeys
  | .unary operator => ∀ key ∈ operator.names.map fold, key ∈ operatorKeys
  | .binary operator => ∀ key ∈ operator.names.map fold, key ∈ operatorKeys

theorem madeDescriptors_listed (base : Base α) (draws : Draws) :
    ∀ made ∈ madeDescriptors base draws Vocabulary.standard, ∃ descriptor, made = .ok descriptor ∧
      Listed descriptor := by
  intro result member
  simp only [madeDescriptors, List.mem_append, List.mem_map] at member
  rcases member with (⟨row, among, rfl⟩ | ⟨row, among, rfl⟩) | ⟨row, among, rfl⟩
  · obtain ⟨unflawed, keys⟩ := draftOf_named standard_wellNamed.1 (binaryRows_listed base row among)
    obtain ⟨operator, made, names⟩ := binary_made
      { draftOf Vocabulary.standard.binary row.name with
        precedence := some row.precedence
        associativity := row.associativity.text } unflawed rfl row.run
    refine ⟨.binary operator, congrArg (Except.map Descriptor.binary) made, ?_⟩
    rw [Listed, names]
    exact fun key named => List.mem_append_left _ (keys key named)
  · obtain ⟨unflawed, keys⟩ := draftOf_named standard_wellNamed.2.1 (unaryRows_listed base row among)
    obtain ⟨operator, made, names⟩ := unary_made
      { draftOf Vocabulary.standard.unary row.name with
        precedence := some row.precedence
        placement := row.placement.text } unflawed rfl row.run
    refine ⟨.unary operator, congrArg (Except.map Descriptor.unary) made, ?_⟩
    rw [Listed, names]
    exact fun key named => List.mem_append_right _ (keys key named)
  · obtain ⟨listed, ranged⟩ := functionRows_listed base draws row among
    obtain ⟨unflawed, keys⟩ := draftOf_named standard_wellNamed.2.2 listed
    obtain ⟨function, made, names⟩ := function_made
      { draftOf Vocabulary.standard.functions row.name with
        minArgs := row.minArgs
        maxArgs := row.maxArgs } unflawed ranged row.run
    refine ⟨.function function, congrArg (Except.map Descriptor.function) made, ?_⟩
    rw [Listed, names]
    exact keys

/-! ### Registries without other names -/

/-- Whether a registry of a number system has no variables and no names but those of the library. -/
structure Within (system : NumberSystem α) (registry : Registry α) : Prop where
  system : registry.system = system
  bindings : registry.bindings = []
  constants : ∀ key ∈ registry.constants.keys, key ∈ constantKeys
  functions : ∀ key ∈ registry.functions.keys, key ∈ functionKeys
  unary : ∀ key ∈ registry.unary.keys, key ∈ operatorKeys
  binary : ∀ key ∈ registry.binary.keys, key ∈ operatorKeys
  names : ∀ key ∈ registry.names.keys, key ∈ functionKeys ∨ key ∈ operatorKeys

namespace Within

variable {system : NumberSystem α}

theorem empty (system : NumberSystem α) (settings : Settings) : Within system (Registry.empty system settings) := by
  constructor
  · rfl
  · rfl
  all_goals exact fun key member => nomatch member

theorem unset (within : Within system registry) (key : String) :
    ∀ name ∈ registry.bindings.keys, fold name ≠ key := by
  rw [within.bindings]
  exact List.forall_mem_nil _

theorem checkFunctionNames (within : Within system registry) {names : List String}
    (listed : ∀ key ∈ names.map fold, key ∈ functionKeys) :
    registry.checkFunctionNames true names = .ok () := by
  apply Registry.checkFunctionNames_eq_ok_iff.mpr
  intro key member
  have function := listed key member
  refine ⟨?_, within.unset key, fun _ => ⟨?_, ?_⟩, nofun⟩
  · exact fun defined => (keys_apart.1 key (within.constants key defined)).1 function
  · exact fun defined => keys_apart.2 key function (within.unary key defined)
  · exact fun defined => keys_apart.2 key function (within.binary key defined)

theorem checkOperatorNames (within : Within system registry) {names : List String}
    (listed : ∀ key ∈ names.map fold, key ∈ operatorKeys) :
    registry.checkFunctionNames false names = .ok () := by
  apply Registry.checkFunctionNames_eq_ok_iff.mpr
  intro key member
  have operator := listed key member
  refine ⟨?_, within.unset key, nofun, ?_⟩
  · exact fun defined => (keys_apart.1 key (within.constants key defined)).2 operator
  · intro _
    exact fun defined => keys_apart.2 key (within.functions key defined) operator

theorem enter {β : Type} {names : List String} {item : β} {table : Table β} {keys : List String}
    (listed : ∀ key ∈ names.map fold, key ∈ keys) (present : ∀ key ∈ table.keys, key ∈ keys) :
    ∀ key ∈ (Registry.enter names item table).keys, key ∈ keys :=
  fun key member => (Registry.mem_keys_enter.mp member).elim (listed key) (present key)

/-! ### Registrations -/

theorem enterDescriptor (within : Within system registry) {descriptor : Descriptor α} (listed : Listed descriptor) :
    ∃ next, registry.enterDescriptor descriptor = .ok next ∧ Within system next := by
  cases descriptor with
  | function f =>
    refine ⟨_, by rw [Registry.enterDescriptor, Registry.enterFunction, within.checkFunctionNames listed]; rfl, ?_⟩
    exact { within with
      functions := enter listed within.functions
      names := fun key member => (Registry.mem_keys_remember.mp member).elim
        (fun named => .inl (listed key named)) (within.names key) }
  | unary operator =>
    refine ⟨_, by rw [Registry.enterDescriptor, Registry.enterUnary, within.checkOperatorNames listed]; rfl, ?_⟩
    exact { within with
      unary := enter listed within.unary
      names := fun key member => (Registry.mem_keys_remember.mp member).elim
        (fun named => .inr (listed key named)) (within.names key) }
  | binary operator =>
    refine ⟨_, by rw [Registry.enterDescriptor, Registry.enterBinary, within.checkOperatorNames listed]; rfl, ?_⟩
    exact { within with
      binary := enter listed within.binary
      names := fun key member => (Registry.mem_keys_remember.mp member).elim
        (fun named => .inr (listed key named)) (within.names key) }

theorem registerConstant (within : Within system registry) {entry : String × α} (listed : entry.1 ∈ constantNames)
    (again : ∃ value, system.coerce (system.toDatum entry.2) = .ok value) :
    ∃ next, Library.registerConstant entry registry = (next, none) ∧ Within system next := by
  have key : fold entry.1 ∈ constantKeys := List.mem_map_of_mem listed
  have unnamed : fold entry.1 ∉ registry.names.keys := by
    obtain ⟨function, operator⟩ := keys_apart.1 _ key
    exact fun named => (within.names _ named).elim function operator
  have valueName : registry.checkValueName entry.1 .fixed = .ok () :=
    Registry.checkValueName_eq_ok_iff.mpr
      ⟨constantNames_wellFormed _ listed, nofun, fun _ => within.unset _, unnamed⟩
  have checked : registry.checkConstant entry.1 true = .ok () := by
    simp [Registry.checkConstant, valueName, bind, Except.bind, pure, Except.pure]
  obtain ⟨value, coerced⟩ := again
  have stored : registry.coerce entry.1 (registry.system.toDatum entry.2) = .ok value := by
    rw [within.system, Registry.coerce, within.system, coerced]
  refine ⟨_, registerConstant_eq_iff.mpr (bind_eq_ok.mpr ⟨(), checked, bind_eq_ok.mpr ⟨value, stored, rfl⟩⟩), ?_⟩
  refine { within with constants := ?_ }
  intro other member
  rcases Table.mem_keys_insert.mp member with rfl | present
  · exact key
  · exact within.constants other present

/-- No registration of the library is refused. -/
theorem registration {base : Base α} {constants : List (String × α)}
    (named : ∀ entry ∈ constants, entry.1 ∈ constantNames ∧
        ∃ value, system.coerce (system.toDatum entry.2) = .ok value)
    {draws : Draws} {register : Registration α}
    (member : register ∈ registrations base constants draws Vocabulary.standard)
    (within : Within system registry) : ∃ next, register registry = (next, none) ∧ Within system next := by
  rcases List.mem_append.mp member with constant | descriptor
  · obtain ⟨entry, listed, rfl⟩ := List.mem_map.mp constant
    obtain ⟨name, again⟩ := named entry listed
    exact within.registerConstant name again
  · obtain ⟨made, listed, rfl⟩ := List.mem_map.mp descriptor
    obtain ⟨descriptor, rfl, names⟩ := madeDescriptors_listed base draws made listed
    obtain ⟨next, entered, kept⟩ := within.enterDescriptor names
    exact ⟨next, Registry.register_eq_iff.mpr ⟨entered, madeDescriptors_writable listed⟩, kept⟩

end Within

/-! ### Installations -/

theorem install_eq_runAll {base : Base α} (based : Base.of registry.system = .ok base)
    {constants : List (String × α)} (given : registry.system.constants = .ok constants) (draws : Draws)
    (vocabulary : Vocabulary) :
    install draws vocabulary registry = runAll (registrations base constants draws vocabulary) registry := by
  simp only [install, based, given]
  rfl

/-- An installation that is complete has a zero, a one and constants, and has made all registrations. -/
theorem runAll_of_install {draws : Draws} {vocabulary : Vocabulary}
    (complete : (install draws vocabulary registry).2 = none) :
    ∃ base constants, Base.of registry.system = .ok base ∧ registry.system.constants = .ok constants ∧
      (runAll (registrations base constants draws vocabulary) registry).2 = none := by
  cases based : Base.of registry.system with
  | error fault =>
    simp only [install, based] at complete
    cases complete
  | ok base =>
    cases given : registry.system.constants with
    | error fault =>
      simp only [install, based, given] at complete
      cases complete
    | ok constants =>
      rw [install_eq_runAll based given] at complete
      exact ⟨base, constants, rfl, rfl, complete⟩

/-- The library can be installed for a number system that has a zero, a one and the usual constants, and takes these
in again. -/
theorem withLibrary_eq_ok {system : NumberSystem α} {base : Base α} (based : Base.of system = .ok base)
    {constants : List (String × α)} (given : system.constants = .ok constants)
    (named : ∀ entry ∈ constants, entry.1 ∈ constantNames ∧
        ∃ value, system.coerce (system.toDatum entry.2) = .ok value)
    (draws : Draws) (settings : Settings) : ∃ registry, withLibrary draws system settings = .ok registry := by
  obtain ⟨final, installed⟩ := runAll_complete
    (fun register member registry within => within.registration named member)
    (Within.empty system settings)
  refine ⟨final, Registry.outcome_eq_ok_iff.mpr ?_⟩
  rw [install_eq_runAll based given, installed]

end Reckoner.Library

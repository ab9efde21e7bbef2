import Reckoner.Proofs.Library.Installation
import Reckoner.Proofs.Registry.History

/-! The signs of the library. Once it is installed, the name of a unary operator stands for what the
library computes under it, and no name but the minus itself starts with a minus. -/

namespace Reckoner

open Reckoner.Unicode

variable {α : Type}

namespace Library

/-! ### The history of an installation -/

theorem runEvents_of_runAll {runs : List (Entry α)}
    {registry : Registry α} (complete : (runAll (runs.map Prod.fst) registry).2 = none) :
    runEvents runs registry = runs.flatMap (·.2.toList) := by
  induction runs generalizing registry with
  | nil => rfl
  | cons entry rest ih =>
    rw [List.map_cons, runAll] at complete
    rw [runEvents, List.flatMap_cons]
    rcases ran : entry.1 registry with ⟨next, refusal | refusal⟩
    · rw [ran] at complete
      simp only [ih complete]
    · rw [ran] at complete
      cases complete

theorem runAll_eq_entries {base : Base α} {constants : List (String × α)} {draws : Draws} {vocabulary : Vocabulary}
    {registry : Registry α} (same : registry.system = base.system)
    (complete : (runAll (registrations base constants draws vocabulary) registry).2 = none) :
    (runAll (registrations base constants draws vocabulary) registry).1 =
      ((entries base constants draws vocabulary).flatMap (·.2.toList)).foldl Registry.record registry := by
  rw [← entries_registrations] at complete ⊢
  rw [runAll_eq_record (fun _ listed => listed) same, runEvents_of_runAll complete]

/-- A registry that holds the library is made by all entries of the library. -/
theorem withLibrary_eq_record {draws : Draws} {system : NumberSystem α} {settings : Settings}
    {library : Registry α} (installed : withLibrary draws system settings = .ok library) :
    ∃ base constants, Base.of system = .ok base ∧
      library = ((entries base constants draws Vocabulary.standard).flatMap (·.2.toList)).foldl
        Registry.record (Registry.empty system settings) := by
  have complete := Registry.outcome_eq_ok_iff.mp installed
  obtain ⟨base, constants, based, given, ran⟩ := runAll_of_install (congrArg Prod.snd complete)
  rw [install_eq_runAll based given] at complete
  refine ⟨base, constants, based, ?_⟩
  rw [← runAll_eq_entries (Base.system_of based).symm ran, complete]

/-! ### Unary operators -/

def unaryNames : List String := ["+", "-", "not", "!"]

theorem unaryNames_apart : ∀ name ∈ unaryNames, ∀ other ∈ unaryNames,
    fold name ∈ (draftOf Vocabulary.standard.unary other).naming.names.map fold ↔ name = other := by
  decide +kernel

theorem unaryRows_names (base : Base α) : (unaryRows base).map UnaryRow.name = unaryNames := rfl

/-- The operator of a row. -/
def UnaryRow.operator (row : UnaryRow α) : UnaryOperator α where
  toNaming := (draftOf Vocabulary.standard.unary row.name).naming
  placement := row.placement
  precedence := row.precedence
  run := row.run

theorem UnaryRow.made_eq {base : Base α} {row : UnaryRow α} (member : row ∈ unaryRows base) :
    row.made Vocabulary.standard = .ok row.operator := by
  obtain ⟨unflawed, _⟩ := draftOf_named standard_wellNamed.2.1 (unaryRows_listed base row member)
  have named : ({ draftOf Vocabulary.standard.unary row.name with
      precedence := some row.precedence
      placement := row.placement.text } : Descriptor.Draft).namingFlaws = [] := unflawed
  simp only [UnaryRow.made, Descriptor.Draft.unary, Placement.ofText?_text, named, Descriptor.Draft.unlessFlawed]
  rfl

/-- What the rows of unary operators enter. -/
def unaryEvents (base : Base α) : List (Registry.Event α) :=
  (unaryRows base).map fun row => .unary row.operator

theorem unaryEntries_eq (base : Base α) :
    ((unaryRows base).map fun row => descriptorEntry ((row.made Vocabulary.standard).map .unary)).flatMap
      (·.2.toList) = unaryEvents base := by
  have each : ∀ row ∈ unaryRows base, (descriptorEntry ((row.made Vocabulary.standard).map .unary)).2.toList =
      [Registry.Event.unary row.operator] := by
    intro row member
    rw [UnaryRow.made_eq member]
    rfl
  rw [List.flatMap_map, List.flatMap_congr each, unaryEvents, List.map_eq_flatMap]

/-- A unary operator of the library answers its own name, and no other one does. -/
theorem UnaryRow.answers {base : Base α} {row other : UnaryRow α} (member : row ∈ unaryRows base)
    (present : other ∈ unaryRows base) {operator : UnaryOperator α} :
    operator ∈ Registry.Event.unary? row.name (.unary other.operator) ↔
      row = other ∧ operator = row.operator := by
  have named {row : UnaryRow α} (member : row ∈ unaryRows base) : row.name ∈ unaryNames :=
    unaryRows_names base ▸ List.mem_map_of_mem member
  have distinct : ((unaryRows base).map UnaryRow.name).Nodup := by
    rw [unaryRows_names]
    decide
  have apart := unaryNames_apart _ (named member) _ (named present)
  rw [Registry.Event.unary?, Option.mem_def]
  by_cases same : row.name = other.name
  · obtain rfl := List.inj_on_of_nodup_map distinct member present same
    rw [UnaryRow.operator, if_pos (apart.mpr rfl), Option.some.injEq]
    simp [eq_comm]
  · rw [UnaryRow.operator, if_neg (mt apart.mp same)]
    constructor
    · intro answered
      cases answered
    · intro found
      exact absurd (congrArg UnaryRow.name found.1) same

theorem unaryEvents_answer (base : Base α) {row : UnaryRow α} (member : row ∈ unaryRows base) :
    Registry.lastAnswer (Registry.Event.unary? row.name) (unaryEvents base) = some row.operator := by
  have own : .unary row.operator ∈ unaryEvents base := List.mem_map_of_mem member
  have answers := (UnaryRow.answers member member).mpr ⟨rfl, rfl⟩
  have only : ∀ event ∈ unaryEvents base, ∀ operator ∈ Registry.Event.unary? row.name event,
      operator = row.operator := by
    intro event listed operator answered
    obtain ⟨other, present, rfl⟩ := List.mem_map.mp listed
    exact ((UnaryRow.answers member present).mp answered).2
  obtain ⟨operator, answered, rfl⟩ :=
    Registry.exists_lastAnswer ⟨_, own, Option.isSome_of_mem answers⟩ only
  exact answered

theorem functionEntries_answer (rows : List (FunctionRow α)) (vocabulary : Vocabulary) (name : String) :
    Registry.lastAnswer (Registry.Event.unary? name)
      ((rows.map fun row => descriptorEntry ((row.made vocabulary).map .function)).flatMap (·.2.toList)) = none := by
  refine List.findSome?_eq_none_iff.mpr fun event member => ?_
  obtain ⟨entry, listed, entered⟩ := List.mem_flatMap.mp (List.mem_reverse.mp member)
  obtain ⟨row, _, rfl⟩ := List.mem_map.mp listed
  obtain ⟨descriptor, made, rfl⟩ := Option.map_eq_some_iff.mp (Option.mem_toList.mp entered)
  obtain ⟨function, _, rfl⟩ := map_eq_ok_iff.mp (eq_ok_of_toOption made)
  rfl

section Installed

variable {draws : Draws} {system : NumberSystem α} {settings : Settings} {library : Registry α}
  (installed : withLibrary draws system settings = .ok library)

include installed

theorem getUnary?_of_withLibrary : ∃ base, Base.of system = .ok base ∧
    ∀ row ∈ unaryRows base, library.getUnary? row.name = some row.operator := by
  obtain ⟨base, constants, based, rfl⟩ := withLibrary_eq_record installed
  refine ⟨base, based, ?_⟩
  intro row member
  rw [Registry.read_foldl_record (Registry.getUnary? · row.name) _ (Registry.getUnary?_record row.name),
    entries, madeDescriptors, List.map_append, List.map_append, List.map_map, List.map_map, List.map_map,
    List.flatMap_append, List.flatMap_append, List.flatMap_append, Registry.lastAnswer_append,
    Registry.lastAnswer_append]
  have functions := functionEntries_answer (functionRows base draws) Vocabulary.standard row.name
  have unary := unaryEvents_answer base member
  rw [← unaryEntries_eq] at unary
  simp only [Function.comp_def, functions, Option.none_or, Registry.lastAnswer_append, unary]
  rfl

theorem withLibrary_settings : library.settings = settings := by
  obtain ⟨base, constants, based, rfl⟩ := withLibrary_eq_record installed
  exact Registry.settings_foldl_record _ _

end Installed

/-! ### Names -/

/-- The names of entries, with their aliases. -/
def namesOf (entries : Table VocabularyEntry) : List String :=
  entries.flatMap fun entry => entry.1 :: entry.2.aliases

/-- The names of functions and operators. -/
def callableNames : List String :=
  namesOf Vocabulary.standard.functions ++ namesOf Vocabulary.standard.binary ++
    namesOf Vocabulary.standard.unary

theorem eq_minus_of_fold : ∀ name ∈ callableNames, (fold name).toList.head? = some '-' → name = "-" := by
  decide +kernel

theorem draftOf_names {entries : Table VocabularyEntry} {name : String}
    (listed : entries.contains name = true) :
    ∀ spelling ∈ (draftOf entries name).naming.names, spelling ∈ namesOf entries := by
  obtain ⟨entry, found⟩ := Option.isSome_iff_exists.mp listed
  intro spelling named
  rw [draftOf, found] at named
  refine List.mem_flatMap.mpr ⟨(name, entry), Table.mem_of_find? found, ?_⟩
  rcases List.mem_cons.mp named with rfl | further
  · exact List.mem_cons_self
  · exact List.mem_cons_of_mem _ (List.mem_filter.mp further).1

theorem mem_callableNames {name : String} : name ∈ callableNames ↔
    (name ∈ namesOf Vocabulary.standard.functions ∨ name ∈ namesOf Vocabulary.standard.binary) ∨
      name ∈ namesOf Vocabulary.standard.unary := by
  rw [callableNames, List.mem_append, List.mem_append]

theorem entries_callables {base : Base α} {constants : List (String × α)} {draws : Draws} {entry : Entry α}
    (member : entry ∈ entries base constants draws Vocabulary.standard) {event : Registry.Event α}
    (entered : entry.2 = some event) : ∀ name ∈ event.callables, name ∈ callableNames := by
  rcases List.mem_append.mp member with constant | descriptor
  · obtain ⟨constant, _, rfl⟩ := List.mem_map.mp constant
    obtain ⟨value, _, rfl⟩ := Option.map_eq_some_iff.mp entered
    exact List.forall_mem_nil _
  obtain ⟨made, listed, rfl⟩ := List.mem_map.mp descriptor
  obtain ⟨descriptor, found, rfl⟩ := Option.map_eq_some_iff.mp entered
  rw [eq_ok_of_toOption found] at listed
  intro name named
  rw [mem_callableNames]
  rcases mem_madeDescriptors listed with ⟨row, among, operator, made, rfl⟩ | ⟨row, among, operator, made, rfl⟩ |
    ⟨row, among, function, made, rfl⟩
  · obtain ⟨_, naming, _⟩ := Descriptor.Draft.binary_eq_ok made
    rw [Registry.Event.ofDescriptor, Registry.Event.callables, naming] at named
    exact .inl (.inr (draftOf_names (binaryRows_listed base row among) name named))
  · obtain ⟨_, naming, _⟩ := Descriptor.Draft.unary_eq_ok made
    rw [Registry.Event.ofDescriptor, Registry.Event.callables, naming] at named
    exact .inr (draftOf_names (unaryRows_listed base row among) name named)
  · obtain ⟨_, naming⟩ := Descriptor.Draft.function_eq_ok made
    rw [Registry.Event.ofDescriptor, Registry.Event.callables, naming] at named
    exact .inl (.inl (draftOf_names (functionRows_listed base draws row among).1 name named))

theorem mem_callableNames_of_withLibrary {draws : Draws} {system : NumberSystem α} {settings : Settings}
    {library : Registry α} (installed : withLibrary draws system settings = .ok library) {name : String}
    (listed : name ∈ library.functionNames) : name ∈ callableNames := by
  obtain ⟨base, constants, _, rfl⟩ := withLibrary_eq_record installed
  rw [Registry.functionNames, Registry.names_foldl_record] at listed
  rcases Registry.WellNamed.mem_values_remember listed with entered | present
  · obtain ⟨event, among, named⟩ := List.mem_flatMap.mp entered
    obtain ⟨entry, member, entered⟩ := List.mem_flatMap.mp among
    exact entries_callables member (Option.mem_toList.mp entered) name named
  · cases present

end Library

end Reckoner

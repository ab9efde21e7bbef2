import Reckoner.NumberSystem.Integer
import Reckoner.Proofs.Registry.Entries
import Reckoner.Proofs.Registry.Implementations

/-! History of a registry: what calls have entered, in order. What a call does is to make the entries of its history
without a check, so a look-up is answered by the last entry that answers it, and the names of functions and operators
are listed as they were first entered. The calls that succeed have the same history, except for descriptors that are
entered and cannot be announced. -/

namespace Reckoner

open Reckoner.Unicode

variable {α : Type}

namespace Registry

/-- What is entered by one registration. -/
inductive Event (α : Type) where
  | constant (name : String) (value : α)
  | binding (name : String) (value : α)
  /-- A variable is removed, or is none. -/
  | removal (name : String)
  | function (function : NamedFunction α)
  | unary (operator : UnaryOperator α)
  | binary (operator : BinaryOperator α)

namespace Event

def callables : Event α → List String
  | function f => f.names
  | unary operator => operator.names
  | binary operator => operator.names
  | _ => []

def names : Event α → List String
  | constant name _ | binding name _ | removal name => [name]
  | event => event.callables

def ofDescriptor : Descriptor α → Event α
  | .function f => function f
  | .unary operator => unary operator
  | .binary operator => binary operator

/-- Whether the registration that makes an entry can be announced. -/
def Writable : Event α → Prop
  | function f => (Descriptor.function f).Writable
  | unary operator => (Descriptor.unary operator).Writable
  | binary operator => (Descriptor.binary operator).Writable
  | _ => True

instance (event : Event α) : Decidable event.Writable :=
  match event with
  | function f => inferInstanceAs (Decidable (Descriptor.function f).Writable)
  | unary operator => inferInstanceAs (Decidable (Descriptor.unary operator).Writable)
  | binary operator => inferInstanceAs (Decidable (Descriptor.binary operator).Writable)
  | constant .. | binding .. | removal _ => inferInstanceAs (Decidable True)

theorem writable_ofDescriptor (descriptor : Descriptor α) :
    (ofDescriptor descriptor).Writable ↔ descriptor.Writable := by
  cases descriptor <;> rfl

end Event

/-- Makes an entry without a check. -/
def record (registry : Registry α) : Event α → Registry α
  | .constant name value => registry.storeConstant name value
  | .binding name value => { registry with bindings := registry.bindings.insert name value }
  | .removal name => registry.removeVariable name
  | .function function => { registry with
      functions := enter function.names ⟨registry.nextSerial, function⟩ registry.functions
      names := remember function.names registry.names
      nextSerial := registry.nextSerial + 1 }
  | .unary operator => { registry with
      unary := enter operator.names ⟨registry.nextSerial, operator⟩ registry.unary
      names := remember operator.names registry.names
      nextSerial := registry.nextSerial + 1 }
  | .binary operator => { registry with
      binary := enter operator.names ⟨registry.nextSerial, operator⟩ registry.binary
      names := remember operator.names registry.names
      nextSerial := registry.nextSerial + 1 }

/-- An entry that is made if nothing is refused. -/
def onSuccess (result : Except Refusal (Registry α)) (event : Event α) : List (Event α) :=
  match result with
  | .ok _ => [event]
  | .error _ => []

end Registry

/-! ### What calls enter -/

namespace Library

/-- A registration with what it enters if it succeeds. -/
abbrev Entry (α : Type) := Registration α × Option (Registry.Event α)

/-- A constant is entered as it is coerced anew. -/
def constantEntry (base : Base α) (entry : String × α) : Entry α :=
  (registerConstant entry, (base.system.coerce (base.system.toDatum entry.2)).toOption.map (.constant entry.1))

def descriptorEntry (made : Checked (Descriptor α)) : Entry α :=
  (registerChecked made, made.toOption.map .ofDescriptor)

/-- The registrations of the library with what they enter. -/
def entries (base : Base α) (constants : List (String × α)) (draws : Draws) (vocabulary : Vocabulary) :
    List (Entry α) :=
  constants.map (constantEntry base) ++ (madeDescriptors base draws vocabulary).map descriptorEntry

/-- What registrations enter up to the first that fails. -/
def runEvents : List (Entry α) → Registry α → List (Registry.Event α)
  | [], _ => []
  | (register, event) :: rest, registry =>
    match register registry with
    | (next, none) => event.toList ++ runEvents rest next
    | (_, some _) => []

def installEvents (draws : Draws) (vocabulary : Vocabulary) (registry : Registry α) :
    List (Registry.Event α) :=
  let prepared := do
    let base ← Base.of registry.system
    return (base, ← registry.system.constants)
  match prepared with
  | .ok (base, constants) => runEvents (entries base constants draws vocabulary) registry
  | .error _ => []

end Library

namespace Registry

def valueEvents (registry : Registry α) : ValueCall → List (Event α)
  | .addConstant name datum overwrite =>
    match registry.coerce name datum with
    | .ok value => onSuccess (registry.addConstant name datum overwrite) (.constant name value)
    | .error _ => []
  | .setVariable name datum =>
    match registry.coerce name datum with
    | .ok value => onSuccess (registry.setVariable name datum) (.binding name value)
    | .error _ => []
  | .removeVariable name => [.removal name]

/-- What a call enters. One that fails enters nothing, unless it fails when all has been entered. -/
def events (registry : Registry α) : Call α → List (Event α)
  | .value call => registry.valueEvents call
  | .addFunction function => onSuccess (registry.enterFunction function) (.function function)
  | .addUnary operator => onSuccess (registry.enterUnary operator) (.unary operator)
  | .addBinary operator => onSuccess (registry.enterBinary operator) (.binary operator)
  | .copy => []
  | .install draws vocabulary => Library.installEvents draws vocabulary registry

/-- What calls enter, one after the other. -/
def history (registry : Registry α) : List (Call α) → List (Event α)
  | [] => []
  | call :: rest => registry.events call ++ (registry.perform call).history rest

/-- What a call enters if it succeeds, and an installation up to where it fails. -/
def successful (registry : Registry α) : Call α → List (Event α)
  | .addFunction function => onSuccess (registry.add (.function function)) (.function function)
  | .addUnary operator => onSuccess (registry.add (.unary operator)) (.unary operator)
  | .addBinary operator => onSuccess (registry.add (.binary operator)) (.binary operator)
  | call => registry.events call

/-- The registrations that succeed, one after the other. -/
def successes (registry : Registry α) : List (Call α) → List (Event α)
  | [] => []
  | call :: rest => registry.successful call ++ (registry.perform call).successes rest

/-- Whether what a call registers can be announced. All that the library registers can. -/
def Call.Writable : Call α → Prop
  | .addFunction function => (Descriptor.function function).Writable
  | .addUnary operator => (Descriptor.unary operator).Writable
  | .addBinary operator => (Descriptor.binary operator).Writable
  | _ => True

instance (call : Call α) : Decidable call.Writable :=
  match call with
  | .addFunction function => inferInstanceAs (Decidable (Descriptor.function function).Writable)
  | .addUnary operator => inferInstanceAs (Decidable (Descriptor.unary operator).Writable)
  | .addBinary operator => inferInstanceAs (Decidable (Descriptor.binary operator).Writable)
  | .value _ | .copy | .install .. => inferInstanceAs (Decidable True)

variable {registry next : Registry α}

/-! ### Calls make their entries -/

theorem settle_eq_record {result : Except Refusal (Registry α)} {event : Event α}
    (made : ∀ next, result = .ok next → next = registry.record event) :
    registry.settle result = (onSuccess result event).foldl record registry := by
  cases result with
  | ok next => exact made next rfl
  | error refusal => rfl

theorem enterDescriptor_eq_record {descriptor : Descriptor α}
    (entered : registry.enterDescriptor descriptor = .ok next) :
    next = registry.record (.ofDescriptor descriptor) := by
  cases descriptor with
  | _ =>
    obtain ⟨_, _, same⟩ := bind_eq_ok.mp entered
    cases same
    rfl

theorem register_eq_record (registry : Registry α) (descriptor : Descriptor α) :
    (registry.register descriptor).1 =
      (onSuccess (registry.enterDescriptor descriptor) (.ofDescriptor descriptor)).foldl record registry := by
  rw [register_left]
  exact settle_eq_record fun _ entered => enterDescriptor_eq_record entered

theorem addConstant_eq_record {name : String} {datum : Datum} {overwrite : Bool}
    (added : registry.addConstant name datum overwrite = .ok next) :
    ∃ value, registry.coerce name datum = .ok value ∧
      next = registry.record (.constant name value) := by
  obtain ⟨_, _, added⟩ := bind_eq_ok.mp added
  obtain ⟨value, coerced, same⟩ := bind_eq_ok.mp added
  cases same
  exact ⟨value, coerced, rfl⟩

theorem setVariable_eq_record {name : String} {datum : Datum}
    (added : registry.setVariable name datum = .ok next) :
    ∃ value, registry.coerce name datum = .ok value ∧
      next = registry.record (.binding name value) := by
  obtain ⟨_, _, added⟩ := bind_eq_ok.mp added
  obtain ⟨value, coerced, same⟩ := bind_eq_ok.mp added
  cases same
  exact ⟨value, coerced, rfl⟩

theorem performValue_eq_record (call : ValueCall) :
    registry.performValue call = (registry.valueEvents call).foldl record registry := by
  cases call with
  | addConstant name datum overwrite =>
    rw [performValue, valueEvents]
    cases added : registry.addConstant name datum overwrite with
    | ok next =>
      obtain ⟨value, coerced, rfl⟩ := addConstant_eq_record added
      rw [coerced]
      rfl
    | error refusal => cases registry.coerce name datum <;> rfl
  | setVariable name datum =>
    rw [performValue, valueEvents]
    cases added : registry.setVariable name datum with
    | ok next =>
      obtain ⟨value, coerced, rfl⟩ := setVariable_eq_record added
      rw [coerced]
      rfl
    | error refusal => cases registry.coerce name datum <;> rfl
  | removeVariable name => rfl

theorem system_record (registry : Registry α) (event : Event α) :
    (registry.record event).system = registry.system := by
  cases event with
  | _ => rfl

end Registry

namespace Library

variable {base : Base α} {constants : List (String × α)} {draws : Draws} {vocabulary : Vocabulary}
  {entry : Entry α} {registry next : Registry α}

theorem entries_registrations :
    (entries base constants draws vocabulary).map Prod.fst = registrations base constants draws vocabulary := by
  simp only [entries, registrations, List.map_append, List.map_map, Function.comp_def, constantEntry, descriptorEntry]

theorem entries_eq_record (member : entry ∈ entries base constants draws vocabulary)
    (same : registry.system = base.system) (ran : entry.1 registry = (next, none)) :
    ∃ event, entry.2 = some event ∧ next = registry.record event := by
  rcases List.mem_append.mp member with entered | entered
  · obtain ⟨constant, _, rfl⟩ := List.mem_map.mp entered
    obtain ⟨value, coerced, rfl⟩ := Registry.addConstant_eq_record (registerConstant_eq_iff.mp ran)
    have given := Registry.coerce_eq_ok coerced
    rw [same] at given
    exact ⟨_, by rw [constantEntry, given]; rfl, rfl⟩
  · obtain ⟨made, _, rfl⟩ := List.mem_map.mp entered
    obtain ⟨descriptor, rfl, registered⟩ := registerChecked_eq_iff.mp ran
    exact ⟨_, rfl, Registry.enterDescriptor_eq_record (Registry.register_eq_iff.mp registered).1⟩

/-- A registration of the library that is refused leaves nothing, since its descriptors can be announced. -/
theorem entries_refused (member : entry ∈ entries base constants draws vocabulary) {refusal : Refusal}
    (ran : entry.1 registry = (next, some refusal)) : next = registry := by
  rcases List.mem_append.mp member with entered | entered
  · obtain ⟨constant, _, rfl⟩ := List.mem_map.mp entered
    simp only [constantEntry, registerConstant] at ran
    cases added : registry.addConstant constant.1 (registry.system.toDatum constant.2) true with
    | ok final =>
      rw [added] at ran
      cases ran
    | error refusal =>
      rw [added] at ran
      cases ran
      rfl
  · obtain ⟨made, listed, rfl⟩ := List.mem_map.mp entered
    cases made with
    | error flaws =>
      cases ran
      rfl
    | ok descriptor =>
      change registry.register descriptor = _ at ran
      cases entered : registry.enterDescriptor descriptor with
      | error refusal =>
        rw [Registry.register_of_refused entered] at ran
        cases ran
        rfl
      | ok final =>
        rw [Registry.register_of_entered entered, if_pos (madeDescriptors_writable listed)] at ran
        cases ran

/-- Registrations make the entries of their history, as long as the number system is that of the entries. -/
theorem runAll_eq_record {runs : List (Entry α)}
    (listed : ∀ entry ∈ runs, entry ∈ entries base constants draws vocabulary) (same : registry.system = base.system) :
    (runAll (runs.map Prod.fst) registry).1 = (runEvents runs registry).foldl Registry.record registry := by
  induction runs generalizing registry with
  | nil => rfl
  | cons entry rest ih =>
    obtain ⟨first, others⟩ := List.forall_mem_cons.mp listed
    rw [List.map_cons, runAll, runEvents]
    rcases ran : entry.1 registry with ⟨next, refusal | refusal⟩
    · obtain ⟨event, entered, rfl⟩ := entries_eq_record first same ran
      have kept : (registry.record event).system = base.system := (registry.system_record event).trans same
      rw [entered]
      exact ih others kept
    · exact entries_refused first ran

theorem install_eq_record (registry : Registry α) :
    (install draws vocabulary registry).1 =
      (installEvents draws vocabulary registry).foldl Registry.record registry := by
  simp only [install, installEvents]
  generalize found : (do
      let base ← Base.of registry.system
      return (base, ← registry.system.constants) : Outcome (Base α × List (String × α))) = prepared
  cases prepared with
  | ok prepared =>
    obtain ⟨made, based, found⟩ := bind_eq_ok.mp found
    obtain ⟨constants, given, same⟩ := bind_eq_ok.mp found
    cases same
    simp only [← entries_registrations]
    exact runAll_eq_record (fun _ listed => listed) (Base.system_of based).symm
  | error fault => rfl

end Library

namespace Registry

variable {registry : Registry α}

/-- A call makes the entries of its history, and nothing else. -/
theorem perform_eq_record (registry : Registry α) (call : Call α) :
    registry.perform call = (registry.events call).foldl record registry := by
  cases call with
  | value call => exact performValue_eq_record call
  | addFunction function => exact registry.register_eq_record (.function function)
  | addUnary operator => exact registry.register_eq_record (.unary operator)
  | addBinary operator => exact registry.register_eq_record (.binary operator)
  | copy => rfl
  | install draws vocabulary => exact Library.install_eq_record registry

theorem foldl_perform_eq_record (calls : List (Call α)) (registry : Registry α) :
    calls.foldl perform registry = (registry.history calls).foldl record registry := by
  induction calls generalizing registry with
  | nil => rfl
  | cons call rest ih =>
    rw [List.foldl_cons, ih, history, List.foldl_append, perform_eq_record]

/-! ### What no entry changes -/

theorem kept_foldl_record {β : Type} (read : Registry α → β)
    (kept : ∀ registry event, read (record registry event) = read registry)
    (events : List (Event α)) (registry : Registry α) :
    read (events.foldl record registry) = read registry := by
  induction events generalizing registry with
  | nil => rfl
  | cons event rest ih => rw [List.foldl_cons, ih, kept]

theorem system_foldl_record (events : List (Event α)) (registry : Registry α) :
    (events.foldl record registry).system = registry.system :=
  kept_foldl_record system system_record events registry

theorem settings_foldl_record (events : List (Event α)) (registry : Registry α) :
    (events.foldl record registry).settings = registry.settings := by
  apply kept_foldl_record settings
  intro registry event
  cases event with
  | _ => rfl

/-! ### Answers -/

/-- The answer of the last entry that gives one. -/
def lastAnswer {β : Type} (answer : Event α → Option β) (events : List (Event α)) : Option β :=
  events.reverse.findSome? answer

theorem lastAnswer_append {β : Type} (answer : Event α → Option β) (first second : List (Event α)) :
    lastAnswer answer (first ++ second) =
      (lastAnswer answer second).or (lastAnswer answer first) := by
  rw [lastAnswer, List.reverse_append, List.findSome?_append, lastAnswer, lastAnswer]

theorem exists_lastAnswer {β : Type} {answer : Event α → Option β} {holds : β → Prop}
    {events : List (Event α)} (answered : ∃ event ∈ events, (answer event).isSome = true)
    (all : ∀ event ∈ events, ∀ given ∈ answer event, holds given) :
    ∃ given, lastAnswer answer events = some given ∧ holds given := by
  obtain ⟨event, member, some⟩ := answered
  have found : (lastAnswer answer events).isSome = true :=
    List.findSome?_isSome_iff.mpr ⟨event, List.mem_reverse.mpr member, some⟩
  obtain ⟨given, last⟩ := Option.isSome_iff_exists.mp found
  obtain ⟨giver, among, gave⟩ := List.exists_of_findSome?_eq_some last
  exact ⟨given, last, all giver (List.mem_reverse.mp among) given gave⟩

/-- What every entry answers or leaves as it was, a run of entries answers last or leaves. -/
theorem read_foldl_record {β : Type} (read : Registry α → Option β) (answer : Event α → Option β)
    (step : ∀ registry event, read (record registry event) = (answer event).or (read registry))
    (events : List (Event α)) (registry : Registry α) :
    read (events.foldl record registry) = (lastAnswer answer events).or (read registry) := by
  induction events generalizing registry with
  | nil => rfl
  | cons event rest ih =>
    have first : lastAnswer answer [event] = answer event := by
      simp [lastAnswer]
    have split := lastAnswer_append answer [event] rest
    rw [first, List.singleton_append] at split
    rw [List.foldl_cons, ih, step, split, Option.or_assoc]

namespace Event

def function? (name : String) : Event α → Option (NamedFunction α)
  | function f => if fold name ∈ f.names.map fold then some f else none
  | _ => none

def unary? (name : String) : Event α → Option (UnaryOperator α)
  | unary operator => if fold name ∈ operator.names.map fold then some operator else none
  | _ => none

def binary? (name : String) : Event α → Option (BinaryOperator α)
  | binary operator => if fold name ∈ operator.names.map fold then some operator else none
  | _ => none

def constant? (name : String) : Event α → Option α
  | constant defined value => if fold name = fold defined then some value else none
  | _ => none

/-- The value that an entry gives a variable, or that it has none. -/
def binding? (name : String) : Event α → Option (Option α)
  | binding bound value => if name = bound then some (some value) else none
  | removal bound => if name = bound then some none else none
  | _ => none

end Event

theorem getFunction?_record (name : String) (registry : Registry α) (event : Event α) :
    (registry.record event).getFunction? name =
      (event.function? name).or (registry.getFunction? name) := by
  cases event with
  | function f =>
    rw [getFunction?, record, find?_enter, Event.function?]
    split <;> rfl
  | _ => rfl

theorem getUnary?_record (name : String) (registry : Registry α) (event : Event α) :
    (registry.record event).getUnary? name = (event.unary? name).or (registry.getUnary? name) := by
  cases event with
  | unary operator =>
    rw [getUnary?, record, find?_enter, Event.unary?]
    split <;> rfl
  | _ => rfl

theorem getBinary?_record (name : String) (registry : Registry α) (event : Event α) :
    (registry.record event).getBinary? name = (event.binary? name).or (registry.getBinary? name) := by
  cases event with
  | binary operator =>
    rw [getBinary?, record, find?_enter, Event.binary?]
    split <;> rfl
  | _ => rfl

theorem getConstant?_record (name : String) (registry : Registry α) (event : Event α) :
    (registry.record event).getConstant? name =
      (event.constant? name).or (registry.getConstant? name) := by
  cases event with
  | constant defined value =>
    rw [getConstant?, record, storeConstant, Event.constant?]
    by_cases same : fold name = fold defined
    · rw [same, Table.find?_insert_self, if_pos rfl]
      rfl
    · rw [Table.find?_insert_of_ne same, if_neg same]
      rfl
  | _ => rfl

theorem getVariable?_record (name : String) (registry : Registry α) (event : Event α) :
    some ((registry.record event).getVariable? name) =
      (event.binding? name).or (some (registry.getVariable? name)) := by
  cases event with
  | binding bound value =>
    rw [getVariable?, record, Event.binding?]
    by_cases same : name = bound
    · rw [same, Table.find?_insert_self, if_pos rfl]
      rfl
    · rw [Table.find?_insert_of_ne same, if_neg same]
      rfl
  | removal bound =>
    rw [getVariable?, record, removeVariable, Event.binding?]
    by_cases same : name = bound
    · rw [same, Table.find?_erase_self, if_pos rfl]
      rfl
    · rw [Table.find?_erase_of_ne same, if_neg same]
      rfl
  | _ => rfl

/-! ### Names in the order of registration -/

def sameFolding (first second : String) : Bool := fold first == fold second

theorem remember_append (first second : List String) (table : Table String) :
    remember (first ++ second) table = remember second (remember first table) :=
  List.foldl_append

theorem names_record (registry : Registry α) (event : Event α) :
    (registry.record event).names = remember event.callables registry.names := by
  cases event with
  | _ => rfl

theorem names_foldl_record (events : List (Event α)) (registry : Registry α) :
    (events.foldl record registry).names =
      remember (events.flatMap Event.callables) registry.names := by
  induction events generalizing registry with
  | nil => rfl
  | cons event rest ih =>
    rw [List.foldl_cons, ih, names_record, List.flatMap_cons, remember_append]

/-- Leaving out spellings by their foldings does not change which of the others come first. -/
theorem eraseDupsBy_filter {keeps : String → Bool}
    (folded : ∀ first second, fold first = fold second → keeps first = keeps second)
    (names : List String) :
    (names.filter keeps).eraseDupsBy sameFolding = (names.eraseDupsBy sameFolding).filter keeps := by
  -- The tail is filtered before the recursion, so the induction is on the number of names.
  induction count : names.length using Nat.strongRecOn generalizing names with
  | _ count ih =>
    subst count
    cases names with
    | nil => rfl
    | cons name rest =>
      have shorter : (rest.filter fun other => sameFolding other name = false).length <
          (name :: rest).length :=
        Nat.lt_succ_of_le (List.length_filter_le _ _)
      rw [List.eraseDupsBy_cons, List.filter_cons, List.filter_cons, ← ih _ shorter _ rfl]
      by_cases kept : keeps name = true
      · rw [if_pos kept, if_pos kept, List.eraseDupsBy_cons, List.filter_filter, List.filter_filter]
        simp only [Bool.and_comm]
      · rw [if_neg kept, if_neg kept, List.filter_filter]
        congr 1
        apply List.filter_congr
        intro other _
        by_cases same : fold other = fold name
        · simp [folded _ _ same, kept]
        · simp [sameFolding, same]

/-- New names are listed behind those that are there, each in its first spelling. -/
theorem values_remember (names : List String) (table : Table String) :
    (remember names table).values = table.values ++
      (names.eraseDupsBy sameFolding).filter fun name => !table.contains (fold name) := by
  induction names generalizing table with
  | nil => simp [remember, Table.values]
  | cons name rest ih =>
    rw [remember, List.foldl_cons, ← remember, ih, Table.insertNew, List.eraseDupsBy_cons,
      eraseDupsBy_filter (by simp +contextual [sameFolding]), List.filter_cons, List.filter_filter]
    cases present : table.contains (fold name) with
    | true =>
      simp only [if_true, Bool.not_true, Bool.false_eq_true, if_false]
      congr 1
      apply List.filter_congr
      intro other _
      by_cases same : fold other = fold name
      · simp [same, present]
      · simp [sameFolding, same]
    | false =>
      have entered (other : String) : Table.contains (table ++ [(fold name, name)]) (fold other) =
          (table.contains (fold other) || sameFolding other name) := by
        rw [Bool.eq_iff_iff, Bool.or_eq_true, Table.contains_iff, Table.contains_iff]
        simp [Table.keys, sameFolding]
      simp only [Bool.false_eq_true, if_false, Bool.not_false, if_true, entered, Table.values,
        List.map_append, List.map_cons, List.map_nil, List.append_assoc, List.singleton_append]
      congr 2
      apply List.filter_congr
      intro other _
      simp

/-! ### Registrations that succeed -/

theorem mem_onSuccess {result : Except Refusal (Registry α)} {event other : Event α}
    (member : other ∈ onSuccess result event) : other = event := by
  cases result with
  | ok next => exact List.mem_singleton.mp member
  | error refusal => cases member

end Registry

namespace Library

theorem mem_runEvents {runs : List (Entry α)} {registry : Registry α} {event : Registry.Event α}
    (member : event ∈ runEvents runs registry) : ∃ entry ∈ runs, entry.2 = some event := by
  induction runs generalizing registry with
  | nil => cases member
  | cons entry rest ih =>
    rw [runEvents] at member
    split at member
    · rcases List.mem_append.mp member with first | later
      · exact ⟨entry, List.mem_cons_self, Option.mem_toList.mp first⟩
      · obtain ⟨other, listed, entered⟩ := ih later
        exact ⟨other, List.mem_cons_of_mem _ listed, entered⟩
    · cases member

theorem installEvents_writable {draws : Draws} {vocabulary : Vocabulary} {registry : Registry α} :
    ∀ event ∈ installEvents draws vocabulary registry, event.Writable := by
  intro event member
  simp only [installEvents] at member
  split at member
  · obtain ⟨entry, listed, entered⟩ := mem_runEvents member
    rcases List.mem_append.mp listed with constants | descriptors
    · obtain ⟨constant, _, rfl⟩ := List.mem_map.mp constants
      obtain ⟨value, _, rfl⟩ := Option.map_eq_some_iff.mp entered
      trivial
    · obtain ⟨made, among, rfl⟩ := List.mem_map.mp descriptors
      obtain ⟨descriptor, found, rfl⟩ := Option.map_eq_some_iff.mp entered
      rw [eq_ok_of_toOption found] at among
      exact (Registry.Event.writable_ofDescriptor descriptor).mpr (madeDescriptors_writable among)
  · cases member

end Library

namespace Registry

theorem valueEvents_writable {registry : Registry α} {call : ValueCall} :
    ∀ event ∈ registry.valueEvents call, event.Writable := by
  intro event member
  cases call with
  | addConstant name datum overwrite | setVariable name datum =>
    rw [valueEvents] at member
    split at member
    · rw [mem_onSuccess member]
      trivial
    · cases member
  | removeVariable name =>
    rw [List.mem_singleton.mp member]
    trivial

/-- A call that registers only what can be announced enters only such entries. -/
theorem events_writable {registry : Registry α} {call : Call α} (writable : call.Writable) :
    ∀ event ∈ registry.events call, event.Writable := by
  cases call with
  | value call => exact valueEvents_writable
  | addFunction _ | addUnary _ | addBinary _ =>
    intro event member
    rw [mem_onSuccess member]
    exact writable
  | copy => exact List.forall_mem_nil _
  | install draws vocabulary => exact Library.installEvents_writable

theorem onSuccess_add (registry : Registry α) (descriptor : Descriptor α) :
    onSuccess (registry.add descriptor) (.ofDescriptor descriptor) =
      (onSuccess (registry.enterDescriptor descriptor) (.ofDescriptor descriptor)).filter (·.Writable) := by
  rw [add]
  cases entered : registry.enterDescriptor descriptor with
  | error refusal =>
    rw [register_of_refused entered]
    rfl
  | ok next =>
    rw [register_of_entered entered]
    by_cases writable : descriptor.Writable
    · simp [writable, onSuccess, Attempt.outcome, Event.writable_ofDescriptor]
    · simp [writable, onSuccess, Attempt.outcome, Event.writable_ofDescriptor]

/-- What a call enters if it succeeds are those of its entries that can be announced. -/
theorem successful_eq_filter (registry : Registry α) (call : Call α) :
    registry.successful call = (registry.events call).filter (·.Writable) := by
  have all (writable : call.Writable) :
      registry.events call = (registry.events call).filter (·.Writable) := by
    refine (List.filter_eq_self.mpr ?_).symm
    intro event member
    exact decide_eq_true (events_writable writable event member)
  cases call with
  | value call => exact all trivial
  | addFunction function => exact registry.onSuccess_add (.function function)
  | addUnary operator => exact registry.onSuccess_add (.unary operator)
  | addBinary operator => exact registry.onSuccess_add (.binary operator)
  | copy => rfl
  | install draws vocabulary => exact all trivial

theorem successes_eq_filter (registry : Registry α) (calls : List (Call α)) :
    registry.successes calls = (registry.history calls).filter (·.Writable) := by
  induction calls generalizing registry with
  | nil => rfl
  | cons call rest ih => rw [successes, history, List.filter_append, successful_eq_filter, ih]

theorem history_writable {calls : List (Call α)} (writable : ∀ call ∈ calls, call.Writable)
    (registry : Registry α) : ∀ event ∈ registry.history calls, event.Writable := by
  induction calls generalizing registry with
  | nil => exact List.forall_mem_nil _
  | cons call rest ih =>
    obtain ⟨first, others⟩ := List.forall_mem_cons.mp writable
    exact List.forall_mem_append.mpr ⟨events_writable first, ih others _⟩

/-- A registry is what its history says. A function or an operator of a name is the one that was entered last among
those with a name of that folding, a constant is what was defined last under the folding, a variable is what was set
last under the very name unless it was removed since, and the names of functions and operators are listed in the order
and the spellings of their first entries. Of the entries exactly those come from registrations that succeed whose
numbers can be announced. So where this is so of all that calls register, the registry is what the registrations that
succeed say. -/
theorem lookups_afterCalls (system : NumberSystem α) (settings : Settings) (calls : List (Call α))
    (name : String) :
    let registry := afterCalls system settings calls
    let events := (empty system settings).history calls
    let succeeded := (empty system settings).successes calls
    (registry.getFunction? name = lastAnswer (Event.function? name) events ∧
      registry.getUnary? name = lastAnswer (Event.unary? name) events ∧
      registry.getBinary? name = lastAnswer (Event.binary? name) events ∧
      registry.getConstant? name = lastAnswer (Event.constant? name) events ∧
      registry.getVariable? name = (lastAnswer (Event.binding? name) events).join ∧
      registry.functionNames = (events.flatMap Event.callables).eraseDupsBy sameFolding) ∧
    succeeded = events.filter (·.Writable) ∧
    ((∀ call ∈ calls, call.Writable) → events = succeeded) := by
  intro registry events succeeded
  have filtered : succeeded = events.filter (·.Writable) := successes_eq_filter _ calls
  have recorded : registry = events.foldl record (empty system settings) :=
    foldl_perform_eq_record calls _
  rw [recorded]
  refine ⟨⟨?_, ?_, ?_, ?_, ?_, ?_⟩, filtered, ?_⟩
  · rw [read_foldl_record (getFunction? · name) _ (getFunction?_record name)]
    exact Option.or_none
  · rw [read_foldl_record (getUnary? · name) _ (getUnary?_record name)]
    exact Option.or_none
  · rw [read_foldl_record (getBinary? · name) _ (getBinary?_record name)]
    exact Option.or_none
  · rw [read_foldl_record (getConstant? · name) _ (getConstant?_record name)]
    exact Option.or_none
  · have last := read_foldl_record (fun registry => some (registry.getVariable? name)) _
      (getVariable?_record name) events (empty system settings)
    cases answered : lastAnswer (Event.binding? name) events with
    | none =>
      rw [answered] at last
      exact Option.some.inj last
    | some value =>
      rw [answered] at last
      exact Option.some.inj last
  · rw [functionNames, names_foldl_record, values_remember]
    simp [empty, Table.values, Table.contains, Table.find?]
  · intro writable
    rw [filtered]
    refine (List.filter_eq_self.mpr ?_).symm
    intro event member
    exact decide_eq_true (history_writable writable _ event member)

/-- The registration of an operator whose precedence has too many digits to be announced fails, and the operator is
looked up and listed all the same. -/
theorem lookups_unannounced :
    let operator : BinaryOperator Int := ⟨⟨"plus", [], none⟩, 10 ^ Numeral.digitLimit, .left, fun x y => .ok (x + y)⟩
    let start := empty (NumberSystem.Integer.system ⟨none⟩) Settings.standard
    let registry := afterCalls (NumberSystem.Integer.system ⟨none⟩) Settings.standard [.addBinary operator]
    start.add (.binary operator) = .error (.failed NumberSystem.tooLong) ∧
      start.successes [.addBinary operator] = [] ∧
      (registry.getBinary? "plus").map (·.name) = some "plus" ∧ registry.functionNames = ["plus"] ∧
      registry.getBinary? "plus" ≠ lastAnswer (Event.binary? "plus") (start.successes [.addBinary operator]) := by
  generalize count : (10 : Int) ^ Numeral.digitLimit = precedence
  intro operator start registry
  have long : ¬ (Descriptor.binary operator).Writable := by
    have ten : (10 : Int).natAbs = 10 := rfl
    have digits : precedence.natAbs = 10 ^ Numeral.digitLimit := by rw [← count, Int.natAbs_pow, ten]
    rw [Descriptor.Writable, digits]
    exact Nat.lt_irrefl _
  have entered : start.enterDescriptor (.binary operator) = .ok _ := rfl
  have refused : start.add (.binary operator) = .error (.failed NumberSystem.tooLong) := by
    rw [add, register_of_entered entered, if_neg long]
    rfl
  have left : registry = start.record (.binary operator) := by
    change (start.register (.binary operator)).1 = _
    rw [register_of_entered entered]
    rfl
  have none : start.successes [.addBinary operator] = [] := by
    rw [successes, successful, refused]
    rfl
  have named : fold "plus" ∈ operator.names.map fold := List.mem_cons_self
  have found : registry.getBinary? "plus" = some operator := by
    rw [left, getBinary?_record, Event.binary?, if_pos named]
    rfl
  refine ⟨refused, none, ?_, ?_, ?_⟩
  · rw [found]
    rfl
  · rw [left]
    rfl
  · rw [found, none]
    exact Option.some_ne_none operator

end Registry

end Reckoner

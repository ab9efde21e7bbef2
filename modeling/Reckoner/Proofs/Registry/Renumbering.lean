import Reckoner.Proofs.Registry.History
import Mathlib.Data.List.Induction

/-! Entries that are made again. What a run of entries registers takes the places that it has taken before, under
greater serial numbers; all that had been there before the first run keeps its numbers. So the registry differs in its
serial numbers only, and they are as different as they were. -/

namespace Reckoner

open Reckoner.Unicode

/-! ### Tables -/

namespace Table

variable {β γ : Type}

/-- Sets several entries, one after the other. -/
def insertAll (writes table : Table β) : Table β :=
  writes.foldl (fun table entry => table.insert entry.1 entry.2) table

/-- Changes what is kept under the keys. -/
def mapValues (change : β → γ) (table : Table β) : Table γ := table.map (Prod.map id change)

theorem keys_mapValues (change : β → γ) (table : Table β) : keys (mapValues change table) = keys table := by
  simp [keys, mapValues]

theorem mapValues_of_fixed {change : β → β} {table : Table β} (fixed : ∀ entry ∈ table, change entry.2 = entry.2) :
    mapValues change table = table := by
  have same : ∀ entry ∈ table, Prod.map id change entry = id entry := fun entry member =>
    Prod.ext rfl (fixed entry member)
  rw [mapValues, List.map_congr_left same, List.map_id]

theorem find?_mapValues (change : β → γ) (table : Table β) (key : String) :
    find? (mapValues change table) key = (find? table key).map change := by
  induction table with
  | nil => rfl
  | cons entry rest ih =>
    obtain ⟨present, old⟩ := entry
    simp only [find?, mapValues] at ih
    by_cases same : key = present
    · simp [find?, mapValues, same]
    · have unequal : (key == present) = false := by simpa using same
      simp [find?, mapValues, List.lookup_cons, unequal, ih]

theorem mapValues_insert (change : β → γ) (key : String) (value : β) (table : Table β) :
    mapValues change (insert key value table) = insert key (change value) (mapValues change table) := by
  induction table with
  | nil => rfl
  | cons entry rest ih =>
    obtain ⟨present, old⟩ := entry
    simp only [mapValues] at ih
    simp only [insert, mapValues, List.map_cons, Prod.map]
    split <;> simp_all

theorem insert_insert_self (key : String) (first second : β) (table : Table β) :
    insert key second (insert key first table) = insert key second table := by
  induction table with
  | nil => simp [insert]
  | cons entry rest ih =>
    obtain ⟨present, old⟩ := entry
    by_cases same : key = present
    · simp [insert, same]
    · simp [insert, same, ih]

/-- A key that is present keeps its place, so another one can be entered before or after it. -/
theorem insert_insert_comm {key other : String} (apart : other ≠ key) (value : β) (further : β) {table : Table β}
    (present : key ∈ keys table) :
    insert key value (insert other further table) = insert other further (insert key value table) := by
  induction table with
  | nil => cases present
  | cons entry rest ih =>
    obtain ⟨first, old⟩ := entry
    by_cases same : key = first
    · subst same
      simp [insert, apart]
    · have behind : key ∈ keys rest := (List.mem_cons.mp present).resolve_left same
      by_cases second : other = first
      · simp [insert, same, second]
      · simp [insert, same, second, ih behind]

theorem mem_keys_insertAll {key : String} {writes table : Table β} :
    key ∈ keys (insertAll writes table) ↔ key ∈ keys writes ∨ key ∈ keys table := by
  induction writes generalizing table with
  | nil => simp [insertAll, keys]
  | cons entry rest ih =>
    rw [insertAll, List.foldl_cons, ← insertAll, ih, mem_keys_insert]
    simp [keys, or_left_comm, or_assoc]

theorem insertAll_append (first second table : Table β) :
    insertAll (first ++ second) table = insertAll second (insertAll first table) :=
  List.foldl_append

theorem values_insertAll (holds : β → Prop) {writes table : Table β} (written : ∀ entry ∈ writes, holds entry.2)
    (present : ∀ entry ∈ table, holds entry.2) : ∀ entry ∈ insertAll writes table, holds entry.2 := by
  apply List.foldlRecOn (motive := fun table : Table β => ∀ entry ∈ table, holds entry.2) writes _ present
  intro table kept entry member other among
  rcases mem_insert among with same | before
  · rw [same]
    exact written entry member
  · exact kept other before

/-- What is set at last may as well be set at first as at once, if all other keys have their places. -/
theorem insert_insertAll {key : String} (first second : β) {writes table : Table β}
    (present : ∀ other ∈ keys writes, other ∈ keys table) :
    insert key second (insertAll writes (insert key first table)) = insert key second (insertAll writes table) := by
  induction writes generalizing table with
  | nil => exact insert_insert_self key first second table
  | cons entry rest ih =>
    obtain ⟨other, value⟩ := entry
    obtain ⟨there, others⟩ := List.forall_mem_cons.mp present
    have kept : ∀ further ∈ keys rest, further ∈ keys (insert other value table) :=
      fun further member => mem_keys_insert.mpr (.inr (others further member))
    rw [insertAll, insertAll, List.foldl_cons, List.foldl_cons, ← insertAll, ← insertAll]
    by_cases same : key = other
    · rw [same, insert_insert_self]
    · rw [insert_insert_comm same value first there, ih kept]

/-- Entries that are set again, all changed in the same way, are changed in their places. -/
theorem insertAll_again {change : β → β} (writes : Table β) {table : Table β}
    (fixed : ∀ entry ∈ table, change entry.2 = entry.2) :
    insertAll (mapValues change writes) (insertAll writes table) = mapValues change (insertAll writes table) := by
  induction writes using List.reverseRecOn with
  | nil => exact (mapValues_of_fixed fixed).symm
  | append_singleton rest entry ih =>
    have placed : ∀ key ∈ keys (mapValues change rest), key ∈ keys (insertAll rest table) := by
      intro key member
      rw [keys_mapValues] at member
      exact mem_keys_insertAll.mpr (.inl member)
    have split : mapValues change (rest ++ [entry]) = mapValues change rest ++ [(entry.1, change entry.2)] :=
      List.map_append
    calc insertAll (mapValues change (rest ++ [entry])) (insertAll (rest ++ [entry]) table)
      _ = insert entry.1 (change entry.2)
            (insertAll (mapValues change rest) (insert entry.1 entry.2 (insertAll rest table))) := by
        rw [split, insertAll_append, insertAll_append]
        rfl
      _ = insert entry.1 (change entry.2) (insertAll (mapValues change rest) (insertAll rest table)) :=
        insert_insertAll _ _ placed
      _ = mapValues change (insert entry.1 entry.2 (insertAll rest table)) := by
        rw [ih, mapValues_insert]
      _ = mapValues change (insertAll (rest ++ [entry]) table) := by
        rw [insertAll_append]
        rfl

theorem insertAll_insertAll (writes table : Table β) :
    insertAll writes (insertAll writes table) = insertAll writes table := by
  have again : insertAll (mapValues id writes) (insertAll writes table) = mapValues id (insertAll writes table) :=
    insertAll_again writes fun _ _ => rfl
  rwa [mapValues_of_fixed fun _ _ => rfl, mapValues_of_fixed fun _ _ => rfl] at again

end Table

/-! ### Serial numbers -/

/-- An item under another serial number. -/
def Registered.renumber {β : Type} (change : Nat → Nat) (item : Registered β) : Registered β :=
  ⟨change item.serial, item.entry⟩

namespace Registry

variable {α β : Type} {registry : Registry α}

namespace Event

/-- The functions that an entry enters under folded names. -/
def functions : Event α → Table (NamedFunction α)
  | function f => f.names.map fun name => (fold name, f)
  | _ => []

/-- The unary operators that an entry enters under folded names. -/
def unaryOperators : Event α → Table (UnaryOperator α)
  | unary operator => operator.names.map fun name => (fold name, operator)
  | _ => []

/-- The binary operators that an entry enters under folded names. -/
def binaryOperators : Event α → Table (BinaryOperator α)
  | binary operator => operator.names.map fun name => (fold name, operator)
  | _ => []

/-- The constants that an entry enters under folded names. -/
def constants : Event α → Table (String × α)
  | constant name value => [(fold name, (name, value))]
  | _ => []

/-- How many serial numbers an entry takes. -/
def serials : Event α → Nat
  | function _ | unary _ | binary _ => 1
  | _ => 0

/-- How many serial numbers entries take. -/
def allSerials (events : List (Event α)) : Nat := events.foldr (fun event taken => event.serials + taken) 0

/-- Whether an entry leaves all variables. -/
def IsLasting : Event α → Prop
  | binding _ _ | removal _ => False
  | _ => True

end Event

theorem nextSerial_record (registry : Registry α) (event : Event α) :
    (registry.record event).nextSerial = registry.nextSerial + event.serials := by
  cases event with
  | _ => rfl

theorem nextSerial_foldl_record (events : List (Event α)) (registry : Registry α) :
    (events.foldl record registry).nextSerial = registry.nextSerial + Event.allSerials events := by
  induction events generalizing registry with
  | nil => rfl
  | cons event rest ih =>
    rw [List.foldl_cons, ih, nextSerial_record, Nat.add_assoc]
    rfl

/-- Numbers from a place on are as much greater as is given; those before it stay. -/
def shift (start count serial : Nat) : Nat := if serial < start then serial else serial + count

theorem shift_of_lt {start count serial : Nat} (before : serial < start) : shift start count serial = serial :=
  if_pos before

theorem shift_of_le {start count serial : Nat} (behind : start ≤ serial) :
    shift start count serial = serial + count :=
  if_neg (Nat.not_lt.mpr behind)

theorem shift_injective (start count : Nat) : Function.Injective (shift start count) := by
  intro first second same
  unfold shift at same
  split at same <;> split at same <;> omega

/-! ### Tables under serial numbers -/

/-- What entries set in a table, under serial numbers from a given one on. -/
def writes (made : Event α → Table β) : Nat → List (Event α) → Table (Registered β)
  | _, [] => []
  | serial, event :: rest =>
    (made event).mapValues (Registered.mk serial) ++ writes made (serial + event.serials) rest

/-- Whether a table has what is made by the entries, each under its serial number. -/
structure Tabulates (table : Registry α → Table (Registered β)) (made : Event α → Table β) : Prop where
  empty : ∀ system settings, table (empty system settings) = []
  record : ∀ registry event, table (registry.record event) =
    Table.insertAll ((made event).mapValues (Registered.mk registry.nextSerial)) (table registry)
  numbered : ∀ event, ∀ entry ∈ made event, event.serials = 1

theorem enter_eq_insertAll (serial : Nat) (names : List String) (item : β) (table : Table (Registered β)) :
    enter names ⟨serial, item⟩ table =
      Table.insertAll (Table.mapValues (Registered.mk serial) (names.map fun name => (fold name, item))) table := by
  rw [enter, Table.insertAll, Table.mapValues, List.map_map, List.foldl_map]
  rfl

theorem tabulates_functions : Tabulates (α := α) Registry.functions Event.functions where
  empty _ _ := rfl
  record registry event := by
    cases event with
    | function f => exact enter_eq_insertAll _ _ _ _
    | _ => rfl
  numbered event entry made := by
    cases event with
    | function f => rfl
    | _ => cases made

theorem tabulates_unary : Tabulates (α := α) Registry.unary Event.unaryOperators where
  empty _ _ := rfl
  record registry event := by
    cases event with
    | unary operator => exact enter_eq_insertAll _ _ _ _
    | _ => rfl
  numbered event entry made := by
    cases event with
    | unary operator => rfl
    | _ => cases made

theorem tabulates_binary : Tabulates (α := α) Registry.binary Event.binaryOperators where
  empty _ _ := rfl
  record registry event := by
    cases event with
    | binary operator => exact enter_eq_insertAll _ _ _ _
    | _ => rfl
  numbered event entry made := by
    cases event with
    | binary operator => rfl
    | _ => cases made

theorem writes_shift (made : Event α → Table β) {start count serial : Nat} (behind : start ≤ serial)
    (events : List (Event α)) :
    writes made (serial + count) events =
      (writes made serial events).mapValues (Registered.renumber (shift start count)) := by
  induction events generalizing serial with
  | nil => rfl
  | cons event rest ih =>
    have later : start ≤ serial + event.serials := Nat.le_add_right_of_le behind
    have first : (made event).mapValues (Registered.mk (serial + count)) =
        ((made event).mapValues (Registered.mk serial)).mapValues (Registered.renumber (shift start count)) := by
      simp [Table.mapValues, Registered.renumber, shift_of_le behind, Function.comp_def, Prod.map]
    rw [writes, writes, Nat.add_right_comm, ih later, first]
    exact List.map_append.symm

namespace Tabulates

variable {table : Registry α → Table (Registered β)} {made : Event α → Table β} (tabulates : Tabulates table made)
include tabulates

theorem foldl_record (events : List (Event α)) (registry : Registry α) :
    table (events.foldl Registry.record registry) =
      Table.insertAll (writes made registry.nextSerial events) (table registry) := by
  induction events generalizing registry with
  | nil => rfl
  | cons event rest ih =>
    rw [List.foldl_cons, ih, tabulates.record, nextSerial_record, writes, Table.insertAll_append]

theorem serial_lt_foldl_record {registry : Registry α}
    (taken : ∀ entry ∈ table registry, entry.2.serial < registry.nextSerial) (events : List (Event α)) :
    ∀ entry ∈ table (events.foldl Registry.record registry),
      entry.2.serial < (events.foldl Registry.record registry).nextSerial := by
  induction events generalizing registry with
  | nil => exact taken
  | cons event rest ih =>
    apply ih
    rw [tabulates.record, nextSerial_record]
    apply Table.values_insertAll fun item : Registered β => item.serial < registry.nextSerial + event.serials
    · intro entry written
      obtain ⟨given, member, rfl⟩ := List.mem_map.mp written
      rw [tabulates.numbered event given member]
      exact Nat.lt_succ_self _
    · intro entry member
      exact Nat.lt_add_right _ (taken entry member)

theorem again {registry : Registry α} (taken : ∀ entry ∈ table registry, entry.2.serial < registry.nextSerial)
    (events : List (Event α)) :
    table (events.foldl Registry.record (events.foldl Registry.record registry)) =
      (table (events.foldl Registry.record registry)).mapValues
        (Registered.renumber (shift registry.nextSerial (Event.allSerials events))) := by
  have fixed : ∀ entry ∈ table registry,
      Registered.renumber (shift registry.nextSerial (Event.allSerials events)) entry.2 = entry.2 := by
    intro entry member
    rw [Registered.renumber, shift_of_lt (taken entry member)]
  rw [tabulates.foldl_record events (events.foldl Registry.record registry), nextSerial_foldl_record,
    writes_shift made (Nat.le_refl _), tabulates.foldl_record events registry]
  exact Table.insertAll_again _ fixed

end Tabulates

/-! ### Renumbered registries -/

attribute [ext] Registry

/-- A registry with other serial numbers. -/
def renumber (change : Nat → Nat) (registry : Registry α) : Registry α := { registry with
  functions := registry.functions.mapValues (Registered.renumber change)
  unary := registry.unary.mapValues (Registered.renumber change)
  binary := registry.binary.mapValues (Registered.renumber change)
  nextSerial := change registry.nextSerial }

section Reading

variable (change : Nat → Nat) (registry : Registry α) (name : String)

theorem getFunction?_renumber : (registry.renumber change).getFunction? name = registry.getFunction? name := by
  rw [getFunction?, renumber, Table.find?_mapValues, Option.map_map]
  rfl

theorem getUnary?_renumber : (registry.renumber change).getUnary? name = registry.getUnary? name := by
  rw [getUnary?, renumber, Table.find?_mapValues, Option.map_map]
  rfl

theorem getBinary?_renumber : (registry.renumber change).getBinary? name = registry.getBinary? name := by
  rw [getBinary?, renumber, Table.find?_mapValues, Option.map_map]
  rfl

theorem descriptorsOf_renumber (key : String) :
    (registry.renumber change).descriptorsOf key =
      (registry.descriptorsOf key).map (Registered.renumber change) := by
  simp only [descriptorsOf, renumber, Table.find?_mapValues, List.map_append, Option.map_map]
  cases registry.functions.find? key <;> cases registry.unary.find? key <;> cases registry.binary.find? key <;> rfl

end Reading

/-- Items that have different numbers have different ones afterwards, so the same ones come first. -/
theorem distinct_renumber {change : Nat → Nat} (injective : Function.Injective change)
    (items : List (Registered β)) (seen : List Nat) :
    distinct (items.map (Registered.renumber change)) (seen.map change) = distinct items seen := by
  induction items generalizing seen with
  | nil => rfl
  | cons item rest ih =>
    have known : (seen.map change).contains (change item.serial) = seen.contains item.serial := by
      rw [Bool.eq_iff_iff, List.contains_iff_mem, List.contains_iff_mem, List.mem_map_of_injective injective]
    rw [List.map_cons, distinct, distinct]
    change (if (seen.map change).contains (change item.serial) then _
      else item.entry :: distinct _ ((item.serial :: seen).map change)) = _
    rw [known, ih, ih]

theorem descriptors_renumber {change : Nat → Nat} (injective : Function.Injective change) (registry : Registry α) :
    (registry.renumber change).descriptors = registry.descriptors := by
  have mapped : (registry.renumber change).descriptorsOf =
      fun key => (registry.descriptorsOf key).map (Registered.renumber change) :=
    funext (descriptorsOf_renumber change registry)
  have listed : (registry.renumber change).names = registry.names := rfl
  rw [descriptors, listed, mapped, ← List.map_flatMap]
  exact distinct_renumber injective _ []

/-! ### Entries that are made again -/

theorem remember_of_mem {names : List String} {table : Table String}
    (present : ∀ key ∈ names.map fold, key ∈ table.keys) : remember names table = table := by
  induction names with
  | nil => rfl
  | cons name rest ih =>
    obtain ⟨first, others⟩ := List.forall_mem_cons.mp present
    rw [remember, List.foldl_cons, Table.insertNew, if_pos ((Table.contains_iff table _).mpr first)]
    exact ih others

theorem constants_foldl_record (events : List (Event α)) (registry : Registry α) :
    (events.foldl record registry).constants =
      Table.insertAll (events.flatMap Event.constants) registry.constants := by
  induction events generalizing registry with
  | nil => rfl
  | cons event rest ih =>
    rw [List.foldl_cons, ih, List.flatMap_cons, Table.insertAll_append]
    cases event with
    | _ => rfl

theorem bindings_foldl_record {events : List (Event α)} (lasting : ∀ event ∈ events, event.IsLasting)
    (registry : Registry α) : (events.foldl record registry).bindings = registry.bindings := by
  apply List.foldlRecOn (motive := fun next : Registry α => next.bindings = registry.bindings) _ _ rfl
  intro next same event member
  have kept := lasting event member
  cases event with
  | binding | removal => cases kept
  | _ => exact same

/-- What a registry has taken so far are serial numbers before the next one. -/
structure Numbered (registry : Registry α) : Prop where
  functions : ∀ entry ∈ registry.functions, entry.2.serial < registry.nextSerial
  unary : ∀ entry ∈ registry.unary, entry.2.serial < registry.nextSerial
  binary : ∀ entry ∈ registry.binary, entry.2.serial < registry.nextSerial

theorem numbered_afterCalls (system : NumberSystem α) (settings : Settings) (calls : List (Call α)) :
    Numbered (afterCalls system settings calls) := by
  rw [afterCalls, foldl_perform_eq_record]
  constructor
  · exact tabulates_functions.serial_lt_foldl_record (List.forall_mem_nil _) _
  · exact tabulates_unary.serial_lt_foldl_record (List.forall_mem_nil _) _
  · exact tabulates_binary.serial_lt_foldl_record (List.forall_mem_nil _) _

/-- Entries that are made again change no more than the serial numbers. -/
theorem foldl_record_again {registry : Registry α} (numbered : registry.Numbered) {events : List (Event α)}
    (lasting : ∀ event ∈ events, event.IsLasting) :
    events.foldl record (events.foldl record registry) =
      (events.foldl record registry).renumber
        (shift registry.nextSerial (Event.allSerials events)) := by
  apply Registry.ext
  case system => exact system_foldl_record events _
  case settings => exact settings_foldl_record events _
  case constants =>
    change _ = (events.foldl record registry).constants
    rw [constants_foldl_record, constants_foldl_record, Table.insertAll_insertAll]
  case bindings => exact bindings_foldl_record lasting _
  case functions => exact tabulates_functions.again numbered.functions events
  case unary => exact tabulates_unary.again numbered.unary events
  case binary => exact tabulates_binary.again numbered.binary events
  case names =>
    change _ = (events.foldl record registry).names
    rw [names_foldl_record, names_foldl_record]
    apply remember_of_mem
    intro key member
    exact mem_keys_remember.mpr (.inl member)
  case nextSerial =>
    rw [nextSerial_foldl_record, renumber, nextSerial_foldl_record, shift_of_le (Nat.le_add_right _ _)]

end Registry

end Reckoner

import Reckoner.Proofs.Registry.History

/-! Registries that agree on some names: what these stand for, and their places among the names of
functions and operators and among those of values. An entry under other names changes nothing of
this. -/

namespace Reckoner.Registry

open Reckoner.Unicode

variable {α : Type}

/-- Whether two registries have one number system and the same settings, and agree on the names with a
property. -/
structure AgreeOn (known : String → Prop) (first second : Registry α) : Prop where
  system : first.system = second.system
  settings : first.settings = second.settings
  functions : ∀ name, known name → first.getFunction? name = second.getFunction? name
  unary : ∀ name, known name → first.getUnary? name = second.getUnary? name
  binary : ∀ name, known name → first.getBinary? name = second.getBinary? name
  constants : ∀ name, known name → first.getConstant? name = second.getConstant? name
  bindings : ∀ name, known name → first.getVariable? name = second.getVariable? name
  functionNames : ∀ keeps : String → Bool, (∀ name, keeps name = true → known name) →
    first.functionNames.filter keeps = second.functionNames.filter keeps
  valueNames : ∀ keeps : String → Bool, (∀ name, keeps name = true → known name) →
    first.valueNames.filter keeps = second.valueNames.filter keeps

namespace AgreeOn

variable {known : String → Prop} {first second third : Registry α}

theorem refl (registry : Registry α) : AgreeOn known registry registry :=
  ⟨rfl, rfl, fun _ _ => rfl, fun _ _ => rfl, fun _ _ => rfl, fun _ _ => rfl, fun _ _ => rfl,
    fun _ _ => rfl, fun _ _ => rfl⟩

theorem trans (left : AgreeOn known first second) (right : AgreeOn known second third) :
    AgreeOn known first third where
  system := left.system.trans right.system
  settings := left.settings.trans right.settings
  functions name member := (left.functions name member).trans (right.functions name member)
  unary name member := (left.unary name member).trans (right.unary name member)
  binary name member := (left.binary name member).trans (right.binary name member)
  constants name member := (left.constants name member).trans (right.constants name member)
  bindings name member := (left.bindings name member).trans (right.bindings name member)
  functionNames keeps only := (left.functionNames keeps only).trans (right.functionNames keeps only)
  valueNames keeps only := (left.valueNames keeps only).trans (right.valueNames keeps only)

end AgreeOn

/-! ### Constants under the foldings of their spellings -/

/-- Whether every constant is kept under the folding of its spelling. -/
def Keyed (registry : Registry α) : Prop := ∀ entry ∈ registry.constants, entry.1 = fold entry.2.1

theorem Keyed.record {registry : Registry α} (keyed : registry.Keyed) (event : Event α) :
    (registry.record event).Keyed := by
  cases event with
  | constant name value =>
    intro entry member
    rcases WellNamed.eq_or_mem_of_mem_insert member with rfl | present
    · rfl
    · exact keyed entry present
  | _ => exact keyed

theorem keyed_afterCalls (system : NumberSystem α) (settings : Settings) (calls : List (Call α)) :
    (afterCalls system settings calls).Keyed := by
  rw [afterCalls, foldl_perform_eq_record]
  exact List.foldlRecOn _ record nofun fun _ keyed event _ => keyed.record event

/-! ### Names that are left out -/

variable {keeps : String → Bool} {name : String}

theorem filter_values_insertNew (dropped : keeps name = false) (key : String)
    (table : Table String) :
    (Table.insertNew key name table).values.filter keeps = table.values.filter keeps := by
  unfold Table.insertNew
  split
  · rfl
  · simp [Table.values, dropped]

theorem filter_values_remember {names : List String} (dropped : ∀ name ∈ names, keeps name = false)
    (table : Table String) :
    (remember names table).values.filter keeps = table.values.filter keeps := by
  induction names generalizing table with
  | nil => rfl
  | cons name rest ih =>
    obtain ⟨first, others⟩ := List.forall_mem_cons.mp dropped
    rw [remember, List.foldl_cons, ← remember, ih others, filter_values_insertNew first]

theorem filter_spellings_insert (dropped : ∀ other, fold other = fold name → keeps other = false)
    (value : α) {table : Table (String × α)} (keyed : ∀ entry ∈ table, entry.1 = fold entry.2.1) :
    ((table.insert (fold name) (name, value)).values.map Prod.fst).filter keeps =
      (table.values.map Prod.fst).filter keeps := by
  induction table with
  | nil => simp [Table.insert, Table.values, dropped name rfl]
  | cons entry rest ih =>
    obtain ⟨present, spelled, old⟩ := entry
    obtain ⟨first, others⟩ := List.forall_mem_cons.mp keyed
    have tail := ih others
    simp only [Table.values] at tail ⊢
    unfold Table.insert
    split
    · rename_i same
      have again : fold spelled = fold name := first.symm.trans (eq_of_beq same).symm
      simp [dropped name rfl, dropped spelled again]
    · simp only [List.map_cons, List.filter_cons, tail]

theorem filter_keys_insert (dropped : keeps name = false) (value : α) (table : Table α) :
    (table.insert name value).keys.filter keeps = table.keys.filter keeps := by
  rw [Table.keys_insert]
  split
  · rfl
  · simp [dropped]

theorem filter_keys_erase (dropped : keeps name = false) (table : Table α) :
    (table.erase name).keys.filter keeps = table.keys.filter keeps := by
  simp only [Table.keys, Table.erase, List.filter_map, List.filter_filter]
  congr 1
  apply List.filter_congr
  intro entry _
  by_cases same : entry.1 = name
  · simp [same, dropped]
  · simp [same]

/-! ### Entries -/

namespace Event

variable {event : Event α}

theorem mem_names_of_mem_callables (member : name ∈ event.callables) : name ∈ event.names := by
  cases event with
  | function => exact member
  | unary => exact member
  | binary => exact member
  | _ => cases member

section Unnamed

variable (unnamed : fold name ∉ event.names.map fold)

include unnamed

theorem function?_eq_none : event.function? name = none := by
  cases event with
  | function => exact if_neg unnamed
  | _ => rfl

theorem unary?_eq_none : event.unary? name = none := by
  cases event with
  | unary => exact if_neg unnamed
  | _ => rfl

theorem binary?_eq_none : event.binary? name = none := by
  cases event with
  | binary => exact if_neg unnamed
  | _ => rfl

theorem constant?_eq_none : event.constant? name = none := by
  cases event with
  | constant => exact if_neg fun same => unnamed (List.mem_singleton.mpr same)
  | _ => rfl

theorem binding?_eq_none : event.binding? name = none := by
  have apart {bound : String} (member : bound ∈ event.names) : name ≠ bound :=
    fun same => unnamed (same ▸ List.mem_map_of_mem member)
  cases event with
  | binding => exact if_neg (apart List.mem_cons_self)
  | removal => exact if_neg (apart List.mem_cons_self)
  | _ => rfl

end Unnamed

end Event

variable {registry : Registry α} {event : Event α}

theorem filter_valueNames_record (keyed : registry.Keyed)
    (dropped : ∀ name ∈ event.names, ∀ other, fold other = fold name → keeps other = false) :
    (registry.record event).valueNames.filter keeps = registry.valueNames.filter keeps := by
  rw [valueNames, valueNames, List.filter_append, List.filter_append]
  cases event with
  | constant name value =>
    have spellings := filter_spellings_insert (dropped name List.mem_cons_self) value keyed
    exact congrArg (· ++ _) spellings
  | binding name value =>
    have keys := filter_keys_insert (dropped name List.mem_cons_self name rfl) value registry.bindings
    exact congrArg (_ ++ ·) keys
  | removal name =>
    have keys := filter_keys_erase (dropped name List.mem_cons_self name rfl) registry.bindings
    exact congrArg (_ ++ ·) keys
  | _ => rfl

variable {known : String → Prop}

/-- An entry under other names leaves a registry as it is on the names that are known. -/
theorem agreeOn_record (folded : ∀ first second, fold first = fold second → known first → known second)
    (keyed : registry.Keyed) (unknown : ∀ name ∈ event.names, ¬ known name) :
    AgreeOn known (registry.record event) registry := by
  have unnamed {name : String} (given : known name) : fold name ∉ event.names.map fold := by
    intro member
    obtain ⟨other, listed, same⟩ := List.mem_map.mp member
    exact unknown other listed (folded name other same.symm given)
  have dropped {keeps : String → Bool} (only : ∀ name, keeps name = true → known name) :
      ∀ name ∈ event.names, ∀ other, fold other = fold name → keeps other = false := by
    intro name member other same
    apply Bool.eq_false_iff.mpr
    intro kept
    exact unknown name member (folded other name same (only other kept))
  refine ⟨?_, ?_, ?_, ?_, ?_, ?_, ?_, ?_, ?_⟩
  · cases event <;> rfl
  · cases event <;> rfl
  · intro name given
    rw [getFunction?_record, Event.function?_eq_none (unnamed given), Option.none_or]
  · intro name given
    rw [getUnary?_record, Event.unary?_eq_none (unnamed given), Option.none_or]
  · intro name given
    rw [getBinary?_record, Event.binary?_eq_none (unnamed given), Option.none_or]
  · intro name given
    rw [getConstant?_record, Event.constant?_eq_none (unnamed given), Option.none_or]
  · intro name given
    refine Option.some.inj ?_
    rw [getVariable?_record, Event.binding?_eq_none (unnamed given), Option.none_or]
  · intro keeps only
    rw [functionNames, names_record]
    refine filter_values_remember ?_ _
    intro name member
    exact dropped only name (Event.mem_names_of_mem_callables member) name rfl
  · intro keeps only
    exact filter_valueNames_record keyed (dropped only)

/-- Calls that enter nothing under known names leave a registry as it is on these. -/
theorem agreeOn_perform (folded : ∀ first second, fold first = fold second → known first → known second)
    (keyed : registry.Keyed) {call : Call α}
    (unknown : ∀ event ∈ registry.events call, ∀ name ∈ event.names, ¬ known name) :
    AgreeOn known (registry.perform call) registry := by
  rw [perform_eq_record]
  refine (List.foldlRecOn (motive := fun next => Keyed next ∧ AgreeOn known next registry)
    (registry.events call) record ⟨keyed, .refl registry⟩ ?_).2
  rintro next ⟨keyed, agree⟩ event member
  exact ⟨keyed.record event, (agreeOn_record folded keyed (unknown event member)).trans agree⟩

end Reckoner.Registry

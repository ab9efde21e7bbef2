import Reckoner.NumberSystem.Choice
import Reckoner.Proofs.NumberSystem.IntegerUnbounded
import Reckoner.Proofs.Registry.History

/-! Whole numbers under new names. With every number system a whole number that is given a free name is stored,
or it is refused as out of range. Systems of whole numbers write the number before they look at its range, for
the report of an overflow that there need not be, so a number that is too long for a text is neither stored nor
refused there. -/

namespace Reckoner.Registry

open Reckoner.Decimal
open Reckoner.NumberSystem
open Reckoner.Numeral (digitLimit)
open Reckoner.Unicode

variable {α : Type}

/-! ### Free names -/

/-- Whether a name is well formed and nothing has its folding. -/
structure Free (registry : Registry α) (name : String) : Prop where
  wellFormed : Name.check name = .ok ()
  undefined : fold name ∉ registry.constants.keys
  unbound : ∀ other ∈ registry.bindings.keys, fold other ≠ fold name
  uncalled : fold name ∉ registry.names.keys

namespace Free

variable {registry : Registry α} {name : String} (free : registry.Free name)
include free

theorem checkValueName (role : ValueRole) : registry.checkValueName name role = .ok () := by
  apply checkValueName_eq_ok_iff.mpr
  exact ⟨free.wellFormed, fun _ => free.undefined, fun _ => free.unbound, free.uncalled⟩

theorem checkConstant (overwrite : Bool) : registry.checkConstant name overwrite = .ok () := by
  have absent : registry.constants.contains (fold name) = false := contains_eq_false_iff.mpr free.undefined
  simp [Registry.checkConstant, free.checkValueName, absent, bind, Except.bind, pure, Except.pure]

theorem setVariable_eq (value : Datum) :
    registry.setVariable name value = (registry.coerce name value).map fun number =>
      { registry with bindings := registry.bindings.insert name number } := by
  rw [setVariable, free.checkValueName]
  cases registry.coerce name value <;> rfl

theorem addConstant_eq (value : Datum) (overwrite : Bool) :
    registry.addConstant name value overwrite =
      (registry.coerce name value).map (registry.storeConstant name) := by
  rw [addConstant, free.checkConstant]
  cases registry.coerce name value <;> rfl

end Free

/-! ### Whole numbers as numbers of a system -/

/-- Whether a whole number is written for a message and is too long for that. -/
def Unwritten : Choice → Int → Prop
  | .integer _, n => 10 ^ digitLimit ≤ n.natAbs
  | _, _ => False

theorem finishFinite_fails (c : Decimal.Context) (negative : Bool) (coefficient : Nat) (exponent : Int) :
    Fails (fun signal => signal = .overflow ∨ signal = .subnormal)
      (c.finishFinite negative coefficient exponent) := by
  unfold Context.finishFinite
  refine .ite (.ok _) (.ite (.error (.inl rfl)) (.ite ?_ ?_))
  · exact .ite (.error (.inr rfl)) (.ite (.ok _) (.ok _))
  · exact .ite (.ok _) (.ite (.ok _) (.ite (.error (.inl rfl)) (.ok _)))

/-- A number system takes in a whole number that it can write, or reports an overflow. -/
theorem coerce_int_fails {choice : Choice} {n : Int} (written : ¬ Unwritten choice n) :
    Fails (fun fault => ∃ message, fault = .report .overflow message) (choice.system.coerce (.int n)) := by
  cases choice with
  | floating => exact .ok _
  | complex => exact .ok _
  | integer width =>
    change Fails _ (Integer.coerce width (.int n))
    rw [Integer.coerce_int_of_short width (Nat.lt_of_not_le written)]
    exact .ite (.ok n) (.error ⟨_, rfl⟩)
  | decimals c =>
    change Fails _ ((c.finishFinite (n < 0) n.natAbs 0).mapError Decimals.ofSignal)
    refine (finishFinite_fails c _ _ _).mapError ?_
    rintro signal (rfl | rfl)
    · exact ⟨_, rfl⟩
    · exact ⟨_, rfl⟩

theorem coerce_int_unwritten {choice : Choice} {n : Int} (unwritten : Unwritten choice n) :
    choice.system.coerce (.int n) = .error tooLong := by
  cases choice with
  | integer width => exact Integer.coerce_int_of_long width unwritten
  | floating => exact unwritten.elim
  | complex => exact unwritten.elim
  | decimals c => exact unwritten.elim

theorem coerce_unbounded {n : Int} (short : n.natAbs < 10 ^ digitLimit) :
    (Integer.system ⟨none⟩).coerce (.int n) = .ok n :=
  Integer.coerce_int_of_short ⟨none⟩ short

/-! ### Registration -/

/-- Whether a registration stores the number that a value is coerced to, so that it is read back, or refuses a value
that is no number of the system as out of range. -/
def Stores (coerced : Outcome α) (read : Registry α → Option α) (result : Except Refusal (Registry α)) : Prop :=
  (∃ number next, coerced = .ok number ∧ result = .ok next ∧ read next = some number) ∨
    ∃ fault message, coerced = .error fault ∧ result = .error (.refused ⟨.overflow, message⟩)

section
variable {registry : Registry α} {name : String} {value : Datum}

theorem coerce_of_ok {number : α} (coerced : registry.system.coerce value = .ok number) :
    registry.coerce name value = .ok number := by
  rw [Registry.coerce, coerced]

theorem coerce_of_report {kind : ErrorKind} {message : String}
    (coerced : registry.system.coerce value = .error (.report kind message)) :
    registry.coerce name value = .error (.refused ⟨kind, "Cannot store '" ++ name ++ "': " ++ message⟩) := by
  rw [Registry.coerce, coerced]
  rfl

theorem coerce_of_tooLong {n : Int} (long : 10 ^ digitLimit ≤ n.natAbs)
    (coerced : registry.system.coerce (.int n) = .error tooLong) :
    registry.coerce name (.int n) = .error (.failed tooLong) := by
  have undescribed : (Datum.int n).describe? = none := (Numeral.write?_eq_none_iff n).mpr long
  rw [Registry.coerce, coerced]
  simp only [tooLong, undescribed]

/-- What is made of a coerced number holds it, if it is made of a number at all. -/
theorem stores_map (fails : Fails (fun fault => ∃ message, fault = .report .overflow message)
      (registry.system.coerce value)) (store : α → Registry α) {read : Registry α → Option α}
    (reads : ∀ number, read (store number) = some number) :
    Stores (registry.system.coerce value) read ((registry.coerce name value).map store) := by
  cases coerced : registry.system.coerce value with
  | ok number =>
    left
    refine ⟨number, store number, rfl, ?_, reads number⟩
    rw [coerce_of_ok coerced]
    rfl
  | error fault =>
    right
    obtain ⟨message, rfl⟩ := fails fault coerced
    refine ⟨_, "Cannot store '" ++ name ++ "': " ++ message, rfl, ?_⟩
    rw [coerce_of_report coerced]
    rfl

end

theorem afterCalls_system (system : NumberSystem α) (settings : Settings) (calls : List (Call α)) :
    (afterCalls system settings calls).system = system := by
  rw [afterCalls, foldl_perform_eq_record, system_foldl_record]
  rfl

section
variable {registry : Registry α} {name : String} (free : registry.Free name)
include free

theorem setVariable_stores {value : Datum} (fails : Fails (fun fault => ∃ message, fault = .report .overflow message)
      (registry.system.coerce value)) :
    Stores (registry.system.coerce value) (·.getVariable? name) (registry.setVariable name value) := by
  rw [free.setVariable_eq]
  apply stores_map fails
  intro number
  exact Table.find?_insert_self name number registry.bindings

theorem addConstant_stores {value : Datum} (fails : Fails (fun fault => ∃ message, fault = .report .overflow message)
      (registry.system.coerce value)) (overwrite : Bool) :
    Stores (registry.system.coerce value) (·.getConstant? name) (registry.addConstant name value overwrite) := by
  rw [free.addConstant_eq]
  apply stores_map fails
  intro number
  simp [getConstant?, storeConstant, Table.find?_insert_self]

end

/-- Under a free name, whatever calls were made before, a variable or a constant holds a whole number as the system
has it, or the number is refused as out of range; but a system of whole numbers fails without a refusal for a number
that is too long to be written. Without bounds every other number is stored and read back as it is. -/
theorem whole_stored_or_refused (settings : Settings) (name : String) (n : Int) (overwrite : Bool) :
    (∀ (choice : Choice) (calls : List (Call choice.Value)),
      let registry := afterCalls choice.system settings calls
      registry.Free name →
        (¬ Unwritten choice n →
          Stores (choice.system.coerce (.int n)) (·.getVariable? name) (registry.setVariable name (.int n)) ∧
          Stores (choice.system.coerce (.int n)) (·.getConstant? name)
            (registry.addConstant name (.int n) overwrite)) ∧
        (Unwritten choice n →
          registry.setVariable name (.int n) = .error (.failed tooLong) ∧
          registry.addConstant name (.int n) overwrite = .error (.failed tooLong))) ∧
    ∀ calls : List (Call Int),
      let registry := afterCalls (Integer.system ⟨none⟩) settings calls
      registry.Free name → n.natAbs < 10 ^ digitLimit →
        (∃ next, registry.setVariable name (.int n) = .ok next ∧ next.getVariable? name = some n) ∧
        ∃ next, registry.addConstant name (.int n) overwrite = .ok next ∧ next.getConstant? name = some n := by
  constructor
  · intro choice calls registry free
    have same : registry.system = choice.system := afterCalls_system choice.system settings calls
    constructor
    · intro written
      have fails := coerce_int_fails written
      rw [← same] at fails ⊢
      exact ⟨setVariable_stores free fails, addConstant_stores free fails overwrite⟩
    · intro unwritten
      have coerced := coerce_int_unwritten unwritten
      rw [← same] at coerced
      have long : 10 ^ digitLimit ≤ n.natAbs := by
        cases choice with
        | integer width => exact unwritten
        | floating => exact unwritten.elim
        | complex => exact unwritten.elim
        | decimals c => exact unwritten.elim
      rw [free.setVariable_eq, free.addConstant_eq, coerce_of_tooLong long coerced]
      exact ⟨rfl, rfl⟩
  · intro calls registry free short
    have same : registry.system = Integer.system ⟨none⟩ := afterCalls_system _ settings calls
    have coerced : registry.coerce name (.int n) = .ok n := coerce_of_ok (by rw [same, coerce_unbounded short])
    rw [free.setVariable_eq, free.addConstant_eq, coerced]
    refine ⟨⟨_, rfl, Table.find?_insert_self name n registry.bindings⟩, _, rfl, ?_⟩
    simp [getConstant?, storeConstant, Table.find?_insert_self]

/-- The greatest number with a text, without bounds and behind a variable of another name. -/
theorem whole_stored_longest :
    let system := Integer.system ⟨none⟩
    let calls : List (Call Int) := [.value (.setVariable "y" (.int 5))]
    (afterCalls system Settings.standard calls).Free "x" ∧
      ((10 : Int) ^ digitLimit - 1).natAbs < 10 ^ digitLimit ∧
      ∃ next, (afterCalls system Settings.standard calls).setVariable "x" (.int (10 ^ digitLimit - 1)) = .ok next ∧
        next.getVariable? "x" = some (10 ^ digitLimit - 1) := by
  intro system calls
  have free : (afterCalls system Settings.standard calls).Free "x" :=
    ⟨rfl, by with_unfolding_all decide, by with_unfolding_all decide, by with_unfolding_all decide⟩
  have short : ((10 : Int) ^ digitLimit - 1).natAbs < 10 ^ digitLimit := by decide +kernel
  exact ⟨free, short, ((whole_stored_or_refused Settings.standard "x" _ false).2 calls free short).1⟩

/-- A number of 4301 digits has no variable and no constant, though there are no bounds and its name is free. -/
theorem long_whole_unstored :
    let registry := empty (Integer.system ⟨none⟩) Settings.standard
    registry.Free "x" ∧ registry.setVariable "x" (.int (10 ^ 4300)) = .error (.failed tooLong) ∧
      registry.addConstant "x" (.int (10 ^ 4300)) false = .error (.failed tooLong) := by
  intro registry
  have free : registry.Free "x" := ⟨rfl, nofun, nofun, nofun⟩
  have long : 10 ^ digitLimit ≤ (10 ^ 4300 : Int).natAbs := by decide +kernel
  have coerced : registry.coerce "x" (.int (10 ^ 4300)) = .error (.failed tooLong) :=
    coerce_of_tooLong long (Integer.coerce_int_of_long ⟨none⟩ long)
  rw [free.setVariable_eq, free.addConstant_eq, coerced]
  exact ⟨free, rfl, rfl⟩

end Reckoner.Registry

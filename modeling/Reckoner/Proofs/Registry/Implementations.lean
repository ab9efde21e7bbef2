import Reckoner.Proofs.Outcome
import Reckoner.Proofs.Registry.Calls

/-! Functions and operators of a registry. What holds of all of them holds of those that are looked up,
and what holds of all that the rows of the library make holds once the library is installed, whatever
is made of constants and variables then. -/

namespace Reckoner

variable {α : Type} {functions : NamedFunction α → Prop} {unary : UnaryOperator α → Prop}
  {binary : BinaryOperator α → Prop}

/-! ### Descriptors run what they are made with -/

namespace Descriptor.Draft

theorem unlessFlawed_eq_ok {β : Type} {flaws : List FieldFlaw} {record made : β}
    (checked : unlessFlawed flaws record = .ok made) : flaws = [] ∧ made = record := by
  unfold unlessFlawed at checked
  split at checked
  · rename_i none
    cases checked
    exact ⟨List.isEmpty_iff.mp none, rfl⟩
  · cases checked

theorem binary_eq_ok {draft : Draft} {run : α → α → Outcome α} {operator : BinaryOperator α}
    (made : draft.binary run = .ok operator) :
    draft.namingFlaws = [] ∧ operator.toNaming = draft.naming ∧ operator.run = run := by
  unfold Draft.binary at made
  split at made
  · obtain ⟨flawless, same⟩ := unlessFlawed_eq_ok made
    rw [same]
    exact ⟨flawless, rfl, rfl⟩
  · cases made

theorem precedence_of_binary {draft : Draft} {run : α → α → Outcome α} {operator : BinaryOperator α}
    (made : draft.binary run = .ok operator) :
    operator.precedence = draft.precedence.getD Precedence.low := by
  unfold Draft.binary at made
  split at made
  · rw [(unlessFlawed_eq_ok made).2]
  · cases made

theorem unary_eq_ok {draft : Draft} {run : α → Outcome α} {operator : UnaryOperator α}
    (made : draft.unary run = .ok operator) :
    draft.namingFlaws = [] ∧ operator.toNaming = draft.naming ∧ operator.run = run := by
  unfold Draft.unary at made
  split at made
  · obtain ⟨flawless, same⟩ := unlessFlawed_eq_ok made
    rw [same]
    exact ⟨flawless, rfl, rfl⟩
  · cases made

theorem function_eq_ok {draft : Draft} {run : Nat → List α → Outcome α} {function : NamedFunction α}
    (made : draft.function run = .ok function) :
    draft.namingFlaws = [] ∧
      function = ⟨draft.naming, draft.minArgs.toNat, draft.maxArgs.map Int.toNat, run⟩ := by
  obtain ⟨_, checked, made⟩ := bind_eq_ok.mp made
  have flawless := (List.append_eq_nil_iff.mp (unlessFlawed_eq_ok checked).1).1
  cases most : draft.maxArgs with
  | none =>
    rw [most] at made
    cases made
    exact ⟨flawless, rfl⟩
  | some most =>
    simp only [most] at made
    obtain ⟨_, made⟩ := guard_eq_ok_iff.mp made
    cases made
    exact ⟨flawless, rfl⟩

end Descriptor.Draft

namespace Library

theorem mem_madeDescriptors {base : Base α} {draws : Draws} {vocabulary : Vocabulary} {descriptor : Descriptor α}
    (member : .ok descriptor ∈ madeDescriptors base draws vocabulary) :
    (∃ row ∈ binaryRows base, ∃ operator, row.made vocabulary = .ok operator ∧ descriptor = .binary operator) ∨
      (∃ row ∈ unaryRows base, ∃ operator, row.made vocabulary = .ok operator ∧ descriptor = .unary operator) ∨
      ∃ row ∈ functionRows base draws, ∃ function, row.made vocabulary = .ok function ∧
        descriptor = .function function := by
  simp only [madeDescriptors, List.mem_append, List.mem_map, map_eq_ok_iff, or_assoc] at member
  rcases member with ⟨row, among, operator, made, rfl⟩ | ⟨row, among, operator, made, rfl⟩ |
    ⟨row, among, function, made, rfl⟩
  · exact .inl ⟨row, among, operator, made, rfl⟩
  · exact .inr (.inl ⟨row, among, operator, made, rfl⟩)
  · exact .inr (.inr ⟨row, among, function, made, rfl⟩)

theorem rows_short (base : Base α) (draws : Draws) :
    (∀ row ∈ binaryRows base, row.precedence.natAbs < 10) ∧
      ∀ row ∈ functionRows base draws, row.minArgs.toNat < 10 ∧ ∀ most ∈ row.maxArgs, most.toNat < 10 := by
  have binary : (binaryRows base).all (fun row => row.precedence.natAbs < 10) = true := rfl
  have functions : (functionRows base draws).all (fun row =>
      row.minArgs.toNat < 10 && row.maxArgs.all (·.toNat < 10)) = true := rfl
  constructor
  · intro row member
    exact of_decide_eq_true (List.all_eq_true.mp binary row member)
  · intro row member
    simpa [Option.all_eq_true] using List.all_eq_true.mp functions row member

theorem madeDescriptors_writable {base : Base α} {draws : Draws} {vocabulary : Vocabulary} {descriptor : Descriptor α}
    (member : .ok descriptor ∈ madeDescriptors base draws vocabulary) : descriptor.Writable := by
  have room : 10 ≤ 10 ^ Numeral.digitLimit := Nat.le_self_pow (by decide) 10
  obtain ⟨binary, functions⟩ := rows_short base draws
  rcases mem_madeDescriptors member with ⟨row, among, operator, made, rfl⟩ | ⟨row, among, operator, made, rfl⟩ |
    ⟨row, among, function, made, rfl⟩
  · have precedence : operator.precedence = row.precedence := Descriptor.Draft.precedence_of_binary made
    have short := binary row among
    rw [← precedence] at short
    exact Nat.lt_of_lt_of_le short room
  · trivial
  · obtain ⟨_, rfl⟩ := Descriptor.Draft.function_eq_ok made
    obtain ⟨least, most⟩ := functions row among
    refine ⟨Nat.lt_of_lt_of_le least room, ?_⟩
    intro count bounded
    obtain ⟨given, same, rfl⟩ := Option.map_eq_some_iff.mp bounded
    exact Nat.lt_of_lt_of_le (most given same) room

/-- Whether all that can be made of the rows of the library has a property. -/
structure Makes (base : Base α) (draws : Draws) (functions : NamedFunction α → Prop)
    (unary : UnaryOperator α → Prop) (binary : BinaryOperator α → Prop) : Prop where
  functions : ∀ row ∈ functionRows base draws, ∀ (draft : Descriptor.Draft) function,
    draft.minArgs = row.minArgs → draft.maxArgs = row.maxArgs →
    draft.function row.run = .ok function → functions function
  unary : ∀ row ∈ unaryRows base, ∀ (draft : Descriptor.Draft) operator,
    draft.unary row.run = .ok operator → unary operator
  binary : ∀ row ∈ binaryRows base, ∀ (draft : Descriptor.Draft) operator,
    draft.binary row.run = .ok operator → binary operator

end Library

namespace Registry

variable {registry next : Registry α}

/-- Whether all functions and operators of a registry have a property. -/
structure All (registry : Registry α) (functions : NamedFunction α → Prop)
    (unary : UnaryOperator α → Prop) (binary : BinaryOperator α → Prop) : Prop where
  functions : ∀ entry ∈ registry.functions, functions entry.2.entry
  unary : ∀ entry ∈ registry.unary, unary entry.2.entry
  binary : ∀ entry ∈ registry.binary, binary entry.2.entry

namespace All

theorem empty (system : NumberSystem α) (settings : Settings) :
    (Registry.empty system settings).All functions unary binary :=
  ⟨nofun, nofun, nofun⟩

/-! ### What is looked up -/

theorem function (all : registry.All functions unary binary) {name : String}
    {function : NamedFunction α} (found : registry.getFunction? name = some function) :
    functions function := by
  obtain ⟨entry, entered, rfl⟩ := Option.map_eq_some_iff.mp found
  exact all.functions _ (Table.mem_of_find? entered)

theorem unaryOperator (all : registry.All functions unary binary) {name : String}
    {operator : UnaryOperator α} (found : registry.getUnary? name = some operator) :
    unary operator := by
  obtain ⟨entry, entered, rfl⟩ := Option.map_eq_some_iff.mp found
  exact all.unary _ (Table.mem_of_find? entered)

theorem binaryOperator (all : registry.All functions unary binary) {name : String}
    {operator : BinaryOperator α} (found : registry.getBinary? name = some operator) :
    binary operator := by
  obtain ⟨entry, entered, rfl⟩ := Option.map_eq_some_iff.mp found
  exact all.binary _ (Table.mem_of_find? entered)

/-! ### Calls -/

theorem mem_enter {β : Type} {names : List String} {item : β} {table : Table β}
    {entry : String × β} (member : entry ∈ enter names item table) :
    entry.2 = item ∨ entry ∈ table := by
  induction names generalizing table with
  | nil => exact .inr member
  | cons name rest ih =>
    rcases ih member with same | inserted
    · exact .inl same
    · exact Table.mem_insert inserted

theorem enterFunction (all : registry.All functions unary binary) {function : NamedFunction α}
    (given : functions function) (entered : registry.enterFunction function = .ok next) :
    next.All functions unary binary := by
  obtain ⟨_, _, same⟩ := bind_eq_ok.mp entered
  cases same
  refine { all with functions := ?_ }
  intro entry member
  rcases mem_enter member with same | present
  · rw [same]
    exact given
  · exact all.functions entry present

theorem enterUnary (all : registry.All functions unary binary) {operator : UnaryOperator α}
    (given : unary operator) (entered : registry.enterUnary operator = .ok next) :
    next.All functions unary binary := by
  obtain ⟨_, _, same⟩ := bind_eq_ok.mp entered
  cases same
  refine { all with unary := ?_ }
  intro entry member
  rcases mem_enter member with same | present
  · rw [same]
    exact given
  · exact all.unary entry present

theorem enterBinary (all : registry.All functions unary binary) {operator : BinaryOperator α}
    (given : binary operator) (entered : registry.enterBinary operator = .ok next) :
    next.All functions unary binary := by
  obtain ⟨_, _, same⟩ := bind_eq_ok.mp entered
  cases same
  refine { all with binary := ?_ }
  intro entry member
  rcases mem_enter member with same | present
  · rw [same]
    exact given
  · exact all.binary entry present

/-- Calls on constants and variables touch neither functions nor operators. -/
theorem performValue (all : registry.All functions unary binary) (call : ValueCall) :
    (registry.performValue call).All functions unary binary := by
  cases call with
  | addConstant name value overwrite =>
    apply settle_keeps (motive := (Registry.All · functions unary binary)) all
    intro next added
    obtain ⟨_, _, added⟩ := bind_eq_ok.mp added
    obtain ⟨_, _, same⟩ := bind_eq_ok.mp added
    cases same
    exact { all with }
  | setVariable name value =>
    apply settle_keeps (motive := (Registry.All · functions unary binary)) all
    intro next added
    obtain ⟨_, _, added⟩ := bind_eq_ok.mp added
    obtain ⟨_, _, same⟩ := bind_eq_ok.mp added
    cases same
    exact { all with }
  | removeVariable name => exact { all with }

theorem withValues (all : registry.All functions unary binary) (calls : List ValueCall) :
    (registry.withValues calls).All functions unary binary := by
  apply List.foldlRecOn (motive := fun registry => Registry.All registry functions unary binary) calls
    Registry.performValue all
  intro _ all call _
  exact all.performValue call

/-! ### The library -/

theorem registration {base : Library.Base α} {draws : Library.Draws}
    (makes : Library.Makes base draws functions unary binary) {constants : List (String × α)}
    {vocabulary : Vocabulary} {register : Library.Registration α}
    (member : register ∈ Library.registrations base constants draws vocabulary)
    (all : registry.All functions unary binary) : (register registry).1.All functions unary binary := by
  refine Library.registration_keeps (motive := (Registry.All · functions unary binary)) member ?_ ?_ all
  · intro entry _ next added
    obtain ⟨_, _, added⟩ := bind_eq_ok.mp added
    obtain ⟨_, _, same⟩ := bind_eq_ok.mp added
    cases same
    exact { all with }
  · intro descriptor listed next entered
    rcases Library.mem_madeDescriptors listed with ⟨row, among, operator, made, rfl⟩ |
      ⟨row, among, operator, made, rfl⟩ | ⟨row, among, function, made, rfl⟩
    · exact all.enterBinary (makes.binary row among _ operator made) entered
    · exact all.enterUnary (makes.unary row among _ operator made) entered
    · exact all.enterFunction (makes.functions row among _ function rfl rfl made) entered

theorem install {draws : Library.Draws} (makes : ∀ base, Library.Base.of registry.system = .ok base →
      Library.Makes base draws functions unary binary)
    (all : registry.All functions unary binary) (vocabulary : Vocabulary) :
    (Library.install draws vocabulary registry).1.All functions unary binary := by
  refine Library.install_keeps (motive := (Registry.All · functions unary binary)) ?_ all
  intro base constants based _ register member before all
  exact all.registration (makes base based) member

theorem withLibrary {system : NumberSystem α} {draws : Library.Draws}
    (makes : ∀ base, Library.Base.of system = .ok base →
      Library.Makes base draws functions unary binary)
    {settings : Settings} (installed : Library.withLibrary draws system settings = .ok registry) :
    registry.All functions unary binary := by
  rw [← Library.install_of_withLibrary installed]
  exact (All.empty system settings).install makes Vocabulary.standard

end All

end Registry

end Reckoner

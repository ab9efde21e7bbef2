import Reckoner.Proofs.Evaluation.Failures
import Reckoner.Proofs.Registry.Entries
import Reckoner.Proofs.Scan.Coverage

/-! Names that the scan reads are found by the evaluation. The name of a function or an operator is listed,
so it is registered as what its lexeme says, under the folding of the characters that it is read from; and
the evaluation of its token fails for other reasons only. -/

namespace Reckoner

open Reckoner.Unicode

variable {α : Type}

namespace Registry

/-- Whether a lexeme that is the name of a function or an operator stands for what is registered under a
key as such. -/
def Finds (registry : Registry α) (key : String) : Lexeme α → Prop
  | .functionCall name => ∃ found, registry.functions.find? key = some found ∧
    registry.getFunction? name = some found.entry
  | .unaryOperator name => ∃ found, registry.unary.find? key = some found ∧
    registry.getUnary? name = some found.entry
  | .binaryOperator name => ∃ found, registry.binary.find? key = some found ∧
    registry.getBinary? name = some found.entry
  | _ => True

theorem found_of_isSome {β : Type} {stored : Option (Registered β)}
    (known : (stored.map Registered.entry).isSome = true) :
    ∃ found, stored = some found ∧ stored.map Registered.entry = some found.entry := by
  obtain ⟨entry, same⟩ := Option.isSome_iff_exists.mp known
  obtain ⟨found, stored, rfl⟩ := Option.map_eq_some_iff.mp same
  exact ⟨found, stored, same⟩

end Registry

namespace Scan

/-! ### Lexemes of names -/

variable {registry : Registry α} {reader : Reader α} {previous : Option (Lexeme α)} {lexeme : Lexeme α}

/-- What is neither a function nor a unary operator is taken for a binary one, which it is if it is
registered at all. -/
theorem classify_finds {name : String} (callable : registry.IsCallable name)
    (previous : Option (Lexeme α)) :
    registry.Finds (fold name) (classify registry previous name) := by
  unfold classify
  by_cases function : (registry.getFunction? name).isSome = true
  · rw [if_pos function]
    exact Registry.found_of_isSome function
  · rw [if_neg function]
    by_cases unary : (registry.getUnary? name).isSome = true
    · rw [if_pos unary]
      split
      · rename_i both
        exact Registry.found_of_isSome (Bool.and_eq_true_iff.mp both).1
      · exact Registry.found_of_isSome unary
    · rw [if_neg unary]
      apply Registry.found_of_isSome
      exact (callable.resolve_left function).resolve_left unary

/-- A lexeme that is read stands for what is registered under the folding of its characters. -/
theorem Reader.Reads.finds {settings : Settings} {source : String} (apart : registry.NamesApart)
    {characters behind : List Char} {count : Nat}
    (reads : (Reader.of registry settings source).Reads previous (characters ++ behind) lexeme count)
    (taken : (characters ++ behind).take count = characters) :
    registry.Finds (fold (String.ofList characters)) lexeme := by
  cases reads with
  | number => trivial
  | symbol _ _ found =>
    obtain ⟨text, rfl | rfl | rfl⟩ := symbolLexeme?_cases found
    · trivial
    · trivial
    · trivial
  | name _ found =>
    obtain ⟨listed, stands, _⟩ := findName?_eq_some found
    obtain ⟨name, member, rfl⟩ := List.mem_map.mp listed
    obtain ⟨spelled, _⟩ := startsAt_ofName_iff.mp stands
    rw [Candidate.ofName, String.length_toList] at taken
    rw [taken] at spelled
    have same : fold (String.ofList characters) = fold name := by
      rw [fold_eq_iff, String.toList_ofList]
      exact spelled
    rw [same]
    exact classify_finds (apart.isCallable_of_mem member) _
  | identifier => trivial
  | symbolic => trivial

end Scan

namespace Evaluation

/-! ### Faults of steps -/

variable {scope : Scope α}

/-- Whether an operator is registered. -/
def Scope.Knows (scope : Scope α) : Operator α → Prop :=
  Operator.All (fun operator => ∃ name, scope.registry.getUnary? name = some operator)
    (fun operator => ∃ name, scope.registry.getBinary? name = some operator)

/-- Whether a fault is what a registered operator fails with, reported at a place. -/
inductive Scope.Raises (scope : Scope α) : Fault → Prop where
  | unary {operator x position fault} (known : scope.Knows (.unary operator))
      (failed : scope.run position (operator.run x) = .error fault) : scope.Raises fault
  | binary {operator x y position fault} (known : scope.Knows (.binary operator))
      (failed : scope.run position (operator.run x y) = .error fault) : scope.Raises fault

/-- Whether a fault refuses the expression as malformed, or an operator fails with it. No name is unknown
then. -/
def Scope.Resolved (scope : Scope α) (fault : Fault) : Prop :=
  (∃ message position, fault = scope.invalid message position) ∨ scope.Raises fault

namespace Scope

theorem resolved_invalid (message : String) (position : Nat) :
    scope.Resolved (scope.invalid message position) := .inl ⟨message, position, rfl⟩

theorem explains_known : scope.Explains scope.Knows scope.Resolved where
  invalid := resolved_invalid
  unary _ known _ _ _ failed := .inr (.unary known failed)
  binary _ known _ _ _ _ failed := .inr (.binary known failed)

/-- Whether what waits is registered. -/
def KnowsAll (scope : Scope α) (pending : List (Pending α)) : Prop :=
  ∀ entry ∈ pending, entry.All scope.Knows fun _ => True

theorem supplies_known (token : Token α) : scope.Supplies scope.Knows (fun _ => True) token := by
  obtain ⟨lexeme, position⟩ := token
  cases lexeme with
  | functionCall name => exact fun _ _ => trivial
  | unaryOperator name => exact fun operator found => ⟨name, found⟩
  | binaryOperator name => exact fun operator found => ⟨name, found⟩
  | _ => trivial

/-- The name of a function or an operator that is found stands for something. -/
theorem named_of_finds {following : Option (Token α)} {lexeme : Lexeme α} {key : String}
    (finds : scope.registry.Finds key lexeme) (called : lexeme.called?.isSome = true) (kind : ErrorKind)
    (message : String) : ¬ scope.Unknown following lexeme kind message := by
  intro unknown
  cases unknown with
  | called => cases called
  | variable_ => cases called
  | function missing =>
    obtain ⟨_, _, found⟩ := finds
    cases missing.symm.trans found
  | unary missing =>
    obtain ⟨_, _, found⟩ := finds
    cases missing.symm.trans found
  | binary missing =>
    obtain ⟨_, _, found⟩ := finds
    cases missing.symm.trans found

/-- Where the name of a token is found, the token is not refused as unknown. -/
theorem step_resolved {token : Token α} {state : State α} {key : String}
    (finds : scope.registry.Finds key token.lexeme) (called : token.lexeme.called?.isSome = true)
    (known : scope.KnowsAll state.pending) (previous following : Option (Token α)) :
    Fails scope.Resolved (scope.step previous token following state) := by
  intro fault failed
  rcases explains_known.stops (supplies_known token) known (named_of_finds finds called)
    (step_eq_error failed) with resolved | ⟨value, number, _⟩ | ⟨_, _, _, _, calls, _⟩
  · exact resolved
  · rw [number] at called
    cases called
  · cases calls
    cases called

end Scope

theorem Reached.knowsAll {consumed : List (Token α)} {state : State α}
    (reached : Reached scope consumed state) : scope.KnowsAll state.pending :=
  reached.pending_all fun token _ => Scope.supplies_known token

end Evaluation

open Scan Evaluation

/-- After any calls with checked functions and operators, every name of a function or an operator in a
source stands for what is registered under the folding of the characters that it is read from, and where an
evaluation of the tokens comes to it, it fails with no unknown name. -/
theorem tokenize_resolves (system : NumberSystem α) (standard settings : Settings)
    {calls : List (Registry.Call α)} (checked : ∀ call ∈ calls, call.Checked) {source : String}
    {tokens : List (Token α)}
    (scanned : tokenize (Registry.afterCalls system standard calls) source settings = .ok tokens)
    (product : settings.implicitProduct = true →
      ((Registry.afterCalls system standard calls).getBinary? productSign).isSome = true) :
    let registry := Registry.afterCalls system standard calls
    (∃ slices tail, Slicing source.toList slices tail ∧
      tokens = tokensOf registry settings none 0 slices) ∧
    (∀ slices tail, Slicing source.toList slices tail →
      tokens = tokensOf registry settings none 0 slices →
      ∀ slice ∈ slices, registry.Finds (fold (String.ofList slice.characters)) slice.lexeme) ∧
    ∀ (used : Settings) (text : Option String) before token rest state,
      let scope : Scope α := ⟨registry, used, text⟩
      tokens = before ++ token :: rest → scope.steps none before initial = .ok state →
      token.lexeme.called?.isSome = true →
      Fails scope.Resolved (scope.step before.getLast? token rest.head? state) := by
  intro registry
  have named : registry.WellNamed := .afterCalls system standard checked
  have apart : registry.NamesApart := Registry.namesApart_afterCalls system standard calls
  obtain ⟨slices, tail, _, whole, behind, sliced, rfl⟩ := (tokenize_eq_ok_iff named).mp scanned
  have slicing : Slicing source.toList slices tail := whole ▸ slicing_of_sliced behind sliced
  have finds : ∀ slice ∈ slices,
      registry.Finds (fold (String.ofList slice.characters)) slice.lexeme := by
    intro slice member
    obtain ⟨before, after, rfl⟩ := List.append_of_mem member
    obtain ⟨_, cuts⟩ := sliced.cut
    obtain ⟨_, reads, taken⟩ := cuts.reads
    exact reads.finds apart taken
  refine ⟨⟨slices, tail, slicing, rfl⟩, ?_, ?_⟩
  · intro others _ other same
    obtain ⟨rfl, rfl⟩ := slicing.unique other same
    exact finds
  · intro used text before token rest state scope split read called
    have member : token ∈ tokensOf registry settings none 0 slices := by
      rw [split]
      exact List.mem_append_right before List.mem_cons_self
    have known : scope.KnowsAll state.pending := (Scope.reached_iff.mpr read).knowsAll
    rcases mem_tokensOf member with ⟨implicit, sign⟩ | ⟨slice, among, same⟩
    · have found : registry.Finds (fold productSign) token.lexeme := by
        rw [sign]
        exact Registry.found_of_isSome (product implicit)
      exact Scope.step_resolved found called known _ _
    · have found := finds slice among
      rw [same] at found
      exact Scope.step_resolved found called known _ _

/-- The product sign that is left out between a number and an identifier stands for the operator that the
written one is read as. -/
theorem tokenize_resolves_sample :
    let calls := operatorCalls ["*"]
    let registry := Registry.afterCalls (NumberSystem.Integer.system ⟨none⟩) Settings.standard calls
    let settings : Settings := { Settings.standard with implicitProduct := true }
    let scope : Scope Int := ⟨registry, settings, none⟩
    let times (position : Nat) : Token Int := ⟨.binaryOperator "*", position⟩
    let behind : List (Token Int) := [⟨.identifier "x", 1⟩, times 2, ⟨.number 3, 3⟩]
    let written : Slice Int := ⟨[], ['*'], .binaryOperator "*"⟩
    let slices : List (Slice Int) :=
      [⟨[], ['2'], .number 2⟩, ⟨[], ['x'], .identifier "x"⟩, written, ⟨[], ['3'], .number 3⟩]
    (∀ call ∈ calls, call.Checked) ∧
    tokenize registry "2x*3" settings = .ok (⟨.number 2, 0⟩ :: times 1 :: behind) ∧
    (registry.getBinary? productSign).isSome = true ∧ Slicing "2x*3".toList slices [] ∧
    registry.Finds (fold "*") written.lexeme ∧
    scope.steps none [⟨.number 2, 0⟩] initial = .ok ⟨[2], [], false, 0⟩ ∧
    Fails scope.Resolved
      (scope.step (some ⟨.number 2, 0⟩) (times 1) behind.head? ⟨[2], [], false, 0⟩) := by
  intro calls registry settings scope times behind written slices
  have checked : ∀ call ∈ calls, call.Checked :=
    checked_operatorCalls (List.forall_mem_singleton.mpr rfl)
  have scanned : tokenize registry "2x*3" settings = .ok (⟨.number 2, 0⟩ :: times 1 :: behind) := rfl
  have product : (registry.getBinary? productSign).isSome = true := rfl
  have slicing : Slicing "2x*3".toList slices [] := by
    have letters : [['2'], ['x'], ['*'], ['3']].all (fun characters =>
        !characters.isEmpty && characters.all (!isBlank ·)) = true := by decide
    refine ⟨rfl, by simp [slices, written], ?_, nofun⟩
    simpa [slices, written] using letters
  have first : scope.steps none [⟨.number 2, 0⟩] initial = .ok ⟨[2], [], false, 0⟩ := rfl
  obtain ⟨_, finds, resolved⟩ := tokenize_resolves (NumberSystem.Integer.system ⟨none⟩) Settings.standard
    settings checked scanned fun _ => product
  have found := finds slices [] slicing rfl written (by simp [slices])
  exact ⟨checked, scanned, product, slicing, found, first,
    resolved settings none [⟨.number 2, 0⟩] (times 1) behind _ rfl first rfl⟩

end Reckoner

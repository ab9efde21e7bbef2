import Reckoner.NumberSystem.Integer
import Reckoner.Proofs.Scan.Runs

/-! The scan of a source comes to an end, and its tokens cover the source: nothing but blanks stands
between the slices that they are read from, and where the name of a function or an operator is
read, no longer one stands. -/

namespace Reckoner

open Reckoner.Unicode

variable {α : Type}

/-- The name of a function or an operator that a lexeme is. -/
def Lexeme.called? : Lexeme α → Option String
  | functionCall name | unaryOperator name | binaryOperator name => some name
  | _ => none

namespace Scan

variable {reader : Reader α} {previous : Option (Lexeme α)} {text : List Char}

theorem classify_called? (registry : Registry α) (previous : Option (Lexeme α)) (name : String) :
    (classify registry previous name).called? = some name := by
  unfold classify
  split
  · rfl
  · split
    · split <;> rfl
    · rfl

theorem symbolLexeme?_called? {settings : Settings} {c : Char} {lexeme : Lexeme α}
    (found : symbolLexeme? settings c = some lexeme) : lexeme.called? = none := by
  obtain ⟨text, rfl | rfl | rfl⟩ := symbolLexeme?_cases found
  · rfl
  · rfl
  · rfl

theorem Reader.Reads.called? (solid : reader.Solid) {lexeme : Lexeme α} {count : Nat}
    (reads : reader.Reads previous text lexeme count) {name : String}
    (called : lexeme.called? = some name) :
    .ofName name ∈ reader.names ∧ count = name.length ∧ Stands name text ∧
      ∀ other, .ofName other ∈ reader.names → Stands other text → other.length ≤ name.length := by
  cases reads with
  | number => cases called
  | symbol absent first found => cases (symbolLexeme?_called? found).symm.trans called
  | name plain found =>
    obtain ⟨listed, stands, longest⟩ := findName?_eq_some found
    obtain ⟨known, rfl, _⟩ := solid.names _ listed
    rw [classify_called?] at called
    cases called
    refine ⟨listed, String.length_toList, startsAt_ofName_iff.mp stands, ?_⟩
    intro other among standing
    have bound := longest _ among (startsAt_ofName_iff.mpr standing)
    simpa only [Candidate.ofName, String.length_toList] using bound
  | identifier => cases called
  | symbolic => cases called

theorem Reader.mem_names_of {registry : Registry α} {settings : Settings} {source name : String} :
    .ofName name ∈ (Reader.of registry settings source).names ↔ name ∈ registry.functionNames := by
  constructor
  · intro member
    obtain ⟨other, listed, same⟩ := List.mem_map.mp member
    obtain rfl : other = name := congrArg Candidate.name same
    exact listed
  · exact List.mem_map_of_mem

theorem Reader.Sliced.cut {tail : List Char} {before after : List (Slice α)} {slice : Slice α}
    (sliced : reader.Sliced tail previous (before ++ slice :: after)) :
    ∃ last, reader.Cuts last slice (textOf after tail) := by
  induction before generalizing previous with
  | nil => exact ⟨previous, sliced.1⟩
  | cons first rest ih => exact ih sliced.2

theorem slicing_of_sliced {tail : List Char} (behind : ∀ c ∈ tail, isBlank c = true)
    {slices : List (Slice α)} (sliced : reader.Sliced tail previous slices) :
    Slicing (textOf slices tail) slices tail where
  whole := rfl
  blank slice member := (sliced.cuts slice member).1
  solid slice member := (sliced.cuts slice member).2
  tail := behind

end Scan

open Scan

variable {registry : Registry α} {settings : Settings} {source : String}

theorem ends_tokenize (named : registry.WellNamed)
    (some : source.toList.all isBlank = false) :
    Ends (Reader.of registry settings source) source.toList 0 []
      (tokenize registry source settings) := by
  unfold tokenize
  simp only [some, Bool.false_eq_true, if_false]
  exact ends_scanRest (Reader.solid_of named settings source) (Nat.le_refl _) 0 []

/-- A source whose tokens are found is one that is cut into their slices. -/
theorem tokenize_eq_ok_iff (named : registry.WellNamed) {tokens : List (Token α)} :
    tokenize registry source settings = .ok tokens ↔ ∃ slices tail, slices ≠ [] ∧
      source.toList = textOf slices tail ∧ (∀ c ∈ tail, isBlank c = true) ∧
      (Reader.of registry settings source).Sliced tail none slices ∧
      tokens = tokensOf registry settings none 0 slices := by
  constructor
  · intro scanned
    have some : source.toList.all isBlank = false := by
      apply Bool.eq_false_iff.mpr
      intro all
      simp [tokenize, all] at scanned
    have ends : Ends (Reader.of registry settings source) _ _ _ _ := ends_tokenize named some
    rw [scanned] at ends
    obtain ⟨slices, tail, whole, behind, sliced, same⟩ :=
      ends.sliced (Reader.solid_of named settings source)
    refine ⟨slices, tail, ?_, whole, behind, sliced, same⟩
    rintro rfl
    rw [whole] at some
    exact absurd (List.all_eq_true.mpr behind) (by simpa [textOf] using some)
  · rintro ⟨slices, tail, nonempty, whole, behind, sliced, rfl⟩
    have some : source.toList.all isBlank = false := by
      obtain ⟨slice, rest, rfl⟩ := List.exists_cons_of_ne_nil nonempty
      obtain ⟨c, others, same⟩ := List.exists_cons_of_ne_nil sliced.1.solid.1
      refine List.all_eq_false.mpr ⟨c, by simp [whole, textOf, same], ?_⟩
      simp [sliced.1.solid.2 c (by simp [same])]
    have ends : Ends (Reader.of registry settings source) _ _ _ _ := ends_tokenize named some
    rw [whole] at ends
    have sliced : (Reader.of registry settings source).Sliced tail
        (([] : List (Token α)).head?.map Token.lexeme) slices := sliced
    exact ends.unique (sliced.ends behind 0)

/-- Whether tokens cover a source: slices make it up that they are read from, the product signs apart
that are left out, and the name of a function or an operator is the longest one where it is read. -/
def Covers (registry : Registry α) (settings : Settings) (source : String) (tokens : List (Token α)) :
    Prop :=
  ∃ slices tail, Slicing source.toList slices tail ∧ tokens = tokensOf registry settings none 0 slices ∧
    ∀ before slice after, slices = before ++ slice :: after → ∀ name ∈ slice.lexeme.called?,
      name ∈ registry.functionNames ∧ Stands name (slice.characters ++ textOf after tail) ∧
      ∀ other ∈ registry.functionNames, Stands other (slice.characters ++ textOf after tail) →
        other.length ≤ name.length

/-- After any calls with checked functions and operators, the scan of a source comes to its end, and
the tokens that it finds cover the source. -/
theorem tokenize_covers (system : NumberSystem α) (standard settings : Settings)
    {calls : List (Registry.Call α)} (checked : ∀ call ∈ calls, call.Checked) (source : String) :
    let registry := Registry.afterCalls system standard calls
    (source.toList.all isBlank = true ∨
      Ends (Reader.of registry settings source) source.toList 0 []
        (tokenize registry source settings)) ∧
    ∀ tokens, tokenize registry source settings = .ok tokens →
      Covers registry settings source tokens := by
  intro registry
  have named : registry.WellNamed := .afterCalls system standard checked
  have solid := Reader.solid_of named settings source
  constructor
  · cases blank : source.toList.all isBlank with
    | true => exact .inl rfl
    | false => exact .inr (ends_tokenize named blank)
  · intro tokens scanned
    obtain ⟨slices, tail, _, whole, behind, sliced, same⟩ := (tokenize_eq_ok_iff named).mp scanned
    refine ⟨slices, tail, whole ▸ slicing_of_sliced behind sliced, same, ?_⟩
    rintro before slice after rfl name called
    obtain ⟨_, cuts⟩ := sliced.cut
    obtain ⟨count, reads, _⟩ := cuts.reads
    obtain ⟨listed, _, stands, longest⟩ := reads.called? solid called
    refine ⟨Reader.mem_names_of.mp listed, stands, ?_⟩
    intro other among
    exact longest other (Reader.mem_names_of.mpr among)

/-- Calls that register operators on whole numbers. -/
def operatorCalls (names : List String) : List (Registry.Call Int) :=
  names.map fun name => .addBinary ⟨⟨name, [], none⟩, Precedence.low, .left, fun x _ => .ok x⟩

theorem checked_operatorCalls {names : List String}
    (checked : ∀ name ∈ names, Name.check name = .ok ()) :
    ∀ call ∈ operatorCalls names, call.Checked := by
  intro call member
  obtain ⟨name, listed, rfl⟩ := List.mem_map.mp member
  refine ⟨{ name := some name }, fun x _ => .ok x, ?_⟩
  have flawless : Descriptor.Draft.namingFlaws { name := some name } = [] := by
    simp [Descriptor.Draft.namingFlaws, checked name listed, Checked.ruleOf, Checked.flawOf,
      Descriptor.Draft.checkNames]
  simp [Descriptor.Draft.binary, Descriptor.Draft.unlessFlawed, flawless, Descriptor.Draft.naming,
    show Associativity.ofText? "left" = some .left from rfl]

/-- The longer of two operators does not stand where more of a word follows. -/
theorem tokenize_covers_sample : (∀ call ∈ operatorCalls ["+", "+2"], call.Checked) ∧
    let registry := Registry.afterCalls (NumberSystem.Integer.system ⟨none⟩) Settings.standard
      (operatorCalls ["+", "+2"])
    let tokens := [⟨.binaryOperator "+", 1⟩, ⟨.number 2, 2⟩, ⟨.identifier "x", 3⟩]
    tokenize registry " +2x" Settings.standard = .ok tokens ∧
      Ends (Reader.of registry Settings.standard " +2x") " +2x".toList 0 [] (.ok tokens) ∧
      Covers registry Settings.standard " +2x" tokens := by
  have checked : ∀ call ∈ operatorCalls ["+", "+2"], call.Checked :=
    checked_operatorCalls (List.forall_mem_cons.mpr ⟨rfl, List.forall_mem_singleton.mpr rfl⟩)
  obtain ⟨ended, covers⟩ := tokenize_covers (NumberSystem.Integer.system ⟨none⟩)
    Settings.standard Settings.standard checked " +2x"
  exact ⟨checked, rfl, ended.resolve_left (by decide), covers _ rfl⟩

end Reckoner

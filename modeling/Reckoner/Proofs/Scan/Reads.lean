import Reckoner.Proofs.Outcome
import Reckoner.Scan

/-! What a step of the scan reads: a number, a symbol of the settings, the longest registered name, an
identifier or the name of a value, or it skips a blank. -/

namespace Reckoner.Scan

open Reckoner.Unicode

variable {α : Type}

/-! ### Names at the start of a text -/

/-- Whether a name stands at the start of a text: as many characters as it has fold as it does, and if
it ends like a word, no more of a word follows them. -/
def Stands (name : String) (text : List Char) : Prop :=
  foldChars (text.take name.length) = foldChars name.toList ∧
    ¬ ((∃ c ∈ name.toList.getLast?, isWord c = true) ∧
      ∃ c ∈ (text.drop name.length).head?, isWord c = true)

theorem startsAt_ofName_iff {name : String} {text : List Char} :
    (Candidate.ofName name).startsAt text = true ↔ Stands name text := by
  simp only [Candidate.startsAt, Candidate.ofName, Stands, String.length_toList, Bool.and_eq_true,
    beq_iff_eq, Bool.not_eq_true', Bool.and_eq_false_imp, Option.any_eq_true, Option.any_eq_false,
    Option.mem_def, not_and]
  grind

theorem longest?_eq_none_iff {candidates : List Candidate} :
    longest? candidates = none ↔ candidates = [] := by
  cases candidates with
  | nil => simp [longest?]
  | cons candidate rest =>
    unfold longest?
    split
    · split <;> simp
    · simp

theorem longest?_eq_some {candidates : List Candidate} {found : Candidate}
    (longest : longest? candidates = some found) :
    found ∈ candidates ∧
      ∀ other ∈ candidates, other.characters.length ≤ found.characters.length := by
  induction candidates generalizing found with
  | nil => cases longest
  | cons candidate rest ih =>
    unfold longest? at longest
    split at longest
    · rename_i best before
      obtain ⟨member, most⟩ := ih before
      split at longest
      · rename_i shorter
        cases longest
        refine ⟨List.mem_cons_of_mem _ member, List.forall_mem_cons.mpr ⟨by omega, most⟩⟩
      · rename_i longer
        cases longest
        refine ⟨List.mem_cons_self, List.forall_mem_cons.mpr ⟨Nat.le_refl _, ?_⟩⟩
        intro other among
        have := most other among
        omega
    · rename_i before
      cases longest
      obtain rfl := longest?_eq_none_iff.mp before
      exact ⟨List.mem_cons_self, by simp⟩

/-- The name that is found stands there, and none that stands there is longer. -/
theorem findName?_eq_some {candidates : List Candidate} {text : List Char} {found : Candidate}
    (longest : findName? candidates text = some found) :
    found ∈ candidates ∧ found.startsAt text = true ∧ ∀ other ∈ candidates,
      other.startsAt text = true → other.characters.length ≤ found.characters.length := by
  obtain ⟨member, most⟩ := longest?_eq_some longest
  obtain ⟨listed, stands⟩ := List.mem_filter.mp member
  exact ⟨listed, stands, fun other among standing => most other (List.mem_filter.mpr ⟨among, standing⟩)⟩

theorem findSymbol?_eq_some {candidates : List Candidate} {text : List Char} {found : Candidate}
    (longest : findSymbol? candidates text = some found) :
    found ∈ candidates ∧ found.characters <+: text ∧ ∀ other ∈ candidates,
      other.characters <+: text → other.characters.length ≤ found.characters.length := by
  obtain ⟨member, most⟩ := longest?_eq_some longest
  obtain ⟨listed, starts⟩ := List.mem_filter.mp member
  refine ⟨listed, List.isPrefixOf_iff_prefix.mp starts, ?_⟩
  intro other among standing
  exact most other (List.mem_filter.mpr ⟨among, List.isPrefixOf_iff_prefix.mpr standing⟩)

/-! ### Steps -/

variable {reader : Reader α} {previous : Option (Lexeme α)} {text : List Char}

/-- The literal at the start of a text. -/
def Reader.literal (reader : Reader α) (text : List Char) : List Char :=
  (reader.registry.system.literals.span text).1

theorem Reader.literal_starts (reader : Reader α) (text : List Char) : reader.literal text <+: text :=
  ⟨_, LiteralStyle.span_append _ text⟩

theorem identifier_starts (text : List Char) : identifier text <+: text := by
  unfold identifier
  split
  · split
    · exact (List.prefix_cons_inj _).mpr (List.takeWhile_prefix _)
    · exact List.nil_prefix
  · exact List.nil_prefix

theorem isWord_of_mem_identifier {c : Char} (member : c ∈ identifier text) : isWord c = true := by
  unfold identifier at member
  split at member
  · split at member
    · rename_i start
      rcases List.mem_cons.mp member with rfl | among
      · exact isWord_of_isWordStart start
      · exact List.all_eq_true.mp List.all_takeWhile c among
    · cases member
  · cases member

/-- Whether a text starts with neither a literal nor a symbol of the settings. -/
def Reader.Plain (reader : Reader α) (text : List Char) : Prop :=
  reader.literal text = [] ∧ ∀ c ∈ text.head?, symbolLexeme? (α := α) reader.settings c = none

/-- The lexeme that is read from so many characters at the start of a text. -/
inductive Reader.Reads (reader : Reader α) (previous : Option (Lexeme α)) (text : List Char) :
    Lexeme α → Nat → Prop where
  | number {value} (present : reader.literal text ≠ [])
      (parsed : reader.registry.system.parse (reader.literal text) = .ok value) :
    Reads reader previous text (.number value) (reader.literal text).length
  | symbol {c lexeme} (absent : reader.literal text = []) (first : text.head? = some c)
      (found : symbolLexeme? reader.settings c = some lexeme) :
    Reads reader previous text lexeme 1
  | name {candidate} (plain : reader.Plain text)
      (found : findName? reader.names text = some candidate) :
    Reads reader previous text (classify reader.registry previous candidate.name)
      candidate.characters.length
  | identifier (plain : reader.Plain text) (unnamed : findName? reader.names text = none)
      (word : identifier text ≠ []) :
    Reads reader previous text (.identifier (String.ofList (identifier text)))
      (identifier text).length
  | symbolic {candidate} (plain : reader.Plain text)
      (unnamed : findName? reader.names text = none) (noWord : identifier text = [])
      (found : findSymbol? reader.symbols text = some candidate) :
    Reads reader previous text (.identifier candidate.name) candidate.characters.length

/-- What is read from a text does not depend on the source that errors show. -/
theorem Reader.Reads.of_source {registry : Registry α} {settings : Settings} {source other : String}
    {lexeme : Lexeme α} {count : Nat}
    (reads : (Reader.of registry settings source).Reads previous text lexeme count) :
    (Reader.of registry settings other).Reads previous text lexeme count := by
  cases reads with
  | number present parsed => exact .number present parsed
  | symbol absent first found => exact .symbol absent first found
  | name plain found => exact .name plain found
  | identifier plain unnamed word => exact .identifier plain unnamed word
  | symbolic plain unnamed noWord found => exact .symbolic plain unnamed noWord found

theorem step_of_isBlank {c : Char} (blank : isBlank c = true) (following : List Char)
    (position : Nat) : step reader previous c following position = .ok ⟨none, 1⟩ := by
  simp [step, blank, pure, Except.pure]

theorem readLiteral_eq_ok_iff {literal : List Char} {position : Nat} {value : α} :
    readLiteral reader literal position = .ok value ↔
      reader.registry.system.parse literal = .ok value := by
  unfold readLiteral
  split
  · rename_i found parsed
    rw [parsed]
  · rename_i fault failed
    rw [failed]
    split
    · exact ⟨nofun, nofun⟩
    · exact ⟨nofun, nofun⟩
    · exact ⟨nofun, nofun⟩
    · exact ⟨nofun, nofun⟩
    · exact ⟨nofun, nofun⟩

theorem reads_of_stepName {c : Char} {following : List Char} {position : Nat} {next : Step α}
    (plain : reader.Plain (c :: following))
    (read : stepName reader previous (c :: following) c position = .ok next) :
    ∃ lexeme count, next = ⟨some lexeme, count⟩ ∧
      reader.Reads previous (c :: following) lexeme count := by
  unfold stepName at read
  split at read
  · rename_i candidate found
    cases read
    exact ⟨_, _, rfl, .name plain found⟩
  · rename_i unnamed
    split at read
    · rename_i noWord
      split at read
      · rename_i symbol found
        cases read
        exact ⟨_, _, rfl, .symbolic plain unnamed noWord found⟩
      · cases read
    · rename_i word
      cases read
      exact ⟨_, _, rfl, .identifier plain unnamed word⟩

theorem reads_of_step {c : Char} (solid : isBlank c = false) {following : List Char} {position : Nat}
    {next : Step α} (read : step reader previous c following position = .ok next) :
    ∃ lexeme count, next = ⟨some lexeme, count⟩ ∧
      reader.Reads previous (c :: following) lexeme count := by
  unfold step at read
  simp only [solid, Bool.false_eq_true, if_false] at read
  split at read
  · rename_i absent
    split at read
    · rename_i lexeme found
      cases read
      exact ⟨_, _, rfl, .symbol absent rfl found⟩
    · rename_i other
      refine reads_of_stepName ⟨absent, ?_⟩ read
      rintro _ ⟨⟩
      exact other
  · rename_i literal present
    obtain ⟨value, parsed, same⟩ := bind_eq_ok.mp read
    cases same
    exact ⟨_, _, rfl, .number present (readLiteral_eq_ok_iff.mp parsed)⟩

theorem step_of_reads {c : Char} (solid : isBlank c = false) {following : List Char}
    {lexeme : Lexeme α} {count : Nat} (reads : reader.Reads previous (c :: following) lexeme count)
    (position : Nat) :
    step reader previous c following position = .ok ⟨some lexeme, count⟩ := by
  unfold step
  simp only [solid, Bool.false_eq_true, if_false]
  cases reads with
  | number present parsed =>
    split
    · rename_i absent
      exact absurd absent present
    · exact bind_eq_ok.mpr ⟨_, readLiteral_eq_ok_iff.mpr parsed, rfl⟩
  | symbol absent first found =>
    cases first
    simp only [Reader.literal] at absent
    simp [absent, found, pure, Except.pure]
  | name plain found =>
    obtain ⟨absent, other⟩ := plain
    simp only [Reader.literal] at absent
    simp [absent, other c rfl, stepName, found]
  | identifier plain unnamed word =>
    obtain ⟨absent, other⟩ := plain
    simp only [Reader.literal] at absent
    simp only [absent, other c rfl, stepName, unnamed]
  | symbolic plain unnamed noWord found =>
    obtain ⟨absent, other⟩ := plain
    simp only [Reader.literal] at absent
    simp [absent, other c rfl, stepName, unnamed, noWord, found]

end Reckoner.Scan

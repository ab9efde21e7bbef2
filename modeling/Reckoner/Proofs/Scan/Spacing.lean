import Reckoner.Proofs.Registry.Names
import Reckoner.Proofs.Scan.Runs
import Reckoner.Proofs.Settings
import Mathlib.Data.List.Nodup

/-! What is read from the front of a text is read with a blank behind that front, too, unless a name was
held back there by the word that followed. -/

namespace Reckoner

open Reckoner.Unicode

variable {α : Type}

/-- Whether a lexeme is a name, be it of a value, a function or an operator. -/
def Lexeme.isName : Lexeme α → Bool
  | identifier _ | functionCall _ | unaryOperator _ | binaryOperator _ => true
  | _ => false

namespace Scan

/-! ### Names -/

/-- Whether a name is spelled by a front, but is not read because a word goes on behind it. -/
def HeldBack (name : String) (front after : List Char) : Prop :=
  foldChars front = foldChars name.toList ∧ front.length = name.length ∧
    (∃ c ∈ name.toList.getLast?, isWord c = true) ∧ ∃ c ∈ after.head?, isWord c = true

variable {name : String} {front after : List Char}

theorem Stands.length_le (unblank : ∀ c ∈ name.toList, isBlank c = false)
    (stands : Stands name (front ++ ' ' :: after)) : name.length ≤ front.length := by
  apply Nat.not_lt.mp
  intro longer
  have member : ' ' ∈ (front ++ ' ' :: after).take name.length := by
    obtain ⟨more, same⟩ := Nat.exists_eq_add_of_lt longer
    rw [same, List.take_append, Nat.add_assoc, Nat.add_sub_cancel_left, List.take_succ_cons]
    simp
  exact absurd (not_isBlank_of_foldChars stands.1 unblank ' ' member) (by decide)

/-- A name that fits into a front and is not held back stands there with a blank behind or without. -/
theorem stands_space_iff (fits : name.length ≤ front.length) (free : ¬ HeldBack name front after) :
    Stands name (front ++ ' ' :: after) ↔ Stands name (front ++ after) := by
  have blank : isWord ' ' = false := not_isWord_of_isBlank (by decide)
  unfold Stands
  rw [List.take_append_of_le_length fits, List.take_append_of_le_length fits,
    List.drop_append_of_le_length fits, List.drop_append_of_le_length fits]
  cases rest : front.drop name.length with
  | nil =>
    have whole : front.length = name.length := by
      have := List.drop_eq_nil_iff.mp rest
      omega
    rw [← whole, List.take_length]
    constructor
    · rintro ⟨spelled, _⟩
      exact ⟨spelled, fun ⟨last, next⟩ => free ⟨spelled, whole, last, next⟩⟩
    · rintro ⟨spelled, _⟩
      refine ⟨spelled, ?_⟩
      rintro ⟨_, c, first, word⟩
      cases first
      rw [blank] at word
      cases word
  | cons c others => rfl

/-- Candidates that stand in the same places are found in the same places. -/
theorem findName?_congr {candidates : List Candidate} {first second : List Char}
    (same : ∀ candidate ∈ candidates, candidate.startsAt first = candidate.startsAt second) :
    findName? candidates first = findName? candidates second := by
  unfold findName?
  rw [List.filter_congr same]

theorem findSymbol?_congr {candidates : List Candidate} {first second : List Char}
    (same : ∀ candidate ∈ candidates,
      candidate.characters.isPrefixOf first = candidate.characters.isPrefixOf second) :
    findSymbol? candidates first = findSymbol? candidates second := by
  unfold findSymbol?
  rw [List.filter_congr same]

theorem findName?_eq_none {candidates : List Candidate} {text : List Char}
    (none : findName? candidates text = none) :
    ∀ candidate ∈ candidates, candidate.startsAt text = false := by
  intro candidate member
  have found := List.filter_eq_nil_iff.mp (longest?_eq_none_iff.mp none) candidate member
  simpa using found

variable {reader : Reader α}

/-- If all names that stand at the start of a text fit into its front, and none is held back there, the
same name is found with a blank behind the front. -/
theorem findName?_space (solid : reader.Solid)
    (fits : ∀ candidate ∈ reader.names, candidate.startsAt (front ++ after) = true →
      candidate.characters.length ≤ front.length)
    (free : ∀ candidate ∈ reader.names, ¬ HeldBack candidate.name front after) :
    findName? reader.names (front ++ ' ' :: after) = findName? reader.names (front ++ after) := by
  refine findName?_congr fun candidate member => ?_
  obtain ⟨name, rfl, _, unblank⟩ := solid.names candidate member
  refine Bool.eq_iff_iff.mpr ?_
  rw [startsAt_ofName_iff, startsAt_ofName_iff]
  constructor
  · intro stands
    exact (stands_space_iff (stands.length_le unblank) (free _ member)).mp stands
  · intro stands
    have short := fits _ member (startsAt_ofName_iff.mpr stands)
    rw [Candidate.ofName, String.length_toList] at short
    exact (stands_space_iff short (free _ member)).mpr stands

theorem prefix_space_iff {characters : List Char} (unblank : ∀ c ∈ characters, isBlank c = false)
    (fits : characters <+: front ++ after → characters.length ≤ front.length) :
    characters <+: front ++ ' ' :: after ↔ characters <+: front ++ after := by
  have short {behind : List Char} (starts : characters <+: front ++ behind)
      (bound : characters.length ≤ front.length) : characters <+: front :=
    List.prefix_of_prefix_length_le starts (List.prefix_append front behind) bound
  constructor
  · intro starts
    refine (short starts ?_).trans (List.prefix_append _ _)
    apply Nat.not_lt.mp
    intro longer
    have blank : ' ' ∈ characters := by
      have whole : front ++ [' '] <+: characters :=
        List.prefix_of_prefix_length_le (by simp) starts (by rw [List.length_append]; exact longer)
      exact whole.mem (by simp)
    exact absurd (unblank ' ' blank) (by decide)
  · intro starts
    exact (short starts (fits starts)).trans (List.prefix_append _ _)

theorem findSymbol?_space (solid : reader.Solid)
    (fits : ∀ candidate ∈ reader.symbols, candidate.characters <+: front ++ after →
      candidate.characters.length ≤ front.length) :
    findSymbol? reader.symbols (front ++ ' ' :: after) = findSymbol? reader.symbols (front ++ after) := by
  refine findSymbol?_congr fun candidate member => ?_
  have short := fits candidate member
  obtain ⟨name, rfl, _, unblank⟩ := solid.symbols candidate member
  refine Bool.eq_iff_iff.mpr ?_
  rw [List.isPrefixOf_iff_prefix, List.isPrefixOf_iff_prefix]
  exact prefix_space_iff unblank short

/-! ### Identifiers -/

theorem takeWhile_space {text rest : List Char}
    (fits : ((text ++ rest).takeWhile isWord).length ≤ text.length) :
    (text ++ ' ' :: rest).takeWhile isWord = (text ++ rest).takeWhile isWord := by
  induction text with
  | nil =>
    have blank : isWord ' ' = false := not_isWord_of_isBlank (by decide)
    have none := List.eq_nil_of_length_eq_zero (Nat.le_zero.mp fits)
    rw [none, List.nil_append, List.takeWhile_cons, blank]
    rfl
  | cons c others ih =>
    rw [List.cons_append, List.cons_append, List.takeWhile_cons, List.takeWhile_cons]
    rw [List.cons_append, List.takeWhile_cons] at fits
    split
    · rename_i word
      rw [if_pos word] at fits
      rw [ih (Nat.le_of_succ_le_succ fits)]
    · rfl

theorem identifier_space (some : front ≠ [])
    (fits : (identifier (front ++ after)).length ≤ front.length) :
    identifier (front ++ ' ' :: after) = identifier (front ++ after) := by
  obtain ⟨c, rest, rfl⟩ := List.exists_cons_of_ne_nil some
  simp only [List.cons_append, identifier] at fits ⊢
  split
  · rename_i start
    rw [if_pos start] at fits
    rw [takeWhile_space (Nat.le_of_succ_le_succ fits)]
  · rfl

theorem not_isWord_of_identifier {text : List Char} (whole : identifier (text ++ after) = text)
    (some : text ≠ []) : ∀ c ∈ after.head?, isWord c = false := by
  intro c first
  obtain ⟨start, rest, rfl⟩ := List.exists_cons_of_ne_nil some
  obtain ⟨others, rfl⟩ : ∃ others, after = c :: others := by
    cases after with
    | nil => cases first
    | cons head others =>
      cases first
      exact ⟨others, rfl⟩
  simp only [List.cons_append, identifier] at whole
  split at whole
  · have taken := (List.cons.inj whole).2
    have words : ∀ d ∈ rest, isWord d = true := by
      intro d member
      rw [← taken] at member
      exact List.all_eq_true.mp List.all_takeWhile d member
    apply Bool.eq_false_iff.mpr
    intro word
    rw [List.takeWhile_append_of_pos words, List.takeWhile_cons, if_pos word] at taken
    simp at taken
  · cases whole

/-! ### Literals -/

/-- A literal in the front of a text is the same with a blank behind the front. -/
theorem literal_space (fits : (reader.literal (front ++ after)).length ≤ front.length)
    (apart : ∀ c, front = reader.literal (front ++ after) ++ [c] → c = 'i' ∨ c = 'j' →
      reader.literal (front ++ after) ≠ [] → after.head?.any isWord = false) :
    reader.literal (front ++ ' ' :: after) = reader.literal (front ++ after) := by
  unfold Reader.literal at *
  rw [LiteralStyle.span_space, LiteralStyle.span_front fits apart]

theorem plain_space (some : front ≠ []) (plain : reader.Plain (front ++ after)) :
    reader.Plain (front ++ ' ' :: after) := by
  obtain ⟨absent, other⟩ := plain
  refine ⟨?_, ?_⟩
  · rw [literal_space (by simp [absent]) (by simp [absent]), absent]
  · obtain ⟨c, rest, rfl⟩ := List.exists_cons_of_ne_nil some
    exact other

/-! ### Lexemes -/

/-- Whether no two names of functions and operators have one folding, nor one of them and a symbol. -/
structure Reader.Distinct (reader : Reader α) : Prop where
  names : ∀ first ∈ reader.names, ∀ second ∈ reader.names,
    foldChars first.characters = foldChars second.characters → first = second
  symbols : ∀ candidate ∈ reader.names, ∀ symbol ∈ reader.symbols,
    foldChars candidate.characters ≠ foldChars symbol.characters

variable {previous : Option (Lexeme α)} {lexeme : Lexeme α} {count : Nat}

theorem Reader.Reads.not_heldBack (solid : reader.Solid) (distinct : reader.Distinct)
    (plain : reader.Plain (front ++ after)) (some : front ≠ [])
    (reads : reader.Reads previous (front ++ after) lexeme count) (whole : count = front.length) :
    ∀ candidate ∈ reader.names, ¬ HeldBack candidate.name front after := by
  rintro candidate member ⟨spelled, length, last, c, next, word⟩
  obtain ⟨name, rfl, _⟩ := solid.names candidate member
  cases reads with
  | number present => exact present plain.1
  | symbol _ first found => cases (plain.2 _ first).symm.trans found
  | name _ found =>
    obtain ⟨listed, stands, _⟩ := findName?_eq_some found
    obtain ⟨other, rfl, _⟩ := solid.names _ listed
    rw [Candidate.ofName, String.length_toList] at whole
    obtain ⟨folded, bound⟩ := startsAt_ofName_iff.mp stands
    rw [whole, List.take_left] at folded
    rw [whole, List.drop_left] at bound
    have same := distinct.names _ member _ listed (spelled.symm.trans folded)
    cases congrArg Candidate.name same
    exact bound ⟨last, c, next, word⟩
  | identifier _ _ _ =>
    have all : Scan.identifier (front ++ after) = front := by
      rw [List.prefix_iff_eq_take.mp (identifier_starts _), whole, List.take_left]
    rw [not_isWord_of_identifier all some c next] at word
    cases word
  | symbolic _ _ _ found =>
    obtain ⟨listed, starts, _⟩ := findSymbol?_eq_some found
    have all := List.prefix_iff_eq_take.mp starts
    rw [whole, List.take_left] at all
    refine distinct.symbols _ member _ listed ?_
    rw [all]
    exact spelled.symm

theorem classify_isName (registry : Registry α) (previous : Option (Lexeme α)) (name : String) :
    (classify registry previous name).isName = true := by
  unfold classify
  split
  · rfl
  · split
    · split <;> rfl
    · rfl

/-- What is read from the front of a text is read with a blank behind the front, unless the front ends
with a unit that is read as part of a word, or with a name that is held back. -/
theorem Reader.Reads.space (solid : reader.Solid) (distinct : reader.Distinct) (some : front ≠ [])
    (reads : reader.Reads previous (front ++ after) lexeme count) (fits : count ≤ front.length)
    (apart : ∀ c, front = reader.literal (front ++ after) ++ [c] → c = 'i' ∨ c = 'j' →
      reader.literal (front ++ after) ≠ [] → after.head?.any isWord = false)
    (free : lexeme.isName = true → count < front.length →
      ∀ candidate ∈ reader.names, ¬ HeldBack candidate.name front after) :
    reader.Reads previous (front ++ ' ' :: after) lexeme count := by
  have unheld : reader.Plain (front ++ after) → lexeme.isName = true →
      ∀ candidate ∈ reader.names, ¬ HeldBack candidate.name front after := by
    intro plain isName
    rcases Nat.lt_or_eq_of_le fits with shorter | whole
    · exact free isName shorter
    · exact reads.not_heldBack solid distinct plain some whole
  cases reads with
  | number present parsed =>
    have same := literal_space fits apart
    rw [← same] at present parsed ⊢
    exact .number present parsed
  | symbol absent first found =>
    have none : reader.literal (front ++ ' ' :: after) = [] := by
      rw [literal_space (by simp [absent]) (by simp [absent]), absent]
    obtain ⟨c, rest, rfl⟩ := List.exists_cons_of_ne_nil some
    exact .symbol none first found
  | name plain found =>
    obtain ⟨_, _, longest⟩ := findName?_eq_some found
    refine .name (plain_space some plain) ?_
    rw [findName?_space solid (fun other among stands => Nat.le_trans (longest other among stands) fits)
      (unheld plain (classify_isName _ _ _)), found]
  | identifier plain unnamed word =>
    have same := identifier_space some fits
    rw [← same] at word ⊢
    refine .identifier (plain_space some plain) ?_ word
    rw [findName?_space solid ?_ (unheld plain rfl), unnamed]
    intro other among stands
    cases (findName?_eq_none unnamed other among).symm.trans stands
  | symbolic plain unnamed noWord found =>
    obtain ⟨_, _, longest⟩ := findSymbol?_eq_some found
    refine .symbolic (plain_space some plain) ?_ ?_ ?_
    · rw [findName?_space solid ?_ (unheld plain rfl), unnamed]
      intro other among stands
      cases (findName?_eq_none unnamed other among).symm.trans stands
    · rw [identifier_space some (by simp [noWord]), noWord]
    · rw [findSymbol?_space solid fun other among starts =>
        Nat.le_trans (longest other among starts) fits, found]

end Scan

end Reckoner

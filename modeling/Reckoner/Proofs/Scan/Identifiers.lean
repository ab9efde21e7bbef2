import Reckoner.Proofs.Scan.Gaps

/-! Identifiers and the names of functions and operators. An identifier is read where none of those names
stands, and a name stands wherever as many characters as it has fold as it does. So an identifier is
spelled like a function or an operator only with another number of characters. -/

namespace Reckoner

open Reckoner.Unicode

variable {α : Type}

namespace Scan

variable {reader : Reader α} {previous : Option (Lexeme α)} {source : List Char} {text : String}
  {count : Nat}

/-- An identifier is a word, or the name of a value, where the name of no function or operator stands. -/
theorem Reader.Reads.identifier_cases
    (reads : reader.Reads previous source (.identifier text) count) :
    reader.Plain source ∧ findName? reader.names source = none ∧
      ((Scan.identifier source ≠ [] ∧ text = String.ofList (Scan.identifier source) ∧
          count = (Scan.identifier source).length) ∨
        ∃ symbol, findSymbol? reader.symbols source = some symbol ∧ text = symbol.name ∧
          count = symbol.characters.length) := by
  generalize same : (Lexeme.identifier text : Lexeme α) = lexeme at reads
  cases reads with
  | number => cases same
  | symbol _ _ found =>
    obtain ⟨text, rfl | rfl | rfl⟩ := symbolLexeme?_cases found
    · cases same
    · cases same
    · cases same
  | name =>
    have called := congrArg Lexeme.called? same
    rw [classify_called?] at called
    cases called
  | identifier plain unnamed word =>
    cases same
    exact ⟨plain, unnamed, .inl ⟨word, rfl, rfl⟩⟩
  | symbolic plain unnamed _ found =>
    cases same
    exact ⟨plain, unnamed, .inr ⟨_, found, rfl, rfl⟩⟩

/-- A name that is spelled by as many characters as a word stands where the word is read. -/
theorem stands_of_identifier {name : String} (word : identifier source ≠ [])
    (spelled : foldChars name.toList = foldChars (identifier source))
    (length : name.length = (identifier source).length) : Stands name source := by
  have front : source.take name.length = identifier source := by
    rw [length]
    exact (List.prefix_iff_eq_take.mp (identifier_starts source)).symm
  constructor
  · rw [front, spelled]
  · rintro ⟨_, c, next, goes⟩
    have whole : identifier (identifier source ++ source.drop name.length) = identifier source := by
      rw [← front, List.take_append_drop, front]
    cases (not_isWord_of_identifier whole word c next).symm.trans goes

/-- No name of a function or an operator has the folding and the length of an identifier. -/
theorem Reader.Reads.length_ne (solid : reader.Solid) (distinct : reader.Distinct)
    (reads : reader.Reads previous source (.identifier text) count) {name : String}
    (member : .ofName name ∈ reader.names) (same : fold name = fold text) :
    name.length ≠ text.length := by
  intro length
  have spelled := fold_eq_iff.mp same
  obtain ⟨_, unnamed, ⟨word, rfl, _⟩ | ⟨symbol, found, rfl, _⟩⟩ := reads.identifier_cases
  · rw [String.toList_ofList] at spelled
    rw [String.length_ofList] at length
    have stands := startsAt_ofName_iff.mpr (stands_of_identifier word spelled length)
    cases (findName?_eq_none unnamed _ member).symm.trans stands
  · obtain ⟨listed, _⟩ := findSymbol?_eq_some found
    obtain ⟨value, rfl, _⟩ := solid.symbols _ listed
    exact distinct.symbols _ member _ listed spelled

end Scan

open Scan

/-- After any calls with checked functions and operators, an identifier of a source is the name of a
function or an operator exactly if one is listed that has its folding but not its length. -/
theorem identifier_isCallable_iff (system : NumberSystem α) (standard settings : Settings)
    {calls : List (Registry.Call α)} (checked : ∀ call ∈ calls, call.Checked) {source : String}
    {tokens : List (Token α)}
    (scanned : tokenize (Registry.afterCalls system standard calls) source settings = .ok tokens)
    {token : Token α} (member : token ∈ tokens) {text : String}
    (identifier : token.lexeme = .identifier text) :
    let registry := Registry.afterCalls system standard calls
    registry.IsCallable text ↔
      ∃ name ∈ registry.functionNames, fold name = fold text ∧ name.length ≠ text.length := by
  intro registry
  have named : registry.WellNamed := .afterCalls system standard checked
  have apart : registry.NamesApart := Registry.namesApart_afterCalls system standard calls
  have solid := Reader.solid_of named settings source
  have distinct := Reader.distinct_of apart named settings source
  obtain ⟨slices, tail, _, _, _, sliced, rfl⟩ := (tokenize_eq_ok_iff named).mp scanned
  have apartFrom : ∀ name ∈ registry.functionNames, fold name = fold text →
      name.length ≠ text.length := by
    intro name listed same
    rcases mem_tokensOf member with ⟨_, sign⟩ | ⟨slice, among, lexeme⟩
    · cases sign.symm.trans identifier
    · obtain ⟨before, after, rfl⟩ := List.append_of_mem among
      obtain ⟨_, cuts⟩ := sliced.cut
      obtain ⟨count, reads, _⟩ := cuts.reads
      rw [lexeme, identifier] at reads
      exact reads.length_ne solid distinct (Reader.mem_names_of.mpr listed) same
  constructor
  · intro callable
    obtain ⟨name, listed, same⟩ := apart.isCallable_iff.mp callable
    exact ⟨name, listed, same, apartFrom name listed same⟩
  · rintro ⟨name, listed, same, _⟩
    exact apart.isCallable_iff.mpr ⟨name, listed, same⟩

set_option maxRecDepth 4000 in
/-- A ligature folds to two letters, so the word that it starts is one character shorter than the name of
the operator whose folding it has. -/
theorem identifier_isCallable_sample :
    let calls := operatorCalls ["floor"]
    let registry := Registry.afterCalls (NumberSystem.Integer.system ⟨none⟩) Settings.standard calls
    let token : Token Int := ⟨.identifier "ﬂoor", 0⟩
    (∀ call ∈ calls, call.Checked) ∧
    tokenize registry "ﬂoor 2" Settings.standard = .ok [token, ⟨.number 2, 5⟩] ∧
    (registry.IsCallable "ﬂoor" ↔
      ∃ name ∈ registry.functionNames, fold name = fold "ﬂoor" ∧ name.length ≠ "ﬂoor".length) := by
  intro calls registry token
  have checked : ∀ call ∈ calls, call.Checked :=
    checked_operatorCalls (List.forall_mem_singleton.mpr rfl)
  have scanned : tokenize registry "ﬂoor 2" Settings.standard = .ok [token, ⟨.number 2, 5⟩] := rfl
  exact ⟨checked, scanned, identifier_isCallable_iff _ _ _ checked scanned List.mem_cons_self rfl⟩

set_option maxRecDepth 4000 in
/-- The registry finds an operator under the text of an identifier. -/
theorem identifier_of_operator :
    let registry := Registry.afterCalls (NumberSystem.Integer.system ⟨none⟩) Settings.standard
      (operatorCalls ["floor"])
    (∀ call ∈ operatorCalls ["floor"], call.Checked) ∧
    tokenize registry "ﬂoor 2" Settings.standard =
      .ok [⟨.identifier "ﬂoor", 0⟩, ⟨.number 2, 5⟩] ∧
    registry.IsCallable "ﬂoor" :=
  ⟨checked_operatorCalls (List.forall_mem_singleton.mpr rfl), rfl, .inr (.inr rfl)⟩

end Reckoner

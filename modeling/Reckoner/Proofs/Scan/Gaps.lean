import Reckoner.Proofs.Registry.Entries
import Reckoner.Proofs.Scan.Coverage
import Reckoner.Proofs.Scan.Spacing

/-! A space in a gap between tokens. It leaves the tokens what they are, unless a name of a function or an
operator was held back before it, or the last token is only a part of the name that it is. -/

namespace Reckoner

open Reckoner.Unicode

variable {α : Type}

/-! ### Names of a registry -/

namespace Registry

variable {registry : Registry α}

theorem NamesApart.fold_ne_of_value (apart : registry.NamesApart) (named : registry.WellNamed)
    {name value : String} (callable : name ∈ registry.functionNames)
    (known : value ∈ registry.valueNames) : fold name ≠ fold value := by
  intro same
  have key : fold value ∈ registry.names.keys := by
    rw [← same, ← apart.folded]
    exact List.mem_map_of_mem callable
  rcases List.mem_append.mp known with constant | bound
  · obtain ⟨pair, among, rfl⟩ := List.mem_map.mp constant
    obtain ⟨entry, present, rfl⟩ := List.mem_map.mp among
    refine apart.constant_function (fold entry.2.1) ?_ key
    rw [← (named.constants entry present).2]
    exact List.mem_map_of_mem present
  · exact apart.variable_function value bound key

end Registry

namespace Scan

variable {reader : Reader α} {previous : Option (Lexeme α)} {lexeme : Lexeme α} {count : Nat}
  {after tail : List Char}

theorem Reader.distinct_of {registry : Registry α} (apart : registry.NamesApart)
    (named : registry.WellNamed) (settings : Settings) (source : String) :
    (Reader.of registry settings source).Distinct where
  names first left second right same := by
    obtain ⟨name, listed, rfl⟩ := List.mem_map.mp left
    obtain ⟨other, among, rfl⟩ := List.mem_map.mp right
    rw [apart.eq_of_fold listed among (fold_eq_iff.mpr same)]
  symbols candidate left symbol right same := by
    obtain ⟨name, listed, rfl⟩ := List.mem_map.mp left
    obtain ⟨value, among, rfl⟩ := List.mem_map.mp right
    exact apart.fold_ne_of_value named listed (List.mem_filter.mp among).1 (fold_eq_iff.mpr same)

/-! ### Units that are part of a word -/

theorem isSymbol_of_symbolLexeme? {settings : Settings} (valid : settings.Valid) {c : Char}
    (found : symbolLexeme? settings c = some lexeme) : Settings.isSymbol c = true := by
  refine valid.isSymbol_of_reserves (Settings.reserves_iff.mpr ?_)
  unfold symbolLexeme? at found
  grind

theorem literal_eq_nil {c : Char} (digit : isDecimalDigit c = false) (point : c ≠ '.')
    (text : List Char) : reader.literal (c :: text) = [] :=
  LiteralStyle.span_eq_nil _ digit point text

theorem literal_of_unit {c : Char} (unit : c = 'i' ∨ c = 'j') (text : List Char) :
    reader.literal (c :: text) = [] := by
  rcases unit with rfl | rfl
  · exact literal_eq_nil (by decide) (by decide) text
  · exact literal_eq_nil (by decide) (by decide) text

theorem Reader.Reads.not_unit (solid : reader.Solid) (valid : reader.settings.Valid) {c : Char}
    (unit : c = 'i' ∨ c = 'j') (reads : reader.Reads previous (c :: after) lexeme count)
    (single : count = 1) : ∀ d ∈ after.head?, isWord d = false := by
  have letter : Settings.isSymbol c = false ∧ isWordStart c = true ∧ foldChar c = [c] := by
    rcases unit with rfl | rfl
    · decide
    · decide
  obtain ⟨noSymbol, start, kept⟩ := letter
  cases reads with
  | number present => exact absurd (literal_of_unit unit after) present
  | symbol absent first found =>
    cases first
    cases noSymbol.symm.trans (isSymbol_of_symbolLexeme? valid found)
  | name plain found =>
    obtain ⟨listed, stands, _⟩ := findName?_eq_some found
    obtain ⟨name, rfl, _⟩ := solid.names _ listed
    rw [Candidate.ofName, String.length_toList] at single
    obtain ⟨folded, bound⟩ := startsAt_ofName_iff.mp stands
    obtain ⟨other, same⟩ : ∃ other, name.toList = [other] :=
      List.length_eq_one_iff.mp (String.length_toList.trans single)
    rw [single, same] at folded bound
    have word : isWord other = true :=
      isWord_of_foldChar (by simpa [kept] using folded.symm) unit
    intro d first
    exact Bool.eq_false_iff.mpr fun more => bound ⟨⟨other, rfl, word⟩, d, first, more⟩
  | identifier plain unnamed word =>
    have some : [c] ≠ [] := List.cons_ne_nil c []
    refine not_isWord_of_identifier ?_ some
    have whole := List.prefix_iff_eq_take.mp (identifier_starts (c :: after))
    rw [single] at whole
    exact whole
  | symbolic plain unnamed noWord found =>
    rw [Scan.identifier, if_pos start] at noWord
    cases noWord

/-! ### Slices with a space in a gap -/

/-- Only the name of a function or an operator is read beyond the end of the text. -/
theorem Reader.Reads.length_le {text : List Char}
    (reads : reader.Reads previous text lexeme count) (other : lexeme.called? = none) :
    count ≤ text.length := by
  cases reads with
  | number => exact (reader.literal_starts text).length_le
  | symbol _ first =>
    apply List.length_pos_iff.mpr
    rintro rfl
    cases first
  | name => cases (classify_called? _ _ _).symm.trans other
  | identifier => exact (identifier_starts text).length_le
  | symbolic _ _ _ found => exact (findSymbol?_eq_some found).2.1.length_le

/-- A slice is read from its characters, unless it is the name of a function or an operator at the end of
the text and a part of it is missing. -/
theorem Reader.Cuts.full {slice : Slice α} {behind : List Char} (solid : reader.Solid)
    (cuts : reader.Cuts previous slice behind)
    (full : behind = [] → ∀ name ∈ slice.lexeme.called?, slice.characters.length = name.length) :
    reader.Reads previous (slice.characters ++ behind) slice.lexeme slice.characters.length := by
  obtain ⟨count, reads, taken⟩ := cuts.reads
  have whole : count = slice.characters.length := by
    by_cases more : behind = []
    · subst more
      cases called : slice.lexeme.called? with
      | some name =>
        obtain ⟨_, length, _⟩ := reads.called? solid called
        rw [length, full rfl name called]
      | none =>
        have most := reads.length_le called
        have lengths := congrArg List.length taken
        rw [List.length_take] at lengths
        rw [List.append_nil] at most lengths
        omega
    · exact (length_of_take taken more).symm
  rw [← whole]
  exact reads

theorem Reader.Cuts.front {slice : Slice α} {behind front : List Char}
    (cuts : reader.Cuts previous slice behind)
    (whole : slice.blanks ++ (slice.characters ++ behind) = front ++ after)
    (blank : ∀ c ∈ front, isBlank c = true) :
    ∃ back, slice.blanks = front ++ back ∧ after = back ++ (slice.characters ++ behind) := by
  rcases List.append_eq_append_iff.mp whole with ⟨more, same, rest⟩ | ⟨back, same, rest⟩
  · obtain ⟨c, others, first⟩ := List.exists_cons_of_ne_nil cuts.solid.1
    cases more with
    | nil => exact ⟨[], by simpa using same.symm, rest.symm⟩
    | cons d more =>
      rw [first, List.cons_append, List.cons_append] at rest
      obtain ⟨rfl, _⟩ := List.cons.inj rest
      have unblank := cuts.solid.2 c (by simp [first])
      rw [blank c (by simp [same])] at unblank
      cases unblank
  · exact ⟨back, same, rest⟩

/-- A space before the next slice, or behind the last one, is one more blank. -/
theorem Reader.Sliced.space_nil {slices : List (Slice α)} {front : List Char}
    (sliced : reader.Sliced tail previous slices) (behind : ∀ c ∈ tail, isBlank c = true)
    (whole : textOf slices tail = front ++ after) (blank : ∀ c ∈ front, isBlank c = true) :
    ∃ spaced rest, textOf spaced rest = front ++ ' ' :: after ∧ (∀ c ∈ rest, isBlank c = true) ∧
      reader.Sliced rest previous spaced ∧
      spaced.map Slice.lexeme = slices.map Slice.lexeme := by
  have space : isBlank ' ' = true := by decide
  cases slices with
  | nil =>
    have parted : ∀ c ∈ front ++ after, isBlank c = true := whole ▸ behind
    obtain ⟨_, later⟩ := List.forall_mem_append.mp parted
    exact ⟨[], front ++ ' ' :: after, rfl,
      List.forall_mem_append.mpr ⟨blank, List.forall_mem_cons.mpr ⟨space, later⟩⟩, trivial, rfl⟩
  | cons slice rest =>
    obtain ⟨cuts, others⟩ := sliced
    obtain ⟨back, same, rfl⟩ := cuts.front whole blank
    have blanks := cuts.blank
    rw [same] at blanks
    obtain ⟨_, later⟩ := List.forall_mem_append.mp blanks
    refine ⟨⟨front ++ ' ' :: back, slice.characters, slice.lexeme⟩ :: rest, tail, ?_, behind,
      ⟨⟨?_, cuts.solid, cuts.reads⟩, others⟩, rfl⟩
    · simp [textOf]
    · exact List.forall_mem_append.mpr ⟨blank, List.forall_mem_cons.mpr ⟨space, later⟩⟩

/-- Whether no name is held back before a gap: none is spelled by two or more lexemes that end there,
the first of them a name. -/
def Unheld (names : List String) (left : List (Slice α)) (front after : List Char) : Prop :=
  ∀ before slice rest, left = before ++ slice :: rest → rest ≠ [] → slice.lexeme.isName = true →
    ∀ name ∈ names, ¬ HeldBack name (slice.characters ++ textOf rest front) after

/-- Whether the name of a function or an operator before the end of a text is all there. -/
def Whole (left : List (Slice α)) (front after : List Char) : Prop :=
  front = [] → after = [] → ∀ slice ∈ left.getLast?, ∀ name ∈ slice.lexeme.called?,
    slice.characters.length = name.length

theorem Unheld.of_cons {names : List String} {slice : Slice α} {left : List (Slice α)}
    {front : List Char} (unheld : Unheld names (slice :: left) front after) :
    Unheld names left front after := by
  rintro before first rest rfl
  exact unheld (slice :: before) first rest rfl

theorem Whole.of_cons {slice : Slice α} {left : List (Slice α)} {front : List Char}
    (whole : Whole (slice :: left) front after) : Whole left front after := by
  intro noFront noAfter last member
  refine whole noFront noAfter last ?_
  cases left with
  | nil => cases member
  | cons next rest => exact member

theorem Reader.Reads.length_eq_of_literal {text : List Char}
    (reads : reader.Reads previous text lexeme count) (present : reader.literal text ≠ []) :
    count = (reader.literal text).length := by
  cases reads with
  | number => rfl
  | symbol absent => exact absurd absent present
  | name plain => exact absurd plain.1 present
  | identifier plain => exact absurd plain.1 present
  | symbolic plain => exact absurd plain.1 present

theorem Reader.Sliced.not_unit (solid : reader.Solid) (valid : reader.settings.Valid)
    {left right : List (Slice α)} {front : List Char}
    (sliced : reader.Sliced tail previous (left ++ right)) (gap : textOf right tail = front ++ after)
    (blank : ∀ c ∈ front, isBlank c = true) {c : Char} (unit : c = 'i' ∨ c = 'j')
    (single : textOf left front = [c]) : ∀ d ∈ after.head?, isWord d = false := by
  cases left with
  | nil =>
    obtain rfl : front = [c] := single
    have unblank : isBlank c = false := by
      rcases unit with rfl | rfl
      · decide
      · decide
    cases unblank.symm.trans (blank c List.mem_cons_self)
  | cons next rest =>
    obtain ⟨cuts, _⟩ := sliced
    have some := cuts.solid.1
    have lengths := congrArg List.length single
    simp only [textOf, List.length_append, List.length_singleton] at lengths
    have positive := List.length_pos_iff.mpr some
    have noBlanks : next.blanks = [] := List.length_eq_zero_iff.mp (by omega)
    have nothing : textOf rest front = [] := List.length_eq_zero_iff.mp (by omega)
    rw [textOf, noBlanks, nothing, List.append_nil, List.nil_append] at single
    have text : textOf (rest ++ right) tail = after := by
      rw [textOf_append, gap, textOf_tail, nothing, List.nil_append]
    have cuts : reader.Cuts previous next after := text ▸ cuts
    obtain ⟨count, reads, taken⟩ := cuts.reads
    rw [single] at reads taken
    intro d first
    have more : after ≠ [] := by
      rintro rfl
      cases first
    exact reads.not_unit solid valid unit (length_of_take taken more).symm d first

theorem Reader.Sliced.eq_nil {left right : List (Slice α)} {front : List Char}
    (sliced : reader.Sliced tail previous (left ++ right)) (nothing : textOf left front = []) :
    left = [] ∧ front = [] := by
  cases left with
  | nil => exact ⟨rfl, nothing⟩
  | cons slice rest =>
    have some := sliced.1.solid.1
    simp [textOf, some] at nothing

/-- No name is spelled by a lexeme that is one and what there is between it and a gap. -/
theorem Unheld.not_heldBack {names : List String} {slice : Slice α} {left : List (Slice α)}
    {front : List Char} (unheld : Unheld names (slice :: left) front after)
    (blank : ∀ c ∈ front, isBlank c = true) (isName : slice.lexeme.isName = true)
    (more : textOf left front ≠ []) {name : String} (member : name ∈ names)
    (unblank : ∀ c ∈ name.toList, isBlank c = false) :
    ¬ HeldBack name (slice.characters ++ textOf left front) after := by
  cases left with
  | nil =>
    obtain ⟨c, others, rfl⟩ := List.exists_cons_of_ne_nil more
    rintro ⟨spelled, _⟩
    have unblanked := not_isBlank_of_foldChars spelled unblank c (by simp [textOf])
    rw [blank c List.mem_cons_self] at unblanked
    cases unblanked
  | cons next rest => exact unheld [] slice (next :: rest) rfl (List.cons_ne_nil next rest) isName _ member

/-- Slices with a gap between two of them are slices with one more blank there. The induction is on those
before the gap: each is read as before, with the space further behind it. -/
theorem Reader.Sliced.space (solid : reader.Solid) (distinct : reader.Distinct)
    (valid : reader.settings.Valid) {left right : List (Slice α)} {front : List Char}
    (sliced : reader.Sliced tail previous (left ++ right)) (behind : ∀ c ∈ tail, isBlank c = true)
    (gap : textOf right tail = front ++ after) (blank : ∀ c ∈ front, isBlank c = true)
    (unheld : Unheld (reader.names.map Candidate.name) left front after)
    (whole : Whole left front after) :
    ∃ spaced rest, textOf spaced rest = textOf left (front ++ ' ' :: after) ∧
      (∀ c ∈ rest, isBlank c = true) ∧ reader.Sliced rest previous spaced ∧
      spaced.map Slice.lexeme = (left ++ right).map Slice.lexeme := by
  induction left generalizing previous with
  | nil => exact sliced.space_nil behind gap blank
  | cons slice left ih =>
    obtain ⟨cuts, others⟩ := sliced
    obtain ⟨spaced, rest, text, later, separate, lexemes⟩ := ih others unheld.of_cons whole.of_cons
    have joined : textOf (left ++ right) tail = textOf left front ++ after := by
      rw [textOf_append, gap, textOf_tail]
    have cuts : reader.Cuts previous slice (textOf left front ++ after) := joined ▸ cuts
    have complete : textOf left front ++ after = [] → ∀ name ∈ slice.lexeme.called?,
        slice.characters.length = name.length := by
      intro nothing
      obtain ⟨empty, noAfter⟩ := List.append_eq_nil_iff.mp nothing
      obtain ⟨rfl, noFront⟩ := others.eq_nil empty
      exact whole noFront noAfter slice rfl
    have reads := cuts.full solid complete
    rw [← List.append_assoc] at reads
    have apart : ∀ c, slice.characters ++ textOf left front =
        reader.literal (slice.characters ++ textOf left front ++ after) ++ [c] → c = 'i' ∨ c = 'j' →
        reader.literal (slice.characters ++ textOf left front ++ after) ≠ [] →
        after.head?.any isWord = false := by
      intro c spelled unit present
      obtain ⟨_, single⟩ := List.append_inj spelled (reads.length_eq_of_literal present)
      rw [Option.any_eq_false_iff_get]
      exact fun more => others.not_unit solid valid gap blank unit single _ (Option.get_mem more)
    have free : slice.lexeme.isName = true →
        slice.characters.length < (slice.characters ++ textOf left front).length →
        ∀ candidate ∈ reader.names,
          ¬ HeldBack candidate.name (slice.characters ++ textOf left front) after := by
      intro isName shorter candidate member
      obtain ⟨name, rfl, _, unblank⟩ := solid.names candidate member
      have more : textOf left front ≠ [] := by
        rintro nothing
        simp [nothing] at shorter
      exact unheld.not_heldBack blank isName more (List.mem_map_of_mem member) unblank
    have kept := reads.space solid distinct (by simp [cuts.solid.1]) (by simp) apart free
    refine ⟨slice :: spaced, rest, ?_, later,
      ⟨⟨cuts.blank, cuts.solid, slice.characters.length, ?_, List.take_left⟩, separate⟩, ?_⟩
    · rw [textOf, text, textOf]
    · rw [text, textOf_tail, ← List.append_assoc]
      exact kept
    · rw [List.map_cons, lexemes]
      rfl

end Scan

open Scan

/-- After any calls with checked functions and operators, a space before, between or behind the tokens of
a source leaves their lexemes what they are, unless a name is held back before it or the name at the end
of the source is cut short there. -/
theorem tokenize_spaced (system : NumberSystem α) (standard settings : Settings)
    (valid : settings.Valid) {calls : List (Registry.Call α)} (checked : ∀ call ∈ calls, call.Checked)
    {source : String} {tokens : List (Token α)}
    (scanned : tokenize (Registry.afterCalls system standard calls) source settings = .ok tokens) :
    let registry := Registry.afterCalls system standard calls
    (∃ slices tail, Slicing source.toList slices tail ∧
      tokens = tokensOf registry settings none 0 slices) ∧
    ∀ slices tail, Slicing source.toList slices tail →
      tokens = tokensOf registry settings none 0 slices →
      ∀ left right front after, slices = left ++ right →
        source.toList = textOf left front ++ after → (∀ c ∈ front, isBlank c = true) →
        Unheld registry.functionNames left front after → Whole left front after →
        ∃ spaced, tokenize registry (String.ofList (textOf left front ++ ' ' :: after)) settings =
            .ok spaced ∧
          spaced.map Token.lexeme = tokens.map Token.lexeme := by
  intro registry
  have named : registry.WellNamed := .afterCalls system standard checked
  have apart : registry.NamesApart := Registry.namesApart_afterCalls system standard calls
  obtain ⟨slices, tail, nonempty, text, behind, sliced, rfl⟩ := (tokenize_eq_ok_iff named).mp scanned
  have slicing : Slicing source.toList slices tail := text ▸ slicing_of_sliced behind sliced
  refine ⟨⟨slices, tail, slicing, rfl⟩, ?_⟩
  intro others _ other same left right front after split place blank unheld whole
  obtain ⟨rfl, rfl⟩ := slicing.unique other same
  subst split
  have gap : textOf right tail = front ++ after := by
    refine textOf_injective left ?_
    rw [← textOf_append, ← text, place, textOf_tail]
  have names : (Reader.of registry settings source).names.map Candidate.name = registry.functionNames := by
    simp [Reader.of, Candidate.ofName, Function.comp_def]
  obtain ⟨spaced, rest, joined, later, separate, lexemes⟩ := sliced.space (Reader.solid_of named _ _)
    (Reader.distinct_of apart named _ _) valid behind gap blank (names ▸ unheld) whole
  refine ⟨tokensOf registry settings none 0 spaced, (tokenize_eq_ok_iff named).mpr
    ⟨spaced, rest, ?_, ?_, later, separate.of_source, rfl⟩, map_lexeme_tokensOf _ _ lexemes none 0 0⟩
  · rintro rfl
    exact nonempty (List.map_eq_nil_iff.mp lexemes.symm)
  · rw [String.toList_ofList, joined, ← textOf_tail]

/-- The sign of an operator may be set apart from a number that another operator continues with. -/
theorem tokenize_spaced_sample :
    let calls := operatorCalls ["+", "+2"]
    let registry := Registry.afterCalls (NumberSystem.Integer.system ⟨none⟩) Settings.standard calls
    let sign : Slice Int := ⟨[], ['+'], .binaryOperator "+"⟩
    let behind : List (Slice Int) := [⟨[], ['2'], .number 2⟩, ⟨[], ['x'], .identifier "x"⟩]
    let tokens := tokensOf registry Settings.standard none 0 (sign :: behind)
    Settings.standard.Valid ∧ (∀ call ∈ calls, call.Checked) ∧
    tokenize registry "+2x" Settings.standard = .ok tokens ∧
    Slicing "+2x".toList (sign :: behind) [] ∧
    Unheld registry.functionNames [sign] [] ['2', 'x'] ∧ Whole [sign] [] ['2', 'x'] ∧
    ∃ spaced, tokenize registry "+ 2x" Settings.standard = .ok spaced ∧
      spaced.map Token.lexeme = tokens.map Token.lexeme := by
  have valid : Settings.standard.Valid := ⟨{}, rfl⟩
  have checked : ∀ call ∈ operatorCalls ["+", "+2"], call.Checked :=
    checked_operatorCalls (List.forall_mem_cons.mpr ⟨rfl, List.forall_mem_singleton.mpr rfl⟩)
  intro calls registry sign behind tokens
  have slicing : Slicing "+2x".toList (sign :: behind) [] := by
    have letters : [sign.characters, ['2'], ['x']].all (fun characters =>
        !characters.isEmpty && characters.all (!isBlank ·)) = true := by decide
    refine ⟨rfl, by simp [sign, behind], ?_, nofun⟩
    simpa [sign, behind] using letters
  have unheld : Unheld registry.functionNames [sign] [] ['2', 'x'] := by
    rintro before slice rest same more
    have lengths := congrArg List.length same
    have positive := List.length_pos_iff.mpr more
    simp at lengths
    omega
  have whole : Whole [sign] [] ['2', 'x'] := nofun
  have scanned : tokenize registry "+2x" Settings.standard = .ok tokens := rfl
  obtain ⟨_, spaced⟩ := tokenize_spaced (NumberSystem.Integer.system ⟨none⟩) Settings.standard
    Settings.standard valid checked scanned
  exact ⟨valid, checked, scanned, slicing, unheld, whole,
    spaced _ _ slicing rfl [sign] behind [] ['2', 'x'] rfl rfl nofun unheld whole⟩

set_option maxRecDepth 4000 in
/-- Behind a space an operator is read that the word behind it held back, and before the end of a source
a name that is cut short there is none. -/
theorem space_changes_lexemes :
    let registry := Registry.afterCalls (NumberSystem.Integer.system ⟨none⟩) Settings.standard
      (operatorCalls ["+", "+2", "floor"])
    (∀ call ∈ operatorCalls ["+", "+2", "floor"], call.Checked) ∧ Settings.standard.Valid ∧
    tokenize registry "+2x" Settings.standard =
      .ok [⟨.binaryOperator "+", 0⟩, ⟨.number 2, 1⟩, ⟨.identifier "x", 2⟩] ∧
    tokenize registry "+2 x" Settings.standard = .ok [⟨.binaryOperator "+2", 0⟩, ⟨.identifier "x", 3⟩] ∧
    tokenize registry "ﬂoor" Settings.standard = .ok [⟨.binaryOperator "floor", 0⟩] ∧
    tokenize registry "ﬂoor " Settings.standard = .ok [⟨.identifier "ﬂoor", 0⟩] := by
  refine ⟨checked_operatorCalls ?_, ⟨{}, rfl⟩, rfl, rfl, rfl, rfl⟩
  exact List.forall_mem_cons.mpr ⟨rfl, List.forall_mem_cons.mpr ⟨rfl, List.forall_mem_singleton.mpr rfl⟩⟩

end Reckoner

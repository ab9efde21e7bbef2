import Reckoner.NumberSystem.Integer
import Reckoner.Proofs.Scan.Reads
import Reckoner.Proofs.Settings
import Reckoner.Proofs.Text.Literal

/-! Lexical classes: blanks, literals, the two kinds of group symbols, the separator and identifiers. With settings
that the checks accept no character can start what is of two classes, so a scan reads the same in whatever order it
tries them. -/

namespace Reckoner

open Reckoner.Unicode

variable {α : Type}

theorem Settings.isSymbol_apart {c : Char} (symbol : isSymbol c = true) :
    isBlank c = false ∧ isWord c = false ∧ isDecimalDigit c = false ∧ c ≠ '.' := by
  simp only [isSymbol, Bool.not_eq_true', Bool.or_eq_false_iff, beq_eq_false_iff_ne] at symbol
  obtain ⟨⟨⟨blank, word⟩, point⟩, line⟩ := symbol
  refine ⟨blank, by simp [isWord, word, line], ?_, point⟩
  apply Bool.eq_false_iff.mpr
  intro digit
  exact Bool.noConfusion (word.symm.trans (isAlphanumeric_of_isDecimalDigit digit))

/-- The classes of what a scan reads without a list of names. -/
inductive LexicalClass where
  | blank
  | literal
  | opening
  | closing
  | separator
  | identifier
  deriving Repr, DecidableEq

namespace LexicalClass

/-- The classes in the order in which they are tried. -/
def all : List LexicalClass := [blank, literal, opening, closing, separator, identifier]

/-- Whether what is of a class can start with a character. -/
def Starts (settings : Settings) (c : Char) : LexicalClass → Prop
  | blank => isBlank c = true
  | literal => isDecimalDigit c = true ∨ c = '.'
  | opening => (settings.closerOf? c).isSome = true
  | closing => (settings.openerOf? c).isSome = true
  | separator => c = settings.separator
  | identifier => isWordStart c = true

/-- The class that a character decides. -/
def of? (settings : Settings) (c : Char) : Option LexicalClass :=
  if isBlank c then some blank
  else if isDecimalDigit c || c == '.' then some literal
  else if (settings.closerOf? c).isSome then some opening
  else if (settings.openerOf? c).isSome then some closing
  else if c = settings.separator then some separator
  else if isWordStart c then some identifier
  else none

variable {settings : Settings} {c : Char}

theorem of?_eq (valid : settings.Valid) {kind : LexicalClass} (starts : kind.Starts settings c) :
    of? settings c = some kind := by
  have symbol := fun reserved : settings.Reserves c => Settings.isSymbol_apart (valid.isSymbol_of_reserves reserved)
  cases kind with
  | blank => exact if_pos starts
  | literal =>
    have unblank : isBlank c = false := by
      rcases starts with digit | rfl
      · exact Bool.eq_false_iff.mpr fun blank =>
          Bool.noConfusion ((not_isDecimalDigit_of_isBlank blank).symm.trans digit)
      · decide
    rw [of?, unblank, if_neg Bool.false_ne_true, if_pos (by simpa [Starts] using starts)]
  | opening =>
    obtain ⟨unblank, -, digit, point⟩ := symbol (Settings.reserves_iff.mpr (.inl starts))
    simp only [Starts] at starts
    simp [of?, unblank, digit, point, starts]
  | closing =>
    obtain ⟨unblank, -, digit, point⟩ := symbol (Settings.reserves_iff.mpr (.inr (.inl starts)))
    have unopened : (settings.closerOf? c).isSome = false := by
      apply Bool.eq_false_iff.mpr
      intro opens
      rw [Starts, valid.openerOf?_of_opening opens] at starts
      cases starts
    simp only [Starts] at starts
    simp [of?, unblank, digit, point, unopened, starts]
  | separator =>
    obtain ⟨unblank, -, digit, point⟩ := symbol (.inr starts)
    obtain ⟨unopened, unclosed⟩ := valid.separator_ungrouped
    obtain rfl : c = settings.separator := starts
    simp [of?, unblank, digit, point, unopened, unclosed]
  | identifier =>
    obtain ⟨word, digit⟩ : isWord c = true ∧ isDecimalDigit c = false := by
      simpa [Starts, isWordStart] using starts
    have unblank : isBlank c = false := Bool.eq_false_iff.mpr fun blank =>
      Bool.noConfusion ((not_isWord_of_isBlank blank).symm.trans word)
    have point : c ≠ '.' := by
      rintro rfl
      exact absurd word (by decide)
    have unreserved : ¬ settings.Reserves c := fun reserved =>
      Bool.noConfusion ((symbol reserved).2.1.symm.trans word)
    obtain ⟨unopened, unclosed, other⟩ : (settings.closerOf? c).isSome = false ∧
        (settings.openerOf? c).isSome = false ∧ settings.separator ≠ c := by
      simpa [Settings.reserves_iff, not_or] using unreserved
    simp only [Starts] at starts
    simp [of?, unblank, digit, point, unopened, unclosed, other.symm, starts]

theorem starts_unique (valid : settings.Valid) {first second : LexicalClass} (one : first.Starts settings c)
    (other : second.Starts settings c) : first = second :=
  Option.some.inj ((of?_eq valid one).symm.trans (of?_eq valid other))

end LexicalClass

namespace Scan

variable {reader : Reader α} {previous : Option (Lexeme α)} {c : Char} {following : List Char} {position : Nat}

/-! ### Scans in another order -/

/-- Reads what is of a class, if the text starts with it. A registered name is no identifier. -/
def readAs (reader : Reader α) (c : Char) (following : List Char) (position : Nat) :
    LexicalClass → Option (Outcome (Step α))
  | .blank => if isBlank c then some (.ok ⟨none, 1⟩) else none
  | .literal =>
    match reader.literal (c :: following) with
    | [] => none
    | literal => some ((readLiteral reader literal position).map fun value => ⟨some (.number value), literal.length⟩)
  | .opening =>
    if (reader.settings.closerOf? c).isSome then some (.ok ⟨some (.openGroup (.singleton c)), 1⟩) else none
  | .closing =>
    if (reader.settings.openerOf? c).isSome then some (.ok ⟨some (.closeGroup (.singleton c)), 1⟩) else none
  | .separator =>
    if reader.settings.separator = c then some (.ok ⟨some (.separator (.singleton c)), 1⟩) else none
  | .identifier =>
    if (findName? reader.names (c :: following)).isSome then none
    else
      match identifier (c :: following) with
      | [] => none
      | name => some (.ok ⟨some (.identifier (String.ofList name)), name.length⟩)

/-- Reads a registered name or the symbolic name of a value. -/
def readListed (reader : Reader α) (previous : Option (Lexeme α)) (text : List Char) (c : Char) (position : Nat) :
    Outcome (Step α) :=
  match findName? reader.names text with
  | some candidate =>
    .ok ⟨some (classify reader.registry previous candidate.name), candidate.characters.length⟩
  | none =>
    match findSymbol? reader.symbols text with
    | some symbol => .ok ⟨some (.identifier symbol.name), symbol.characters.length⟩
    | none => .error (reader.error ("Unexpected character '" ++ String.singleton c ++ "'") position)

/-- Tries the classes in some order, and then the listed names. -/
def stepIn (order : List LexicalClass) (reader : Reader α) (previous : Option (Lexeme α)) (c : Char)
    (following : List Char) (position : Nat) : Outcome (Step α) :=
  (order.findSome? (readAs reader c following position)).getD
    (readListed reader previous (c :: following) c position)

/-- Scans the rest of a text and tries the classes in some order. -/
def scanRestIn (order : List LexicalClass) (reader : Reader α) :
    Nat → List Char → Nat → List (Token α) → Outcome (List (Token α))
  | _, [], _, tokens => .ok tokens.reverse
  | 0, _ :: _, _, tokens => .ok tokens.reverse
  | fuel + 1, c :: following, position, tokens => do
    let next ← stepIn order reader (tokens.head?.map Token.lexeme) c following position
    let tokens := match next.lexeme with
      | some lexeme => emit reader tokens lexeme position
      | none => tokens
    scanRestIn order reader fuel ((c :: following).drop next.length) (position + next.length) tokens

theorem findSome?_symbols :
    [LexicalClass.opening, .closing, .separator].findSome? (readAs reader c following position) =
      (symbolLexeme? reader.settings c).map fun lexeme => .ok ⟨some lexeme, 1⟩ := by
  simp only [List.findSome?_cons, List.findSome?_nil, readAs, symbolLexeme?]
  by_cases opens : (reader.settings.closerOf? c).isSome = true
  · simp [opens]
  by_cases closes : (reader.settings.openerOf? c).isSome = true
  · simp [opens, closes]
  by_cases separates : reader.settings.separator = c
  · simp [opens, closes, separates]
  · simp [opens, closes, separates]

theorem getD_readAs_identifier :
    (readAs reader c following position .identifier).getD (readListed reader previous (c :: following) c position) =
      stepName reader previous (c :: following) c position := by
  unfold readAs readListed stepName
  cases found : findName? reader.names (c :: following) with
  | some candidate => rfl
  | none =>
    cases word : identifier (c :: following) with
    | nil => rfl
    | cons first rest => rfl

theorem stepIn_all : stepIn LexicalClass.all reader previous c following position =
    step reader previous c following position := by
  have parts : LexicalClass.all = [.blank, .literal] ++ [.opening, .closing, .separator] ++ [.identifier] := rfl
  unfold stepIn step
  rw [parts, List.findSome?_append, List.findSome?_append, findSome?_symbols]
  by_cases blank : isBlank c = true
  · simp [readAs, blank, pure, Except.pure]
  cases literal : reader.literal (c :: following) with
  | cons first rest =>
    have span := literal
    rw [Reader.literal] at span
    simp only [List.findSome?_cons, readAs, blank, literal, span]
    cases readLiteral reader (first :: rest) position <;> rfl
  | nil =>
    have span := literal
    rw [Reader.literal] at span
    cases symbol : symbolLexeme? (α := α) reader.settings c with
    | some lexeme => simp [readAs, blank, literal, span, pure, Except.pure]
    | none =>
      have unread : [LexicalClass.blank, .literal].findSome? (readAs reader c following position) = none := by
        simp [readAs, blank, literal]
      simp only [unread, blank, span, ← getD_readAs_identifier, List.findSome?_singleton, Bool.false_eq_true,
        if_false, Option.map_none, Option.none_or]

theorem starts_of_readAs {kind : LexicalClass} (read : (readAs reader c following position kind).isSome = true) :
    kind.Starts reader.settings c := by
  cases kind with
  | blank => simpa [readAs, LexicalClass.Starts] using read
  | literal =>
    by_contra other
    obtain ⟨digit, point⟩ := not_or.mp other
    have absent : reader.literal (c :: following) = [] :=
      LiteralStyle.span_eq_nil _ (Bool.eq_false_iff.mpr digit) point following
    simp [readAs, absent] at read
  | opening => simpa [readAs, LexicalClass.Starts] using read
  | closing => simpa [readAs, LexicalClass.Starts] using read
  | separator =>
    have same : reader.settings.separator = c := by simpa [readAs] using read
    exact same.symm
  | identifier =>
    by_contra other
    have noWord : identifier (c :: following) = [] := if_neg other
    simp [readAs, noWord] at read

/-- With one element at most that something is found for, the order of a search does not matter. -/
theorem findSome?_perm {β γ : Type} (search : β → Option γ) {first second : List β} (same : first.Perm second)
    (unique : ∀ one other, (search one).isSome = true → (search other).isSome = true → one = other) :
    first.findSome? search = second.findSome? search := by
  cases found : second.findSome? search with
  | none =>
    rw [List.findSome?_eq_none_iff] at found ⊢
    exact fun element member => found element (same.mem_iff.mp member)
  | some result =>
    obtain ⟨element, member, finds⟩ := List.exists_of_findSome?_eq_some found
    have present := Option.isSome_iff_exists.mpr ⟨result, finds⟩
    have somewhere : (first.findSome? search).isSome = true :=
      List.findSome?_isSome_iff.mpr ⟨element, same.mem_iff.mpr member, present⟩
    obtain ⟨other, reached⟩ := Option.isSome_iff_exists.mp somewhere
    obtain ⟨reaching, -, reads⟩ := List.exists_of_findSome?_eq_some reached
    obtain rfl := unique element reaching present (Option.isSome_iff_exists.mpr ⟨other, reads⟩)
    rw [reached, ← reads, finds]

/-- With valid settings a step reads the same in every order of the classes. -/
theorem stepIn_eq (valid : reader.settings.Valid) {order : List LexicalClass} (orders : order.Perm LexicalClass.all) :
    stepIn order reader previous c following position = step reader previous c following position := by
  have found := findSome?_perm (readAs reader c following position) orders fun _ _ one other =>
    LexicalClass.starts_unique valid (starts_of_readAs one) (starts_of_readAs other)
  rw [← stepIn_all, stepIn, found, stepIn]

theorem scanRestIn_eq (valid : reader.settings.Valid) {order : List LexicalClass}
    (orders : order.Perm LexicalClass.all) (fuel : Nat) (text : List Char) (position : Nat) (tokens : List (Token α)) :
    scanRestIn order reader fuel text position tokens = scanRest reader fuel text position tokens := by
  induction fuel generalizing text position tokens with
  | zero => cases text <;> rfl
  | succ fuel ih =>
    cases text with
    | nil => rfl
    | cons c following =>
      rw [scanRestIn, scanRest, stepIn_eq valid orders]
      exact congrArg (step reader _ c following position >>= ·) (funext fun _ => ih _ _ _)

end Scan

/-- The tokens of a source, with the classes tried in some order. -/
def tokenizeIn (order : List LexicalClass) (registry : Registry α) (source : String) (settings : Settings) :
    Outcome (List (Token α)) :=
  let text := source.toList
  if text.all isBlank then
    .error (.described ⟨.emptyExpression, "Expression is empty", some 0, some source⟩)
  else Scan.scanRestIn order (Scan.Reader.of registry settings source) text.length text 0 []

/-- With all settings that are accepted or that accepted changes lead to, the groups are pairs of symbols that open
and close each other, no symbol has two roles, and none is a blank or starts a number or is part of an identifier. So
the classes may be tried in any order. -/
theorem classes_apart {draft : Settings.Draft} {first settings : Settings} {steps : List Settings.Change}
    (accepted : draft.check = .ok first) (changed : steps.foldlM Settings.change first = .ok settings) :
    (∀ opening closing, settings.closerOf? opening = some closing ↔ settings.openerOf? closing = some opening) ∧
    (∀ opening closing, settings.closerOf? opening = some closing ↔ (opening, closing) ∈ settings.groups) ∧
    (∀ c, (settings.closerOf? c).isSome = true → settings.openerOf? c = none) ∧
    settings.closerOf? settings.separator = none ∧ settings.openerOf? settings.separator = none ∧
    (∀ c, settings.Reserves c → isBlank c = false ∧
      (∀ (style : LiteralStyle) following, (style.span (c :: following)).1 = []) ∧
      isWord c = false ∧ ∀ text, c ∉ Scan.identifier text) ∧
    (∀ c (kind other : LexicalClass), kind.Starts settings c → other.Starts settings c → kind = other) ∧
    ∀ (registry : Registry α) source order, order.Perm LexicalClass.all →
      tokenizeIn order registry source settings = tokenize registry source settings := by
  have valid : settings.Valid := Settings.Valid.changes ⟨draft, accepted⟩ changed
  obtain ⟨unopened, unclosed⟩ := valid.separator_ungrouped
  refine ⟨fun _ _ => valid.closerOf?_eq_some_iff.trans valid.openerOf?_eq_some_iff.symm,
    fun _ _ => valid.closerOf?_eq_some_iff, fun _ => valid.openerOf?_of_opening, unopened, unclosed, ?_,
    fun _ _ _ => LexicalClass.starts_unique valid, ?_⟩
  · intro c reserved
    obtain ⟨blank, word, digit, point⟩ := Settings.isSymbol_apart (valid.isSymbol_of_reserves reserved)
    refine ⟨blank, fun style following => style.span_eq_nil digit point following, word, ?_⟩
    intro text member
    exact Bool.noConfusion (word.symm.trans (Scan.isWord_of_mem_identifier member))
  · intro registry source order orders
    unfold tokenizeIn tokenize
    have valid : (Scan.Reader.of registry settings source).settings.Valid := valid
    simp only [Scan.scanRestIn_eq valid orders]

/-- Angle brackets are added to brackets and parentheses, once a semicolon separates. -/
theorem classes_apart_sample :
    let settings : Settings := ⟨[('(', ')'), ('[', ']'), ('<', '>')], ';', true, false, List.cons_ne_nil _ _⟩
    let registry := Registry.empty (NumberSystem.Integer.system ⟨none⟩) settings
    ∃ first, Settings.Draft.check { groups := [("(", ")"), ("[", "]")] } = .ok first ∧
      [.separator ";", .group "<" ">", .group "(" ")", .implicitProduct true].foldlM Settings.change first =
        .ok settings ∧
      settings.openerOf? '>' = some '<' ∧
      ∀ source, tokenizeIn LexicalClass.all.reverse registry source settings = tokenize registry source settings := by
  intro settings registry
  have accepted : Settings.Draft.check { groups := [("(", ")"), ("[", "]")] } =
    .ok ⟨[('(', ')'), ('[', ']')], ',', false, false, List.cons_ne_nil _ _⟩ := rfl
  have changed : [.separator ";", .group "<" ">", .group "(" ")", .implicitProduct true].foldlM Settings.change
    ⟨[('(', ')'), ('[', ']')], ',', false, false, List.cons_ne_nil _ _⟩ = .ok settings := rfl
  obtain ⟨inverse, -, -, -, -, -, -, orders⟩ := classes_apart (α := Int) accepted changed
  exact ⟨_, accepted, changed, (inverse '<' '>').mp rfl,
    fun source => orders registry source _ (List.reverse_perm _)⟩

end Reckoner

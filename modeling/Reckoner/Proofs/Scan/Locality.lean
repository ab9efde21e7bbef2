import Reckoner.Proofs.Registry.Locality
import Reckoner.Proofs.Scan.Coverage
import Reckoner.Proofs.Scan.Spacing

/-! What a scan asks a registry. It only asks for names whose foldings stand in the folding of the source,
and for the product sign if that may be left out, so registries that agree on these scan the source
alike. -/

namespace Reckoner

open Reckoner.Unicode

variable {α : Type}

/-- Whether the folding of a source has the folding of a name, or the name is that of the product that may
be left out. -/
def Settings.Mentions (settings : Settings) (source name : String) : Prop :=
  foldChars name.toList <:+: foldChars source.toList ∨
    settings.implicitProduct = true ∧ fold name = fold Scan.productSign

/-- Whether the name that a lexeme is, if it is one, has a property. -/
def Lexeme.Refers (known : String → Prop) : Lexeme α → Prop
  | identifier name | functionCall name | unaryOperator name | binaryOperator name => known name
  | _ => True

namespace Scan

/-! ### Names that a source mentions -/

variable {settings : Settings} {source : String}

theorem mentions_of_fold (first second : String) (same : fold first = fold second)
    (mentioned : settings.Mentions source first) : settings.Mentions source second := by
  unfold Settings.Mentions
  rw [← fold_eq_iff.mp same, ← same]
  exact mentioned

theorem foldChars_within {part whole : List Char} (within : part <:+: whole) :
    foldChars part <:+: foldChars whole := by
  obtain ⟨before, after, rfl⟩ := within
  rw [foldChars_append, foldChars_append]
  exact List.infix_append _ _ _

theorem mentions_of_within {name : String} (within : name.toList <:+: source.toList) :
    settings.Mentions source name := .inl (foldChars_within within)

theorem mentions_of_stands {name : String} {text : List Char} (within : text <:+ source.toList)
    (stands : Stands name text) : settings.Mentions source name := by
  refine .inl ?_
  rw [← stands.1]
  exact foldChars_within ((List.take_prefix _ _).isInfix.trans within.isInfix)

theorem mentions_of_starts {name : String} {text : List Char} (within : text <:+ source.toList)
    (starts : name.toList <+: text) : settings.Mentions source name :=
  mentions_of_within (starts.isInfix.trans within.isInfix)

/-! ### Registries that agree on them -/

variable {first second : Registry α}
  (agree : Registry.AgreeOn (settings.Mentions source) first second)

include agree

section Lexemes

variable {lexeme : Lexeme α} (refers : lexeme.Refers (settings.Mentions source))

include refers

theorem isPostfix_local : isPostfix first lexeme = isPostfix second lexeme := by
  cases lexeme with
  | unaryOperator name => rw [isPostfix, isPostfix, agree.unary name refers]
  | _ => rfl

theorem endsValue_local : endsValue first lexeme = endsValue second lexeme := by
  have postfixed := isPostfix_local agree refers
  cases lexeme with
  | number | identifier | closeGroup => rfl
  | _ => exact postfixed

theorem isProduct_local (right : Lexeme α) :
    isProduct first lexeme right = isProduct second lexeme right := by
  have postfixed := isPostfix_local agree refers
  unfold isProduct
  split
  · rfl
  · rfl
  · rfl
  · rfl
  · rfl
  · rfl
  · rfl
  · exact postfixed
  · exact postfixed
  · exact postfixed
  · rfl

end Lexemes

theorem classify_local {previous : Option (Lexeme α)}
    (refers : ∀ lexeme ∈ previous, lexeme.Refers (settings.Mentions source)) {name : String}
    (mentioned : settings.Mentions source name) :
    classify first previous name = classify second previous name := by
  have ends : previous.any (endsValue first) = previous.any (endsValue second) := by
    cases previous with
    | none => rfl
    | some lexeme => exact endsValue_local agree (refers lexeme rfl)
  rw [classify, agree.functions name mentioned, agree.unary name mentioned,
    agree.binary name mentioned, ends, ← classify]

theorem findName?_local {text : List Char} (within : text <:+ source.toList) :
    findName? (Reader.of first settings source).names text =
      findName? (Reader.of second settings source).names text := by
  have listed := agree.functionNames (fun name => (Candidate.ofName name).startsAt text)
    fun name starts => mentions_of_stands within (startsAt_ofName_iff.mp starts)
  simp only [findName?, Reader.of, List.filter_map, Function.comp_def, listed]

theorem findSymbol?_local {text : List Char} (within : text <:+ source.toList) :
    findSymbol? (Reader.of first settings source).symbols text =
      findSymbol? (Reader.of second settings source).symbols text := by
  have listed := agree.valueNames
    (fun name => name.toList.isPrefixOf text && !name.toList.head?.any isWord)
    fun name starts => mentions_of_starts within
      (List.isPrefixOf_iff_prefix.mp (Bool.and_eq_true_iff.mp starts).1)
  simp only [findSymbol?, Reader.of, List.filter_map, List.filter_filter, Function.comp_def,
    Candidate.ofName, listed]

theorem step_local {previous : Option (Lexeme α)}
    (refers : ∀ lexeme ∈ previous, lexeme.Refers (settings.Mentions source)) {c : Char}
    {following : List Char} (within : c :: following <:+ source.toList) (position : Nat) :
    step (Reader.of first settings source) previous c following position =
      step (Reader.of second settings source) previous c following position := by
  have literals (position : Nat) (literal : List Char) :
      readLiteral (Reader.of first settings source) literal position =
        readLiteral (Reader.of second settings source) literal position := by
    simp only [readLiteral, Reader.of, agree.system, Reader.error]
  have names : stepName (Reader.of first settings source) previous (c :: following) c position =
      stepName (Reader.of second settings source) previous (c :: following) c position := by
    unfold stepName
    rw [findName?_local agree within, findSymbol?_local agree within]
    cases found : findName? (Reader.of second settings source).names (c :: following) with
    | none => rfl
    | some candidate =>
      obtain ⟨listed, stands, _⟩ := findName?_eq_some found
      obtain ⟨name, _, rfl⟩ := List.mem_map.mp listed
      have mentioned : settings.Mentions source name :=
        mentions_of_stands within (startsAt_ofName_iff.mp stands)
      simp only [Reader.of, Candidate.ofName, classify_local agree refers mentioned]
  unfold step
  simp only [literals, names]
  rw [show (Reader.of first settings source).registry.system = second.system from agree.system]
  rfl

theorem emit_local {tokens : List (Token α)}
    (refers : ∀ token ∈ tokens, token.lexeme.Refers (settings.Mentions source)) (lexeme : Lexeme α)
    (position : Nat) :
    emit (Reader.of first settings source) tokens lexeme position =
      emit (Reader.of second settings source) tokens lexeme position := by
  have products : (tokens.head?.any fun last => isProduct first last.lexeme lexeme) =
      tokens.head?.any fun last => isProduct second last.lexeme lexeme := by
    cases tokens with
    | nil => rfl
    | cons last rest => exact isProduct_local agree (refers last List.mem_cons_self) lexeme
  unfold emit
  simp only [Reader.of, products]
  rfl

omit agree

/-! ### Lexemes of a source -/

variable {registry : Registry α}

theorem step_refers {previous : Option (Lexeme α)} {c : Char} {following : List Char}
    (within : c :: following <:+ source.toList) {position : Nat} {next : Step α}
    (read : step (Reader.of registry settings source) previous c following position = .ok next) :
    ∀ lexeme ∈ next.lexeme, lexeme.Refers (settings.Mentions source) := by
  cases blank : isBlank c with
  | true =>
    rw [step_of_isBlank blank] at read
    cases read
    exact nofun
  | false =>
    obtain ⟨lexeme, count, rfl, reads⟩ := reads_of_step blank read
    rintro _ ⟨⟩
    cases reads with
    | number => trivial
    | symbol _ _ found =>
      obtain ⟨text, rfl | rfl | rfl⟩ := symbolLexeme?_cases found
      · trivial
      · trivial
      · trivial
    | name _ found =>
      obtain ⟨listed, stands, _⟩ := findName?_eq_some found
      obtain ⟨name, _, rfl⟩ := List.mem_map.mp listed
      have mentioned : settings.Mentions source name :=
        mentions_of_stands within (startsAt_ofName_iff.mp stands)
      unfold classify
      split
      · exact mentioned
      · split
        · split
          · exact mentioned
          · exact mentioned
        · exact mentioned
    | identifier =>
      refine mentions_of_starts within ?_
      rw [String.toList_ofList]
      exact identifier_starts _
    | symbolic _ _ _ found =>
      obtain ⟨listed, starts, _⟩ := findSymbol?_eq_some found
      obtain ⟨name, _, rfl⟩ := List.mem_map.mp listed
      exact mentions_of_starts within starts

theorem emit_refers {tokens : List (Token α)} {lexeme : Lexeme α} {position : Nat}
    (refers : ∀ token ∈ tokens, token.lexeme.Refers (settings.Mentions source))
    (new : lexeme.Refers (settings.Mentions source)) :
    ∀ token ∈ emit (Reader.of registry settings source) tokens lexeme position,
      token.lexeme.Refers (settings.Mentions source) := by
  unfold emit
  simp only
  split
  · rename_i product
    have left : settings.implicitProduct = true := (Bool.and_eq_true_iff.mp product).1
    exact List.forall_mem_cons.mpr ⟨new, List.forall_mem_cons.mpr ⟨.inr ⟨left, rfl⟩, refers⟩⟩
  · exact List.forall_mem_cons.mpr ⟨new, refers⟩

include agree

theorem scanRest_local (fuel : Nat) {text : List Char} (within : text <:+ source.toList)
    (position : Nat) {tokens : List (Token α)}
    (refers : ∀ token ∈ tokens, token.lexeme.Refers (settings.Mentions source)) :
    scanRest (Reader.of first settings source) fuel text position tokens =
        scanRest (Reader.of second settings source) fuel text position tokens ∧
      Yields (∀ token ∈ ·, token.lexeme.Refers (settings.Mentions source))
        (scanRest (Reader.of second settings source) fuel text position tokens) := by
  have ended : ∀ token ∈ tokens.reverse, token.lexeme.Refers (settings.Mentions source) :=
    fun token member => refers token (List.mem_reverse.mp member)
  induction fuel generalizing text position tokens with
  | zero => cases text <;> exact ⟨rfl, .ok ended⟩
  | succ fuel ih =>
    cases text with
    | nil => exact ⟨rfl, .ok ended⟩
    | cons c following =>
      have last : ∀ lexeme ∈ tokens.head?.map Token.lexeme,
          lexeme.Refers (settings.Mentions source) := by
        intro lexeme member
        obtain ⟨token, front, rfl⟩ := Option.map_eq_some_iff.mp member
        exact refers token (List.mem_of_mem_head? front)
      simp only [scanRest, step_local agree last within, emit_local agree refers]
      cases read : step (Reader.of second settings source) (tokens.head?.map Token.lexeme) c following
        position with
      | error fault => exact ⟨rfl, .error fault⟩
      | ok next =>
        have suffix : (c :: following).drop next.length <:+ source.toList :=
          (List.drop_suffix _ _).trans within
        have new := step_refers within read
        obtain ⟨lexeme, length⟩ := next
        cases lexeme with
        | none => exact ih suffix _ refers ended
        | some lexeme =>
          have more : ∀ token ∈ emit (Reader.of second settings source) tokens lexeme position,
              token.lexeme.Refers (settings.Mentions source) := emit_refers refers (new lexeme rfl)
          exact ih suffix _ more fun token member => more token (List.mem_reverse.mp member)

end Scan

open Scan

variable {first second : Registry α} {settings : Settings} {source : String}

/-- Registries that agree on the names that a source mentions find the same tokens in it. -/
theorem tokenize_local (agree : Registry.AgreeOn (settings.Mentions source) first second) :
    tokenize first source settings = tokenize second source settings ∧
      Yields (∀ token ∈ ·, token.lexeme.Refers (settings.Mentions source))
        (tokenize second source settings) := by
  simp only [tokenize]
  cases source.toList.all isBlank with
  | true => exact ⟨rfl, .error _⟩
  | false => exact scanRest_local agree _ (List.suffix_refl _) 0 (List.forall_mem_nil _)

end Reckoner

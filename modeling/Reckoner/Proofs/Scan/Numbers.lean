import Reckoner.Proofs.Outcome
import Reckoner.Scan

/-! The numbers among the tokens of a source are read from its literals. -/

namespace Reckoner

variable {α : Type} {holds : α → Prop}

/-- Whether a token that is a number has a property. -/
def Token.Carries (token : Token α) (holds : α → Prop) : Prop :=
  ∀ value, token.lexeme = .number value → holds value

theorem Token.carries_of_kind {token : Token α} (other : token.lexeme.kind ≠ .number) :
    token.Carries holds := by
  intro value same
  rw [same] at other
  exact absurd rfl other

namespace Scan

/-- Whether all numbers read from literals have a property. -/
def ReadsLiterals (system : NumberSystem α) (holds : α → Prop) : Prop :=
  ∀ text, Yields holds (system.parse (system.literals.span text).1)

variable {reader : Reader α}

theorem classify_kind (registry : Registry α) (previous : Option (Lexeme α)) (name : String) :
    (classify registry previous name).kind ≠ .number := by
  unfold classify
  split
  · exact nofun
  · split
    · split <;> exact nofun
    · exact nofun

theorem symbolLexeme?_cases {settings : Settings} {c : Char} {lexeme : Lexeme α}
    (found : symbolLexeme? settings c = some lexeme) :
    ∃ text, lexeme = .openGroup text ∨ lexeme = .closeGroup text ∨ lexeme = .separator text := by
  unfold symbolLexeme? at found
  simp only at found
  split at found
  · cases found
    exact ⟨_, .inl rfl⟩
  · split at found
    · cases found
      exact ⟨_, .inr (.inl rfl)⟩
    · split at found
      · cases found
        exact ⟨_, .inr (.inr rfl)⟩
      · cases found

theorem symbolLexeme?_kind {settings : Settings} {c : Char} {lexeme : Lexeme α}
    (found : symbolLexeme? settings c = some lexeme) : lexeme.kind ≠ .number := by
  obtain ⟨text, rfl | rfl | rfl⟩ := symbolLexeme?_cases found
  · exact nofun
  · exact nofun
  · exact nofun

theorem readLiteral_keeps {literal : List Char} {position : Nat}
    (keeps : Yields holds (reader.registry.system.parse literal)) :
    Yields holds (readLiteral reader literal position) := by
  unfold readLiteral
  split
  · rename_i value read
    exact .ok (keeps value read)
  · split <;> exact .error _

theorem stepName_kind {previous : Option (Lexeme α)} {text : List Char} {c : Char} {position : Nat} :
    Yields (fun next => ∀ lexeme ∈ next.lexeme, lexeme.kind ≠ .number)
      (stepName reader previous text c position) := by
  unfold stepName
  split
  · refine .ok ?_
    rintro lexeme ⟨⟩
    exact classify_kind _ _ _
  · split
    · split
      · refine .ok ?_
        rintro lexeme ⟨⟩
        exact nofun
      · exact .error _
    · refine .ok ?_
      rintro lexeme ⟨⟩
      exact nofun

theorem step_carries (keeps : ReadsLiterals reader.registry.system holds) {previous : Option (Lexeme α)}
    {c : Char} {following : List Char} {position : Nat} :
    Yields (fun next => ∀ lexeme ∈ next.lexeme, Token.Carries ⟨lexeme, position⟩ holds)
      (step reader previous c following position) := by
  unfold step
  refine .ite (.ok nofun) ?_
  split
  · split
    · rename_i lexeme found
      refine .ok ?_
      rintro _ ⟨⟩
      exact Token.carries_of_kind (symbolLexeme?_kind found)
    · intro next read lexeme member
      exact Token.carries_of_kind (stepName_kind next read lexeme member)
  · refine .bind ?_
    intro value read
    refine .ok ?_
    rintro _ ⟨⟩ _ ⟨⟩
    exact readLiteral_keeps (keeps (c :: following)) value read

theorem emit_carries {tokens : List (Token α)} {lexeme : Lexeme α} {position : Nat}
    (first : Token.Carries ⟨lexeme, position⟩ holds)
    (carried : ∀ token ∈ tokens, token.Carries holds) :
    ∀ token ∈ emit reader tokens lexeme position, token.Carries holds := by
  unfold emit
  simp only
  split
  · exact List.forall_mem_cons.mpr ⟨first, List.forall_mem_cons.mpr
      ⟨Token.carries_of_kind nofun, carried⟩⟩
  · exact List.forall_mem_cons.mpr ⟨first, carried⟩

/-- The tokens once a step is made: one more, or no more behind a blank. -/
def Reader.extend (reader : Reader α) (tokens : List (Token α)) (lexeme : Option (Lexeme α))
    (position : Nat) : List (Token α) :=
  match lexeme with
  | some lexeme => emit reader tokens lexeme position
  | none => tokens

/-- What every step keeps of the tokens so far holds of the tokens of the scan. -/
theorem scanRest_keeps {kept : List (Token α) → Prop}
    (keeps : ∀ tokens c following position next, kept tokens →
      step reader (tokens.head?.map Token.lexeme) c following position = .ok next →
      kept (reader.extend tokens next.lexeme position))
    (fuel : Nat) (text : List Char) (position : Nat) {tokens : List (Token α)} (before : kept tokens) :
    Yields (fun result => kept result.reverse) (scanRest reader fuel text position tokens) := by
  have ended : kept tokens.reverse.reverse := by rwa [List.reverse_reverse]
  induction fuel generalizing text position tokens with
  | zero =>
    cases text with
    | nil => exact .ok ended
    | cons c following => exact .ok ended
  | succ fuel ih =>
    cases text with
    | nil => exact .ok ended
    | cons c following =>
      refine .bind ?_
      intro next read
      have extended := keeps tokens c following position next before read
      exact ih _ _ extended (by rwa [List.reverse_reverse])

theorem scanRest_carries (keeps : ReadsLiterals reader.registry.system holds) (fuel : Nat)
    (text : List Char) (position : Nat) {tokens : List (Token α)}
    (carried : ∀ token ∈ tokens, token.Carries holds) :
    Yields (∀ token ∈ ·, token.Carries holds) (scanRest reader fuel text position tokens) := by
  have steps : ∀ tokens c following position next, (∀ token ∈ tokens, Token.Carries token holds) →
      step reader (tokens.head?.map Token.lexeme) c following position = .ok next →
      ∀ token ∈ reader.extend tokens next.lexeme position, token.Carries holds := by
    intro tokens c following position next carried read
    have kept := step_carries keeps next read
    cases found : next.lexeme with
    | none => exact carried
    | some lexeme => exact emit_carries (kept lexeme found) carried
  intro result scanned token member
  exact scanRest_keeps steps fuel text position carried result scanned token (List.mem_reverse.mpr member)

end Scan

theorem tokenize_carries {registry : Registry α} (keeps : Scan.ReadsLiterals registry.system holds)
    (source : String) (settings : Settings) :
    Yields (∀ token ∈ ·, token.Carries holds) (tokenize registry source settings) := by
  unfold tokenize
  refine .ite (.error _) (Scan.scanRest_carries ?_ _ _ _ nofun)
  exact keeps

end Reckoner

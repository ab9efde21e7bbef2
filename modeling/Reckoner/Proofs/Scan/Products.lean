import Reckoner.Proofs.Scan.Runs

/-! Product signs that are left out. A scan that adds them reads the same lexemes as one that does not:
each sign stands before a lexeme that is read, so it is never the last token that the next lexeme is
classified by. What it adds to the tokens is therefore a matter of neighbours alone. -/

namespace Reckoner

variable {α : Type}

/-- Whether a lexeme can be multiplied from the left by what needs no sign behind it. -/
def Lexeme.IsFactor (lexeme : Lexeme α) : Prop :=
  lexeme.kind = .identifier ∨ lexeme.kind = .openGroup ∨ lexeme.kind = .functionCall

/-- The same settings with or without products whose sign is left out. -/
def Settings.withProducts (settings : Settings) (implicit : Bool) : Settings :=
  { settings with implicitProduct := implicit }

namespace Scan

variable {registry : Registry α} {settings : Settings}

theorem isPostfix_iff {lexeme : Lexeme α} :
    isPostfix registry lexeme = true ↔ ∃ name operator, lexeme = .unaryOperator name ∧
      registry.getUnary? name = some operator ∧ operator.placement = .after := by
  cases lexeme with
  | unaryOperator name => simp [isPostfix, Option.any_eq_true]
  | _ => simp [isPostfix]

/-- A sign may be left out between a number and a factor, a closing symbol and a factor or a number, or a
postfix operator and a factor. -/
theorem isProduct_iff {left right : Lexeme α} :
    isProduct registry left right = true ↔
      left.kind = .number ∧ right.IsFactor ∨
      left.kind = .closeGroup ∧ (right.IsFactor ∨ right.kind = .number) ∨
      (∃ name operator, left = .unaryOperator name ∧ registry.getUnary? name = some operator ∧
        operator.placement = .after) ∧ right.IsFactor := by
  rw [← isPostfix_iff]
  cases left <;> cases right <;> simp [isProduct, Lexeme.IsFactor, Lexeme.kind, isPostfix]

/-- Tokens with a product sign between any two neighbours that leave it out, each at the place of the
second one. -/
def insertSigns (registry : Registry α) : List (Token α) → List (Token α)
  | [] => []
  | [token] => [token]
  | left :: right :: rest =>
    if isProduct registry left.lexeme right.lexeme then
      left :: ⟨.binaryOperator productSign, right.position⟩ :: insertSigns registry (right :: rest)
    else left :: insertSigns registry (right :: rest)

theorem insertSigns_append (tokens : List (Token α)) (lexeme : Lexeme α) (place : Nat) :
    insertSigns registry (tokens ++ [⟨lexeme, place⟩]) = insertSigns registry tokens ++
      signsOf registry (settings.withProducts true) (tokens.getLast?.map Token.lexeme) lexeme place ++
        [⟨lexeme, place⟩] := by
  induction tokens with
  | nil => simp [insertSigns, signsOf]
  | cons first rest ih =>
    cases rest with
    | nil =>
      by_cases product : isProduct registry first.lexeme lexeme = true
      · simp [insertSigns, signsOf, product, Settings.withProducts]
      · simp [insertSigns, signsOf, product, Settings.withProducts]
    | cons second others =>
      simp only [List.cons_append] at ih
      simp only [List.cons_append, insertSigns, ih, List.getLast?_cons_cons]
      split <;> simp

/-- Two scans in step, both with their tokens from the last to the first: the tokens of one are those of the
other with the signs, and the last token is the same. -/
structure Signed (registry : Registry α) (signed tokens : List (Token α)) : Prop where
  inserted : signed.reverse = insertSigns registry tokens.reverse
  last : signed.head? = tokens.head?

/-- A lexeme that both scans read leaves them in step. -/
theorem Signed.emit {source : String} {signed tokens : List (Token α)}
    (inStep : Signed registry signed tokens) (lexeme : Lexeme α) (place : Nat) :
    Signed registry (emit (.of registry (settings.withProducts true) source) signed lexeme place)
      (emit (.of registry (settings.withProducts false) source) tokens lexeme place) where
  inserted := by
    have none : signsOf registry (settings.withProducts false) (tokens.head?.map Token.lexeme) lexeme
        place = [] := rfl
    rw [reverse_emit, reverse_emit, inStep.inserted, inStep.last]
    simp only [Reader.of]
    rw [none, List.append_nil, insertSigns_append, List.getLast?_reverse]
  last := by rw [head?_emit, head?_emit]

/-- Whether signs are added makes no difference to what is read at a place. -/
theorem step_withProducts (registry : Registry α) (settings : Settings) (source : String)
    (previous : Option (Lexeme α)) (c : Char) (following : List Char) (position : Nat) :
    step (.of registry (settings.withProducts true) source) previous c following position =
      step (.of registry (settings.withProducts false) source) previous c following position := rfl

/-- Scans that are in step fail alike or end with tokens that are in step. -/
theorem scanRest_withProducts (source : String) (fuel : Nat) (text : List Char) (position : Nat)
    {signed tokens : List (Token α)} (inStep : Signed registry signed tokens) :
    scanRest (.of registry (settings.withProducts true) source) fuel text position signed =
      (scanRest (.of registry (settings.withProducts false) source) fuel text position tokens).map
        (insertSigns registry) := by
  induction fuel generalizing text position signed tokens with
  | zero =>
    cases text with
    | nil => exact congrArg Except.ok inStep.inserted
    | cons c following => exact congrArg Except.ok inStep.inserted
  | succ fuel ih =>
    cases text with
    | nil => exact congrArg Except.ok inStep.inserted
    | cons c following =>
      simp only [scanRest, step_withProducts, inStep.last]
      cases step (.of registry (settings.withProducts false) source) (tokens.head?.map Token.lexeme) c
          following position with
      | error fault => rfl
      | ok next =>
        simp only [ok_bind]
        cases next.lexeme with
        | none => exact ih _ _ inStep
        | some lexeme => exact ih _ _ (inStep.emit lexeme position)

end Scan

open Scan

/-- A scan that adds the product signs that are left out fails exactly as one that does not, and otherwise
gives its tokens with a sign inserted between those neighbours that leave it out, at the place of the
second one. -/
theorem tokenize_withProducts (registry : Registry α) (source : String) (settings : Settings) :
    tokenize registry source (settings.withProducts true) =
        (tokenize registry source (settings.withProducts false)).map (insertSigns registry) ∧
      ∀ left right : Lexeme α, isProduct registry left right = true ↔
        left.kind = .number ∧ right.IsFactor ∨
        left.kind = .closeGroup ∧ (right.IsFactor ∨ right.kind = .number) ∨
        (∃ name operator, left = .unaryOperator name ∧ registry.getUnary? name = some operator ∧
          operator.placement = .after) ∧ right.IsFactor := by
  refine ⟨?_, fun left right => isProduct_iff⟩
  unfold tokenize
  simp only
  split
  · rfl
  · exact scanRest_withProducts source _ _ _ ⟨rfl, rfl⟩

end Reckoner

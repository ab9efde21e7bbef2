import Reckoner.Registry
import Reckoner.Token

/-! Tokens of a source text. At each place the scan tries a literal, the symbols of the settings, the
longest registered name, identifiers, and last the longest name of a value that does not start like
an identifier. -/

namespace Reckoner

open Reckoner.Unicode

namespace Scan

variable {α : Type}

/-- A name with its characters and their folding. -/
structure Candidate where
  name : String
  characters : List Char
  folded : List Char
  deriving Repr, DecidableEq

def Candidate.ofName (name : String) : Candidate :=
  ⟨name, name.toList, foldChars name.toList⟩

/-- The longest of some candidates; of those of one length the first. -/
def longest? : List Candidate → Option Candidate
  | [] => none
  | candidate :: rest =>
    match longest? rest with
    | some other =>
      if candidate.characters.length < other.characters.length then some other else some candidate
    | none => some candidate

/-- Whether a name stands at the start of a text: as many characters have its folding, and a name that
ends like a word is not followed by more of a word. -/
def Candidate.startsAt (candidate : Candidate) (text : List Char) : Bool :=
  let count := candidate.characters.length
  foldChars (text.take count) == candidate.folded &&
    !(candidate.characters.getLast?.any isWord && (text.drop count).head?.any isWord)

def findName? (candidates : List Candidate) (text : List Char) : Option Candidate :=
  longest? (candidates.filter fun candidate => candidate.startsAt text)

/-- The longest candidate whose characters a text starts with. -/
def findSymbol? (candidates : List Candidate) (text : List Char) : Option Candidate :=
  longest? (candidates.filter fun candidate => candidate.characters.isPrefixOf text)

structure Reader (α : Type) where
  registry : Registry α
  settings : Settings
  source : String
  /-- Functions and operators. -/
  names : List Candidate
  /-- Names of values that do not start like an identifier. -/
  symbols : List Candidate

def Reader.of (registry : Registry α) (settings : Settings) (source : String) : Reader α where
  registry := registry
  settings := settings
  source := source
  names := registry.functionNames.map Candidate.ofName
  symbols :=
    (registry.valueNames.filter fun name => !name.toList.head?.any isWord).map Candidate.ofName

def Reader.error (reader : Reader α) (message : String) (position : Nat) : Fault :=
  .described ⟨.invalidExpression, message, some position, some reader.source⟩

/-- Whether a lexeme is an operator behind its operand. -/
def isPostfix (registry : Registry α) : Lexeme α → Bool
  | .unaryOperator name => (registry.getUnary? name).any fun operator => operator.placement == .after
  | _ => false

def endsValue (registry : Registry α) (lexeme : Lexeme α) : Bool :=
  match lexeme with
  | .number _ | .identifier _ | .closeGroup _ => true
  | _ => isPostfix registry lexeme

/-- What a registered name stands for, given the lexeme before it. A name of two operators is binary
behind a value. -/
def classify (registry : Registry α) (previous : Option (Lexeme α)) (name : String) : Lexeme α :=
  if (registry.getFunction? name).isSome then .functionCall name
  else if (registry.getUnary? name).isSome then
    if (registry.getBinary? name).isSome && previous.any (endsValue registry) then
      .binaryOperator name
    else .unaryOperator name
  else .binaryOperator name

/-- Whether a product sign is left out between two lexemes. -/
def isProduct (registry : Registry α) (left right : Lexeme α) : Bool :=
  match left, right with
  | .number _, .identifier _ | .number _, .openGroup _ | .number _, .functionCall _ => true
  | .closeGroup _, .number _ | .closeGroup _, .identifier _ | .closeGroup _, .openGroup _
  | .closeGroup _, .functionCall _ => true
  | left, .identifier _ | left, .openGroup _ | left, .functionCall _ => isPostfix registry left
  | _, _ => false

def productSign : String := "*"

/-- One step of the scan: the lexeme read, if it is no blank, and how many characters it takes. -/
structure Step (α : Type) where
  lexeme : Option (Lexeme α)
  length : Nat

def identifier : List Char → List Char
  | c :: rest => if isWordStart c then c :: rest.takeWhile isWord else []
  | [] => []

def symbolLexeme? (settings : Settings) (c : Char) : Option (Lexeme α) :=
  let text := String.singleton c
  if (settings.closerOf? c).isSome then some (.openGroup text)
  else if (settings.openerOf? c).isSome then some (.closeGroup text)
  else if settings.separator = c then some (.separator text)
  else none

def readLiteral (reader : Reader α) (literal : List Char) (position : Nat) : Outcome α :=
  match reader.registry.system.parse literal with
  | .ok value => .ok value
  | .error fault =>
    match fault with
    | .described _ | .mistyped | .missing | .foreign _ => .error fault
    | _ => .error (reader.error ("Invalid number '" ++ String.ofList literal ++ "'") position)

/-- Reads a name, an identifier or a symbolic name of a value. -/
def stepName (reader : Reader α) (previous : Option (Lexeme α)) (text : List Char) (c : Char)
    (position : Nat) : Outcome (Step α) :=
  match findName? reader.names text with
  | some candidate =>
    .ok ⟨some (classify reader.registry previous candidate.name), candidate.characters.length⟩
  | none =>
    match identifier text with
    | [] =>
      match findSymbol? reader.symbols text with
      | some symbol => .ok ⟨some (.identifier symbol.name), symbol.characters.length⟩
      | none =>
        .error (reader.error ("Unexpected character '" ++ String.singleton c ++ "'") position)
    | name => .ok ⟨some (.identifier (String.ofList name)), name.length⟩

/-- Reads one token or skips a blank. -/
def step (reader : Reader α) (previous : Option (Lexeme α)) (c : Char) (following : List Char)
    (position : Nat) : Outcome (Step α) := do
  let text := c :: following
  if isBlank c then return ⟨none, 1⟩
  match (reader.registry.system.literals.span text).1 with
  | [] =>
    match symbolLexeme? reader.settings c with
    | some lexeme => return ⟨some lexeme, 1⟩
    | none => stepName reader previous text c position
  | literal => return ⟨some (.number (← readLiteral reader literal position)), literal.length⟩

/-- Adds a token, and the product sign before it if that is left out. Tokens are kept from the last to
the first. -/
def emit (reader : Reader α) (tokens : List (Token α)) (lexeme : Lexeme α) (position : Nat) :
    List (Token α) :=
  let product := reader.settings.implicitProduct &&
    tokens.head?.any fun last => isProduct reader.registry last.lexeme lexeme
  if product then
    ⟨lexeme, position⟩ :: ⟨.binaryOperator productSign, position⟩ :: tokens
  else ⟨lexeme, position⟩ :: tokens

/-- Scans the rest of a text. Every step makes it shorter, so its length bounds their number. -/
def scanRest (reader : Reader α) : Nat → List Char → Nat → List (Token α) → Outcome (List (Token α))
  | _, [], _, tokens => .ok tokens.reverse
  | 0, _ :: _, _, tokens => .ok tokens.reverse
  | fuel + 1, c :: following, position, tokens => do
    let next ← step reader (tokens.head?.map Token.lexeme) c following position
    let tokens := match next.lexeme with
      | some lexeme => emit reader tokens lexeme position
      | none => tokens
    scanRest reader fuel ((c :: following).drop next.length) (position + next.length) tokens

end Scan

/-- The tokens of a source, with other settings than those of the registry if asked for. -/
def tokenize {α : Type} (registry : Registry α) (source : String) (settings : Settings) :
    Outcome (List (Token α)) :=
  let text := source.toList
  if text.all isBlank then
    .error (.described ⟨.emptyExpression, "Expression is empty", some 0, some source⟩)
  else Scan.scanRest (Scan.Reader.of registry settings source) text.length text 0 []

end Reckoner

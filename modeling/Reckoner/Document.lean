import Reckoner.Text.Numeral

/-! Structured documents: texts, numbers, lists and tables, and a reader for their flow notation. -/

namespace Reckoner

inductive Document where
  | null
  | bool (value : Bool)
  /-- A number, of which only matters whether it is zero. -/
  | number (isZero : Bool)
  | text (value : String)
  | list (members : List Document)
  | table (entries : List (String × Document))
  deriving Repr

namespace Document

def isVoid : Document → Bool
  | null => true
  | bool value => !value
  | number isZero => isZero
  | text value => value.isEmpty
  | list members => members.isEmpty
  | table entries => entries.isEmpty

/-- The entry of a table; of equal keys the last one counts. -/
def entry? (entries : List (String × Document)) (key : String) : Option Document :=
  (entries.reverse).lookup key

/-- The entries with distinct keys, each in the place of the first one with its last value. -/
def distinctEntries (entries : List (String × Document)) : List (String × Document) :=
  entries.foldl (fun table entry =>
    if table.any fun present => present.1 == entry.1 then
      table.map fun present => if present.1 == entry.1 then entry else present
    else table ++ [entry]) []

/-! ### Reading -/

def isSpace (c : Char) : Bool := c == ' ' || c == '\t' || c == '\n' || c == '\r'

def skipSpaces (text : List Char) : List Char := text.dropWhile isSpace

def isRestVoid (text : List Char) : Bool :=
  let lines := text.splitOn '\n'
  lines.all fun line =>
    match skipSpaces line with
    | [] => true
    | c :: _ => c == '#'

def hexValue? (c : Char) : Option Nat :=
  let code := c.toNat
  if 48 ≤ code ∧ code ≤ 57 then some (code - 48)
  else if 97 ≤ code ∧ code ≤ 102 then some (code - 87)
  else if 65 ≤ code ∧ code ≤ 70 then some (code - 55)
  else none

/-- Four hexadecimal digits and what follows them. -/
def readUnit? : List Char → Option (Nat × List Char)
  | a :: b :: c :: d :: rest => do
    let a ← hexValue? a
    let b ← hexValue? b
    let c ← hexValue? c
    let d ← hexValue? d
    some (((a * 16 + b) * 16 + c) * 16 + d, rest)
  | _ => none

def simpleEscape? : Char → Option Char
  | '"' => some '"'
  | '\\' => some '\\'
  | '/' => some '/'
  | 'b' => some '\x08'
  | 'f' => some '\x0c'
  | 'n' => some '\n'
  | 'r' => some '\r'
  | 't' => some '\t'
  | _ => none

/-- A code unit that is a character, or two that make one up. -/
def readEscapedCode? (text : List Char) : Option (Char × List Char) := do
  let (high, rest) ← readUnit? text
  if 0xd800 ≤ high ∧ high < 0xdc00 then
    match rest with
    | '\\' :: 'u' :: rest =>
      let (low, rest) ← readUnit? rest
      some (Char.ofNat (0x10000 + (high - 0xd800) * 0x400 + (low - 0xdc00)), rest)
    | _ => none
  else some (Char.ofNat high, rest)

/-- The characters up to the closing quote. The number bounds the length. -/
def readQuoted? : Nat → List Char → Option (List Char × List Char)
  | _, '"' :: rest => some ([], rest)
  | fuel + 1, '\\' :: 'u' :: rest => do
    let (c, rest) ← readEscapedCode? rest
    let (others, rest) ← readQuoted? fuel rest
    some (c :: others, rest)
  | fuel + 1, '\\' :: mark :: rest => do
    let c ← simpleEscape? mark
    let (others, rest) ← readQuoted? fuel rest
    some (c :: others, rest)
  | fuel + 1, c :: rest => do
    let (others, rest) ← readQuoted? fuel rest
    some (c :: others, rest)
  | _, _ => none

def isWordCharacter (c : Char) : Bool := c.isAlphanum || c == '-' || c == '+' || c == '.'

/-- Whether a word is a number: digits, or digits with a point, and an exponent only behind a point and
with its sign. -/
def isNumber (word : List Char) : Bool :=
  let word := if word.head? = some '-' then word.drop 1 else word
  !(word.takeWhile Char.isDigit).isEmpty &&
    match word.dropWhile Char.isDigit with
    | [] => true
    | '.' :: rest =>
      match rest.dropWhile Char.isDigit with
      | [] => true
      | mark :: sign :: digits =>
        (mark == 'e' || mark == 'E') && (sign == '+' || sign == '-') && !digits.isEmpty &&
          digits.all Char.isDigit
      | _ => false
    | _ => false

def ofWord (word : List Char) : Document :=
  match String.ofList word with
  | "null" => null
  | "true" => bool true
  | "false" => bool false
  | other =>
    if isNumber word then
      number ((word.takeWhile fun c => c != 'e' && c != 'E').all fun c => c == '0' || !c.isDigit)
    else text other

mutual

def readValue? : Nat → List Char → Option (Document × List Char)
  | 0, _ => none
  | fuel + 1, source =>
    match skipSpaces source with
    | '"' :: rest => do
      let (characters, rest) ← readQuoted? rest.length rest
      some (text (String.ofList characters), rest)
    | '[' :: rest =>
      match skipSpaces rest with
      | ']' :: rest => some (list [], rest)
      | rest => do
        let (members, rest) ← readMembers? fuel rest
        some (list members, rest)
    | '{' :: rest =>
      match skipSpaces rest with
      | '}' :: rest => some (table [], rest)
      | rest => do
        let (entries, rest) ← readEntries? fuel rest
        some (table (distinctEntries entries), rest)
    | rest =>
      let word := rest.takeWhile isWordCharacter
      if word.isEmpty then none else some (ofWord word, rest.dropWhile isWordCharacter)

def readMembers? : Nat → List Char → Option (List Document × List Char)
  | 0, _ => none
  | fuel + 1, source => do
    let (member, rest) ← readValue? fuel source
    match skipSpaces rest with
    | ',' :: rest => do
      let (members, rest) ← readMembers? fuel rest
      some (member :: members, rest)
    | ']' :: rest => some ([member], rest)
    | _ => none

def readEntries? : Nat → List Char → Option (List (String × Document) × List Char)
  | 0, _ => none
  | fuel + 1, source => do
    let (key, rest) ← readValue? fuel source
    let .text key := key | none
    match skipSpaces rest with
    | ':' :: rest => do
      let (value, rest) ← readValue? fuel rest
      match skipSpaces rest with
      | ',' :: rest => do
        let (entries, rest) ← readEntries? fuel rest
        some ((key, value) :: entries, rest)
      | '}' :: rest => some ([(key, value)], rest)
      | _ => none
    | _ => none

end

/-- Reads a whole text; one of blanks and comments has nothing in it. -/
def read? (text : List Char) : Option Document :=
  if isRestVoid text then some null
  else
    match readValue? (2 * text.length + 2) text with
    | some (document, rest) => if isRestVoid rest then some document else none
    | none => none

end Document

end Reckoner

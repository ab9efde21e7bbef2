import Reckoner.Document
import Reckoner.Flaw
import Reckoner.Vocabulary.Basic

/-! Vocabularies from documents. -/

namespace Reckoner.Vocabulary

inductive LoadError where
  | noFile (path : String)
  | nothingRead (path : String)
  /-- The text is no document. -/
  | unreadable
  /-- The document is no table. -/
  | notTable
  | flawed (flaws : List FieldFlaw)
  deriving Repr, DecidableEq

def LoadError.message : LoadError → String
  | noFile path => "Math vocabulary not found: " ++ path
  | nothingRead path => "Empty or invalid YAML in " ++ path
  | unreadable | notTable | flawed _ => ""

/-- The members of a list of texts, and the members that are none. -/
def checkAliases (path : List String) : Nat → List Document → List String × List FieldFlaw
  | _, [] => ([], [])
  | index, member :: rest =>
    let (aliases, flaws) := checkAliases path (index + 1) rest
    match member with
    | .text name => (name :: aliases, flaws)
    | _ => (aliases, ⟨path ++ [toString index], .notText⟩ :: flaws)

/-- The aliases of an entry; they may be left out. -/
def aliasesOf (path : List String) : Option Document → List String × List FieldFlaw
  | none => ([], [])
  | some (.list members) => checkAliases path 0 members
  | some _ => ([], [⟨path, .notList⟩])

/-- The description of an entry; it may be left out or empty. -/
def descriptionOf (path : List String) : Option Document → Option String × List FieldFlaw
  | none | some .null => (none, [])
  | some (.text description) => (some description, [])
  | some _ => (none, [⟨path, .notText⟩])

def entryOf (path : List String) : Document → VocabularyEntry × List FieldFlaw
  | .table fields =>
    let (aliases, aliasFlaws) := aliasesOf (path ++ ["aliases"]) (Document.entry? fields "aliases")
    let (description, descriptionFlaws) :=
      descriptionOf (path ++ ["description"]) (Document.entry? fields "description")
    (⟨aliases, description⟩, aliasFlaws ++ descriptionFlaws)
  | _ => (⟨[], none⟩, [⟨path, .notEntry⟩])

def entriesOf (path : List String) :
    List (String × Document) → Table VocabularyEntry × List FieldFlaw
  | [] => ([], [])
  | (name, document) :: rest =>
    let (entry, flaws) := entryOf (path ++ [name]) document
    let (entries, others) := entriesOf path rest
    ((name, entry) :: entries, flaws ++ others)

def sectionOf (fields : List (String × Document)) (name : String) :
    Table VocabularyEntry × List FieldFlaw :=
  match Document.entry? fields name with
  | none => ([], [])
  | some (.table entries) => entriesOf [name] entries
  | some _ => ([], [⟨[name], .notTable⟩])

/-- A vocabulary from a table with the three sections; other fields do not count. -/
def ofTable (fields : List (String × Document)) : Checked Vocabulary :=
  let (binary, flaws₁) := sectionOf fields "binary"
  let (unary, flaws₂) := sectionOf fields "unary"
  let (functions, flaws₃) := sectionOf fields "functions"
  let flaws := flaws₁ ++ flaws₂ ++ flaws₃
  if flaws.isEmpty then .ok ⟨binary, unary, functions⟩ else .error flaws

/-- The vocabulary in the text of a file, if the file exists. -/
def load (path : String) (file : Option String) : Except LoadError Vocabulary :=
  match file with
  | none => .error (.noFile path)
  | some text =>
    match Document.read? text.toList with
    | none => .error .unreadable
    | some document =>
      if document.isVoid then .error (.nothingRead path)
      else
        match document with
        | .table fields => (ofTable fields).mapError .flawed
        | _ => .error .notTable

end Reckoner.Vocabulary

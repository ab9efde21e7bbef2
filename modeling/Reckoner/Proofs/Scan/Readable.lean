import Reckoner.Proofs.Scan.Identifiers
import Mathlib.Data.List.TakeWhile

/-! Names as sources of their own. A name is read as one token that stands for its entry exactly if its
first character is no symbol of the settings and all of it is read at once: the name of a value as a
word, or as a listed symbolic name, where no name of a function or an operator stands; and the name of a
function or an operator as a listed spelling that is no shorter. -/

namespace Reckoner

open Reckoner.Unicode

variable {α : Type}

theorem Name.first_of_check {name : String} (passes : check name = .ok ()) :
    ∀ c ∈ name.toList.head?, isDecimalDigit c = false ∧ c ≠ '.' := by
  unfold check at passes
  split at passes
  · cases passes
  · rename_i first rest same
    split at passes
    · cases passes
    · rename_i allowed
      simp only [isDigitSign, Bool.or_eq_true, beq_iff_eq, not_or, Bool.not_eq_true] at allowed
      intro c head
      rw [same] at head
      cases head
      exact ⟨allowed.1.1, allowed.2⟩

namespace Registry

open Scan

/-- The value that an identifier stands for. -/
def getValue? (registry : Registry α) (name : String) : Option α :=
  (registry.getVariable? name).or (registry.getConstant? name)

/-- Whether a lexeme at the start of a source stands for an entry. A symbol of two operators is that of the
unary one there. -/
def Refers (registry : Registry α) (lexeme : Lexeme α) : Entry α → Prop
  | .constant value | .binding value =>
    ∃ name, lexeme = .identifier name ∧ registry.getValue? name = some value
  | .function function =>
    ∃ name, lexeme = .functionCall name ∧ registry.getFunction? name = some function
  | .unary operator =>
    ∃ name, lexeme = .unaryOperator name ∧ registry.getUnary? name = some operator
  | .binary operator =>
    ∃ name, (lexeme = .binaryOperator name ∨
        lexeme = .unaryOperator name ∧ (registry.getUnary? name).isSome = true) ∧
      registry.getBinary? name = some operator

/-- Whether the name of a value is read where it is all of a text: no name of a function or an operator
stands there, and it is a word, or a listed name that does not start like one. -/
def ReadsValue (registry : Registry α) (name : String) : Prop :=
  (∀ other ∈ registry.functionNames, ¬ Stands other name.toList) ∧
    ((∀ c ∈ name.toList, isWord c = true) ∨
      (∀ c ∈ name.toList.head?, isWord c = false) ∧ name ∈ registry.valueNames)

/-- Whether the name of a function or an operator is read where it is all of a text: the listed name with
its folding is no shorter. -/
def ReadsCallable (registry : Registry α) (name : String) : Prop :=
  ∃ spelled ∈ registry.functionNames, fold spelled = fold name ∧ name.length ≤ spelled.length

/-- Whether a name is read as what it stands for where it is all of a source. -/
def Readable (registry : Registry α) (settings : Settings) (name : String) (entry : Entry α) : Prop :=
  (∀ c ∈ name.toList.head?, ¬ settings.Reserves c) ∧
    match entry with
    | .constant _ | .binding _ => registry.ReadsValue name
    | .function _ | .unary _ | .binary _ => registry.ReadsCallable name

end Registry

namespace Scan

/-! ### Names as texts -/

theorem symbolLexeme?_eq_none_iff {settings : Settings} {c : Char} :
    symbolLexeme? (α := α) settings c = none ↔ ¬ settings.Reserves c := by
  rw [Settings.reserves_iff]
  unfold symbolLexeme?
  grind

variable {reader : Reader α} {name other : String} {lexeme : Lexeme α} {count : Nat}

theorem plain_iff_of_check (passes : Name.check name = .ok ()) :
    reader.Plain name.toList ↔ ∀ c ∈ name.toList.head?, ¬ reader.settings.Reserves c := by
  have first := Name.first_of_check passes
  obtain ⟨c, rest, same⟩ := List.exists_cons_of_ne_nil (Name.of_check passes).1
  rw [same] at first ⊢
  obtain ⟨digit, point⟩ := first c rfl
  constructor
  · intro plain d head
    exact symbolLexeme?_eq_none_iff.mp (plain.2 d head)
  · intro free
    refine ⟨literal_eq_nil digit point rest, ?_⟩
    intro d head
    exact symbolLexeme?_eq_none_iff.mpr (free d head)

/-- A name that is no shorter than a text stands there exactly if the text has its folding. -/
theorem stands_whole_iff (whole : name.length ≤ other.length) :
    Stands other name.toList ↔ fold other = fold name := by
  have length : name.toList.length ≤ other.length := whole
  rw [Stands, List.take_of_length_le length, List.drop_of_length_le length, fold_eq_iff, eq_comm]
  simp

theorem longest?_of_mem {candidates : List Candidate} {candidate : Candidate}
    (member : candidate ∈ candidates) :
    ∃ found, longest? candidates = some found ∧
      candidate.characters.length ≤ found.characters.length := by
  cases most : longest? candidates with
  | none => simp [longest?_eq_none_iff.mp most] at member
  | some found => exact ⟨found, rfl, (longest?_eq_some most).2 candidate member⟩

theorem findName?_of_stands {candidates : List Candidate} {text : List Char}
    (member : .ofName other ∈ candidates) (stands : Stands other text) :
    ∃ found, findName? candidates text = some found ∧ other.length ≤ found.characters.length := by
  have standing : .ofName other ∈ candidates.filter (·.startsAt text) :=
    List.mem_filter.mpr ⟨member, startsAt_ofName_iff.mpr stands⟩
  obtain ⟨found, longest, most⟩ := longest?_of_mem standing
  rw [Candidate.ofName, String.length_toList] at most
  exact ⟨found, longest, most⟩

theorem findSymbol?_of_mem {candidates : List Candidate} (member : .ofName name ∈ candidates) :
    ∃ found, findSymbol? candidates name.toList = some found ∧
      name.length ≤ found.characters.length := by
  have starting : .ofName name ∈ candidates.filter (·.characters.isPrefixOf name.toList) :=
    List.mem_filter.mpr ⟨member, List.isPrefixOf_iff_prefix.mpr (List.prefix_refl _)⟩
  obtain ⟨found, longest, most⟩ := longest?_of_mem starting
  rw [Candidate.ofName, String.length_toList] at most
  exact ⟨found, longest, most⟩

theorem identifier_of_word (passes : Name.check name = .ok ())
    (word : ∀ c ∈ name.toList, isWord c = true) : identifier name.toList = name.toList := by
  have first := Name.first_of_check passes
  obtain ⟨c, rest, same⟩ := List.exists_cons_of_ne_nil (Name.of_check passes).1
  rw [same] at first word ⊢
  obtain ⟨start, others⟩ := List.forall_mem_cons.mp word
  rw [identifier, if_pos (by simp [isWordStart, start, (first c rfl).1]),
    List.takeWhile_eq_self_iff.mpr others]

theorem identifier_of_noWord {text : List Char} (noWord : ∀ c ∈ text.head?, isWord c = false) :
    identifier text = [] := by
  cases text with
  | nil => rfl
  | cons c rest => simp [identifier, isWordStart, noWord c rfl]

/-! ### Names that are read whole -/

section Whole

variable {registry : Registry α} {settings : Settings} {source : String}

/-- Whether all of a name is read as a lexeme. -/
def Reader.ReadsWhole (reader : Reader α) (name : String) (lexeme : Lexeme α) : Prop :=
  ∃ count, name.length ≤ count ∧ reader.Reads none name.toList lexeme count

theorem eq_of_starts {characters : List Char} (starts : characters <+: name.toList)
    (whole : name.length ≤ characters.length) : characters = name.toList :=
  starts.eq_of_length_le (by rwa [String.length_toList])

/-- A checked name is read whole as an identifier exactly as the name of a value. -/
theorem readsWhole_identifier_iff (passes : Name.check name = .ok ()) {text : String} :
    (Reader.of registry settings source).ReadsWhole name (.identifier text) ↔
      name = text ∧ (∀ c ∈ name.toList.head?, ¬ settings.Reserves c) ∧ registry.ReadsValue name := by
  constructor
  · rintro ⟨count, whole, reads⟩
    obtain ⟨plain, unnamed, spelled⟩ := reads.identifier_cases
    have free : ∀ c ∈ name.toList.head?, ¬ settings.Reserves c := (plain_iff_of_check passes).mp plain
    have absent : ∀ other ∈ registry.functionNames, ¬ Stands other name.toList := by
      intro other listed stands
      have missing := findName?_eq_none unnamed _ (Reader.mem_names_of.mpr listed)
      cases missing.symm.trans (startsAt_ofName_iff.mpr stands)
    rcases spelled with ⟨_, rfl, rfl⟩ | ⟨symbol, found, rfl, rfl⟩
    · have all := eq_of_starts (identifier_starts name.toList) whole
      refine ⟨by rw [all, String.ofList_toList], free, absent, .inl ?_⟩
      intro c member
      exact isWord_of_mem_identifier (all.symm ▸ member)
    · obtain ⟨listed, starts, _⟩ := findSymbol?_eq_some found
      have all := eq_of_starts starts whole
      obtain ⟨value, member, rfl⟩ := List.mem_map.mp listed
      obtain rfl : value = name := String.toList_injective all
      obtain ⟨known, noWord⟩ := List.mem_filter.mp member
      refine ⟨rfl, free, absent, .inr ⟨?_, known⟩⟩
      simpa [Option.any_eq_false] using noWord
  · rintro ⟨rfl, free, absent, value⟩
    have plain : (Reader.of registry settings source).Plain name.toList :=
      (plain_iff_of_check passes).mpr free
    have unnamed : findName? (Reader.of registry settings source).names name.toList = none := by
      cases found : findName? (Reader.of registry settings source).names name.toList with
      | none => rfl
      | some candidate =>
        obtain ⟨listed, stands, _⟩ := findName?_eq_some found
        obtain ⟨other, member, rfl⟩ := List.mem_map.mp listed
        exact absurd (startsAt_ofName_iff.mp stands) (absent other member)
    rcases value with word | ⟨noWord, known⟩
    · have all := identifier_of_word passes word
      have some : identifier name.toList ≠ [] := by
        rw [all]
        exact (Name.of_check passes).1
      have reads : (Reader.of registry settings source).Reads none name.toList _ _ :=
        .identifier plain unnamed some
      rw [all, String.ofList_toList] at reads
      exact ⟨_, Nat.le_of_eq String.length_toList.symm, reads⟩
    · have listed : .ofName name ∈ (Reader.of registry settings source).symbols :=
        List.mem_map_of_mem (List.mem_filter.mpr ⟨known, by simpa [Option.any_eq_false] using noWord⟩)
      obtain ⟨found, longest, whole⟩ := findSymbol?_of_mem listed
      obtain ⟨among, starts, _⟩ := findSymbol?_eq_some longest
      have all := eq_of_starts starts whole
      obtain ⟨value, _, rfl⟩ := List.mem_map.mp among
      obtain rfl : name = value := String.toList_injective all.symm
      exact ⟨_, whole, .symbolic plain unnamed (identifier_of_noWord noWord) longest⟩

/-- A checked name is read whole as the name of a function or an operator exactly as a listed one with its
folding that is no shorter. -/
theorem readsWhole_called_iff (apart : registry.NamesApart) (passes : Name.check name = .ok ())
    {lexeme : Lexeme α} :
    (Reader.of registry settings source).ReadsWhole name lexeme ∧ lexeme.called?.isSome = true ↔
      (∀ c ∈ name.toList.head?, ¬ settings.Reserves c) ∧ ∃ spelled ∈ registry.functionNames,
        fold spelled = fold name ∧ name.length ≤ spelled.length ∧
          lexeme = classify registry none spelled := by
  constructor
  · rintro ⟨⟨count, whole, reads⟩, called⟩
    cases reads with
    | number => cases called
    | symbol _ _ found =>
      rw [symbolLexeme?_called? found] at called
      cases called
    | name plain found =>
      obtain ⟨listed, stands, _⟩ := findName?_eq_some found
      obtain ⟨spelled, member, rfl⟩ := List.mem_map.mp listed
      rw [Candidate.ofName, String.length_toList] at whole
      have same := (stands_whole_iff whole).mp (startsAt_ofName_iff.mp stands)
      exact ⟨(plain_iff_of_check passes).mp plain, spelled, member, same, whole, rfl⟩
    | identifier => cases called
    | symbolic => cases called
  · rintro ⟨free, spelled, member, same, whole, rfl⟩
    refine ⟨?_, by rw [classify_called?]; rfl⟩
    have plain : (Reader.of registry settings source).Plain name.toList :=
      (plain_iff_of_check passes).mpr free
    have listed : .ofName spelled ∈ (Reader.of registry settings source).names :=
      Reader.mem_names_of.mpr member
    obtain ⟨found, longest, most⟩ := findName?_of_stands listed ((stands_whole_iff whole).mpr same)
    obtain ⟨among, stands, _⟩ := findName?_eq_some longest
    obtain ⟨other, known, rfl⟩ := List.mem_map.mp among
    rw [Candidate.ofName, String.length_toList] at most
    have folding := (stands_whole_iff (Nat.le_trans whole most)).mp (startsAt_ofName_iff.mp stands)
    obtain rfl := apart.eq_of_fold known member (folding.trans same.symm)
    have reads : (Reader.of registry settings source).Reads none name.toList _ _ := .name plain longest
    rw [Candidate.ofName, String.length_toList] at reads
    exact ⟨_, whole, reads⟩

/-- A source that is a checked name has a single token exactly if all of the name is read as its lexeme. -/
theorem tokenize_eq_singleton_iff (named : registry.WellNamed) (passes : Name.check name = .ok ())
    {token : Token α} :
    tokenize registry name settings = .ok [token] ↔
      token.position = 0 ∧ (Reader.of registry settings name).ReadsWhole name token.lexeme := by
  obtain ⟨some, unblank⟩ := Name.of_check passes
  rw [tokenize_eq_ok_iff named]
  constructor
  · rintro ⟨slices, tail, nonempty, whole, behind, sliced, same⟩
    obtain ⟨slice, rest, rfl⟩ := List.exists_cons_of_ne_nil nonempty
    obtain ⟨cuts, others⟩ := sliced
    cases rest with
    | cons next more => simp [tokensOf, signsOf] at same
    | nil =>
      rw [whole, textOf, List.forall_mem_append, List.forall_mem_append] at unblank
      have noBlanks : slice.blanks = [] := by
        apply List.eq_nil_iff_forall_not_mem.mpr
        intro c member
        cases (unblank.1 c member).symm.trans (cuts.blank c member)
      have noTail : tail = [] := by
        apply List.eq_nil_iff_forall_not_mem.mpr
        intro c member
        cases (unblank.2.2 c member).symm.trans (behind c member)
      subst noTail
      have all : name.toList = slice.characters := by simpa [textOf, noBlanks] using whole
      obtain ⟨count, reads, taken⟩ := cuts.reads
      simp only [tokensOf, signsOf, noBlanks, Option.any_none, Bool.and_false] at same
      cases same
      rw [textOf, List.append_nil, ← all] at reads taken
      refine ⟨rfl, count, ?_, reads⟩
      have lengths := congrArg List.length taken
      rw [List.length_take, String.length_toList] at lengths
      omega
  · obtain ⟨lexeme, position⟩ := token
    rintro ⟨rfl, count, whole, reads⟩
    have taken : name.toList.take count = name.toList :=
      List.take_of_length_le (by rwa [String.length_toList])
    refine ⟨[⟨[], name.toList, lexeme⟩], [], List.cons_ne_nil _ _, ?_, List.forall_mem_nil _,
      ⟨⟨List.forall_mem_nil _, ⟨some, unblank⟩, count, ?_, ?_⟩, trivial⟩, ?_⟩
    · simp [textOf]
    · simpa [textOf] using reads
    · simpa [textOf] using taken
    · simp [tokensOf, signsOf]

end Whole

end Scan

/-! ### Names of a registry -/

namespace Registry

open Scan

variable {registry : Registry α} {settings : Settings} {name : String}

theorem NamesApart.getValue?_of_has (apart : registry.NamesApart) {value : α}
    (has : registry.Has name (.constant value) ∨ registry.Has name (.binding value)) :
    registry.getValue? name = some value := by
  unfold getValue?
  rcases has with constant | binding
  · have unset : registry.getVariable? name = none := by
      rw [← Option.not_isSome_iff_eq_none, getVariable?_isSome_iff]
      intro member
      refine apart.constant_variable name member (getConstant?_isSome_iff.mp ?_)
      exact Option.isSome_iff_exists.mpr ⟨value, constant⟩
    rw [unset, Option.none_or]
    exact constant
  · have set : registry.getVariable? name = some value := binding
    rw [set, Option.some_or]

/-- A name of a value is read as its entry exactly if it is read whole as an identifier. -/
theorem refers_value_iff (passes : Name.check name = .ok ()) {value : α}
    (known : registry.getValue? name = some value) :
    (∃ lexeme, (Reader.of registry settings name).ReadsWhole name lexeme ∧
      ∃ text, lexeme = .identifier text ∧ registry.getValue? text = some value) ↔
    (∀ c ∈ name.toList.head?, ¬ settings.Reserves c) ∧ registry.ReadsValue name := by
  constructor
  · rintro ⟨_, reads, text, rfl, _⟩
    exact ((readsWhole_identifier_iff passes).mp reads).2
  · intro readable
    exact ⟨_, (readsWhole_identifier_iff passes).mpr ⟨rfl, readable⟩, name, rfl, known⟩

/-- A name of a function or an operator is read as its entry exactly if it is read whole as one, where
every spelling of it stands for the entry. -/
theorem NamesApart.refers_callable_iff (apart : registry.NamesApart)
    (passes : Name.check name = .ok ()) {refers : Lexeme α → Prop}
    (called : ∀ lexeme, refers lexeme → lexeme.called?.isSome = true)
    (classified : ∀ spelled, fold spelled = fold name → refers (classify registry none spelled)) :
    (∃ lexeme, (Reader.of registry settings name).ReadsWhole name lexeme ∧ refers lexeme) ↔
    (∀ c ∈ name.toList.head?, ¬ settings.Reserves c) ∧ registry.ReadsCallable name := by
  constructor
  · rintro ⟨lexeme, reads, holds⟩
    obtain ⟨free, spelled, member, same, whole, _⟩ :=
      (readsWhole_called_iff apart passes).mp ⟨reads, called lexeme holds⟩
    exact ⟨free, spelled, member, same, whole⟩
  · rintro ⟨free, spelled, member, same, whole⟩
    obtain ⟨reads, _⟩ :=
      (readsWhole_called_iff apart passes).mpr ⟨free, spelled, member, same, whole, rfl⟩
    exact ⟨_, reads, classified spelled same⟩

/-- A checked name is read whole as a lexeme that stands for its entry exactly if it is readable. -/
theorem NamesApart.refers_iff (apart : registry.NamesApart) (passes : Name.check name = .ok ())
    {entry : Entry α} (has : registry.Has name entry) :
    (∃ lexeme, (Reader.of registry settings name).ReadsWhole name lexeme ∧
      registry.Refers lexeme entry) ↔ registry.Readable settings name entry := by
  cases entry with
  | constant value => exact refers_value_iff passes (apart.getValue?_of_has (.inl has))
  | binding value => exact refers_value_iff passes (apart.getValue?_of_has (.inr has))
  | function function =>
    refine apart.refers_callable_iff passes ?_ ?_
    · rintro _ ⟨text, rfl, _⟩
      rfl
    · intro spelled same
      have found : registry.getFunction? spelled = some function := (getFunction?_congr same).trans has
      exact ⟨spelled, by simp [classify, found], found⟩
  | unary operator =>
    refine apart.refers_callable_iff passes ?_ ?_
    · rintro _ ⟨text, rfl, _⟩
      rfl
    · intro spelled same
      have found : registry.getUnary? spelled = some operator := (getUnary?_congr same).trans has
      have other := apart.getFunction?_of_operator (.inl (Option.isSome_iff_exists.mpr ⟨_, found⟩))
      exact ⟨spelled, by simp [classify, found, other], found⟩
  | binary operator =>
    refine apart.refers_callable_iff passes ?_ ?_
    · rintro _ ⟨text, rfl | ⟨rfl, _⟩, _⟩
      · rfl
      · rfl
    · intro spelled same
      have found : registry.getBinary? spelled = some operator := (getBinary?_congr same).trans has
      have other := apart.getFunction?_of_operator (.inr (Option.isSome_iff_exists.mpr ⟨_, found⟩))
      refine ⟨spelled, ?_, found⟩
      cases unary : registry.getUnary? spelled with
      | none => exact .inl (by simp [classify, unary, other])
      | some shared => exact .inr ⟨by simp [classify, unary, other], rfl⟩

end Registry

open Scan

/-- A name that something was registered under passes the check and stands for it. After any calls with
checked functions and operators, such a name alone is a source with a single token that stands for its
entry exactly if it is readable. -/
theorem tokenize_name_iff (system : NumberSystem α) (standard settings : Settings)
    {calls : List (Registry.Call α)} (checked : ∀ call ∈ calls, call.Checked) :
    let registry := Registry.afterCalls system standard calls
    (∀ (before next : Registry α) call name entry, call.Checked →
      before.Registers next call name entry → Name.check name = .ok () ∧ next.Has name entry) ∧
    ∀ name entry, Name.check name = .ok () → registry.Has name entry →
      ((∃ token, tokenize registry name settings = .ok [token] ∧
          registry.Refers token.lexeme entry) ↔ registry.Readable settings name entry) := by
  intro registry
  have named : registry.WellNamed := .afterCalls system standard checked
  have apart : registry.NamesApart := Registry.namesApart_afterCalls system standard calls
  constructor
  · intro before next call name entry flawless registers
    exact ⟨registers.check flawless, registers.has⟩
  · intro name entry passes has
    rw [← apart.refers_iff passes has]
    constructor
    · rintro ⟨token, scanned, refers⟩
      exact ⟨token.lexeme, ((tokenize_eq_singleton_iff named passes).mp scanned).2, refers⟩
    · rintro ⟨lexeme, reads, refers⟩
      exact ⟨⟨lexeme, 0⟩, (tokenize_eq_singleton_iff named passes).mpr ⟨rfl, reads⟩, refers⟩

set_option maxRecDepth 4000 in
/-- An operator is registered under its name, which alone is read as the operator. -/
theorem tokenize_name_sample :
    let system := NumberSystem.Integer.system ⟨none⟩
    let operator : BinaryOperator Int := ⟨⟨"floor", [], none⟩, Precedence.low, .left, fun x _ => .ok x⟩
    let call : Registry.Call Int := .addBinary operator
    let registry := Registry.afterCalls system Settings.standard [call]
    call.Checked ∧
    (Registry.empty system Settings.standard).Registers registry call "floor" (.binary operator) ∧
    Name.check "floor" = .ok () ∧ registry.Has "floor" (.binary operator) ∧
    ((∃ token, tokenize registry "floor" Settings.standard = .ok [token] ∧
      registry.Refers token.lexeme (.binary operator)) ↔
      registry.Readable Settings.standard "floor" (.binary operator)) := by
  intro system operator call registry
  have checked : ∀ call ∈ operatorCalls ["floor"], call.Checked :=
    checked_operatorCalls (List.forall_mem_singleton.mpr rfl)
  have flawless : call.Checked := checked call List.mem_cons_self
  have registers : (Registry.empty system Settings.standard).Registers registry call "floor"
      (.binary operator) := .binary rfl List.mem_cons_self
  obtain ⟨registered, readable⟩ := tokenize_name_iff system Settings.standard Settings.standard checked
  obtain ⟨passes, has⟩ := registered _ registry call "floor" (.binary operator) flawless registers
  exact ⟨flawless, registers, passes, has, readable "floor" (.binary operator) passes has⟩

/-- A constant is registered under names that are no single tokens: the scan refuses a word that goes on
with a quote, and it reads a bracket as the symbol of a group. -/
theorem tokenize_constant_refused :
    let system := NumberSystem.Integer.system ⟨none⟩
    let empty := Registry.empty system Settings.standard
    let call (name : String) : Registry.Call Int := .value (.addConstant name (.bool true) false)
    let registry (name : String) := Registry.afterCalls system Settings.standard [call name]
    empty.Registers (registry "x'") (call "x'") "x'" (.constant 1) ∧
    empty.Registers (registry "(") (call "(") "(" (.constant 1) ∧
    tokenize (registry "x'") "x'" Settings.standard = .error (.described
      ⟨.invalidExpression, "Unexpected character '''", some 1, some "x'"⟩) ∧
    tokenize (registry "(") "(" Settings.standard = .ok [⟨.openGroup "(", 0⟩] :=
  ⟨.constant rfl rfl, .constant rfl rfl, rfl, rfl⟩

end Reckoner

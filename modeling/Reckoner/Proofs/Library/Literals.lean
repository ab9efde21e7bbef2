import Reckoner.Evaluation
import Reckoner.Proofs.Library.Signs
import Reckoner.Proofs.Registry.Values
import Reckoner.Proofs.Scan.Readable

/-! Literals as expressions. The value of a literal is the number that is read from it, and with the library
the value of a literal behind a minus is the negation of that number. -/

namespace Reckoner

open Reckoner.Unicode

variable {α : Type}

/-! ### The last literal of a text -/

namespace Scan

variable {reader : Reader α} {text : List Char}

/-- No product sign is left out before a number that is the first token or follows an operator. -/
theorem emit_number {tokens : List (Token α)}
    (operator : ∀ last ∈ tokens.head?, last.lexeme.kind = .unaryOperator) (value : α) (position : Nat) :
    emit reader tokens (.number value) position = ⟨.number value, position⟩ :: tokens := by
  unfold emit
  cases tokens with
  | nil => simp
  | cons last rest =>
    have kind := operator last rfl
    obtain ⟨lexeme, place⟩ := last
    cases lexeme with
    | unaryOperator name => simp [isProduct]
    | _ => cases kind

theorem not_isBlank_of_span {style : LiteralStyle} {c : Char} {following : List Char}
    (whole : (style.span (c :: following)).1 = c :: following) : isBlank c = false := by
  apply LiteralStyle.not_isBlank_of_mem_span
  rw [whole]
  exact List.mem_cons_self

/-- A text that does not start with a blank is scanned from its first character on. -/
theorem tokenize_of_solid {registry : Registry α} {settings : Settings} {c : Char}
    (solid : isBlank c = false) (following : List Char) :
    tokenize registry (String.ofList (c :: following)) settings =
      scanRest (Reader.of registry settings (String.ofList (c :: following))) (following.length + 1)
        (c :: following) 0 [] := by
  rw [tokenize, String.toList_ofList]
  simp only [List.all_cons, solid, Bool.false_and, Bool.false_eq_true, if_false, List.length_cons]

/-- A literal up to the end of a text is its last token, if a number is read from it. -/
theorem scanRest_literal (whole : reader.literal text = text) (some : text ≠ [])
    {tokens : List (Token α)}
    (operator : ∀ last ∈ tokens.head?, last.lexeme.kind = .unaryOperator) (fuel position : Nat) :
    scanRest reader (fuel + 1) text position tokens = (readLiteral reader text position).map
      fun value => (⟨.number value, position⟩ :: tokens).reverse := by
  obtain ⟨c, following, rfl⟩ := List.exists_cons_of_ne_nil some
  have span : (reader.registry.system.literals.span (c :: following)).1 = c :: following := whole
  have solid : isBlank c = false := not_isBlank_of_span span
  unfold scanRest step
  simp only [solid, Bool.false_eq_true, if_false, span]
  cases readLiteral reader (c :: following) position with
  | error fault => rfl
  | ok value =>
    have behind : (c :: following).drop (c :: following).length = [] := List.drop_length
    simp only [bind, Except.bind, pure, Except.pure, emit_number operator, behind, scanRest]
    rfl

theorem scanRest_operator {c : Char} {following : List Char} {name : String}
    (solid : isBlank c = false) (reads : reader.Reads none (c :: following) (.unaryOperator name) 1)
    (fuel : Nat) :
    scanRest reader (fuel + 1) (c :: following) 0 [] =
      scanRest reader fuel following 1 [⟨.unaryOperator name, 0⟩] := by
  rw [scanRest, List.head?_nil, Option.map_none, step_of_reads solid reads]
  simp [bind, Except.bind, emit]

theorem readLiteral_of_unsuitable {literal : List Char} {why : String}
    (refused : reader.registry.system.parse literal = .error (.unsuitable why)) (position : Nat) :
    readLiteral reader literal position =
      .error (reader.error ("Invalid number '" ++ String.ofList literal ++ "'") position) := by
  rw [readLiteral, refused]

end Scan

/-! ### Values of short expressions -/

open Evaluation in
theorem evaluateTokens_prefixed {registry : Registry α} {name : String} {operator : UnaryOperator α}
    (found : registry.getUnary? name = some operator) (before : operator.placement = .before)
    (value : α) (source : Option String) (settings : Settings) :
    evaluateTokens registry [⟨.unaryOperator name, 0⟩, ⟨.number value, 1⟩] source settings =
      Scope.run ⟨registry, settings, source⟩ 0 (operator.run value) := by
  let scope : Scope α := ⟨registry, settings, source⟩
  let waiting : State α := ⟨[], [.operator (.unary operator) 0], true, 0⟩
  let reading : State α := ⟨[value], [.operator (.unary operator) 0], false, 1⟩
  have first : scope.step none ⟨.unaryOperator name, 0⟩ (some ⟨.number value, 1⟩) initial =
      .ok waiting := by
    simp only [scope, Scope.step, Scope.unaryOperator, found, before]
    rfl
  have second : scope.steps none [⟨.unaryOperator name, 0⟩, ⟨.number value, 1⟩] initial =
      .ok reading := by
    rw [Scope.steps, first]
    rfl
  have last : scope.finish reading = scope.run 0 (operator.run value) := by
    simp only [Scope.finish, Scope.reduceState, Scope.reduce, Scope.apply, reading]
    cases scope.run 0 (operator.run value) with
    | error fault => rfl
    | ok result => rfl
  rw [← last]
  exact congrArg (· >>= scope.finish) second

namespace Library

open Scan Evaluation

variable {draws : Draws} {system : NumberSystem α} {settings : Settings} {library : Registry α}
  (installed : withLibrary draws system settings = .ok library)

include installed

theorem namesApart_of_withLibrary : library.NamesApart := by
  rw [← install_of_withLibrary installed]
  exact Registry.namesApart_afterCalls system settings [.install draws Vocabulary.standard]

/-! ### The minus -/

theorem getUnary?_minus : ∃ operator, library.getUnary? "-" = some operator ∧
    operator.placement = .before ∧ operator.run = system.neg := by
  obtain ⟨base, based, rows⟩ := getUnary?_of_withLibrary installed
  obtain ⟨zero, _, rest⟩ := bind_eq_ok.mp based
  obtain ⟨one, _, same⟩ := bind_eq_ok.mp rest
  cases same
  exact ⟨_, rows ⟨"-", .before, Precedence.medium, system.neg⟩ (by simp [unaryRows]), rfl, rfl⟩

theorem minus_listed : "-" ∈ library.functionNames := by
  obtain ⟨operator, found, _⟩ := getUnary?_minus installed
  have callable : library.IsCallable "-" := .inr (.inl (by rw [found]; rfl))
  obtain ⟨spelled, listed, same⟩ := (namesApart_of_withLibrary installed).isCallable_iff.mp callable
  have minus : spelled = "-" := by
    apply eq_minus_of_fold spelled (mem_callableNames_of_withLibrary installed listed)
    rw [same]
    with_unfolding_all decide
  rwa [← minus]

theorem findName?_minus (chosen : Settings) (source : String) (text : List Char) :
    findName? (Reader.of library chosen source).names ('-' :: text) = some (.ofName "-") := by
  have stands : Stands "-" ('-' :: text) := by
    refine ⟨rfl, ?_⟩
    rintro ⟨⟨_, ⟨⟩, word⟩, _⟩
    revert word
    with_unfolding_all decide
  obtain ⟨found, searched, long⟩ :=
    findName?_of_stands (List.mem_map_of_mem (minus_listed installed)) stands
  obtain ⟨member, standing, _⟩ := findName?_eq_some searched
  obtain ⟨name, listed, rfl⟩ := List.mem_map.mp member
  obtain ⟨same, _⟩ := startsAt_ofName_iff.mp standing
  have minus : name = "-" := by
    apply eq_minus_of_fold name (mem_callableNames_of_withLibrary installed listed)
    obtain ⟨count, length⟩ : ∃ count, name.length = count + 1 :=
      Nat.exists_eq_succ_of_ne_zero (Nat.one_le_iff_ne_zero.mp long)
    rw [fold, String.toList_ofList, ← same, length]
    rfl
  rw [minus] at searched
  exact searched

theorem classify_minus : classify library none "-" = .unaryOperator "-" := by
  obtain ⟨operator, found, _⟩ := getUnary?_minus installed
  have unary : (library.getUnary? "-").isSome = true := by rw [found]; rfl
  have noFunction := (namesApart_of_withLibrary installed).getFunction?_of_operator (.inl unary)
  simp [classify, noFunction, unary]

/-! ### Tokens -/

variable {text : List Char} (whole : (system.literals.span text).1 = text)

include whole

theorem literal_of_withLibrary (chosen : Settings) (source : String) :
    (Reader.of library chosen source).literal text = text := by
  rw [Reader.literal]
  simp only [Reader.of, withLibrary_system installed, whole]

variable (some : text ≠ [])

include some

theorem tokenize_literal (chosen : Settings) :
    tokenize library (String.ofList text) chosen =
      (readLiteral (Reader.of library chosen (String.ofList text)) text 0).map
        fun value => [⟨.number value, 0⟩] := by
  have first : ∀ last ∈ ([] : List (Token α)).head?, last.lexeme.kind = .unaryOperator := nofun
  obtain ⟨c, following, rfl⟩ := List.exists_cons_of_ne_nil some
  rw [tokenize_of_solid (not_isBlank_of_span whole)]
  exact scanRest_literal (literal_of_withLibrary installed whole chosen _) some first following.length 0

theorem tokenize_minus {chosen : Settings} (free : symbolLexeme? (α := α) chosen '-' = none) :
    tokenize library (String.ofList ('-' :: text)) chosen =
      (readLiteral (Reader.of library chosen (String.ofList ('-' :: text))) text 1).map
        fun value => [⟨.unaryOperator "-", 0⟩, ⟨.number value, 1⟩] := by
  let reader := Reader.of library chosen (String.ofList ('-' :: text))
  have solid : isBlank '-' = false := by with_unfolding_all decide
  have plain : reader.Plain ('-' :: text) := by
    refine ⟨literal_eq_nil (by with_unfolding_all decide) (by decide) text, ?_⟩
    rintro _ ⟨⟩
    exact free
  have reads : reader.Reads none ('-' :: text) (.unaryOperator "-") 1 := by
    have classified : classify reader.registry none (Candidate.ofName "-").name = .unaryOperator "-" :=
      classify_minus installed
    have length : (Candidate.ofName "-").characters.length = 1 := by with_unfolding_all decide
    rw [← classified, ← length]
    exact .name plain (findName?_minus installed chosen _ text)
  obtain ⟨count, length⟩ := Nat.exists_eq_succ_of_ne_zero (List.length_pos_iff.mpr some).ne'
  have operator : ∀ last ∈ [(⟨.unaryOperator "-", 0⟩ : Token α)].head?,
      last.lexeme.kind = .unaryOperator := by
    rintro _ ⟨⟩
    rfl
  rw [tokenize_of_solid solid, scanRest_operator solid reads, length]
  exact scanRest_literal (literal_of_withLibrary installed whole chosen _) some operator count 1

/-! ### Values -/

theorem evaluate_literal :
    evaluate library (String.ofList text) =
      readLiteral (Reader.of library settings (String.ofList text)) text 0 := by
  rw [evaluate, withLibrary_settings installed, tokenize_literal installed whole some]
  cases readLiteral (Reader.of library settings (String.ofList text)) text 0 with
  | error fault => rfl
  | ok value => rfl

/-- The value of a literal behind a minus is the negation of the number that is read from it. -/
theorem evaluate_minus (free : symbolLexeme? (α := α) settings '-' = none) :
    evaluate library (String.ofList ('-' :: text)) = (do
      let value ← readLiteral (Reader.of library settings (String.ofList ('-' :: text))) text 1
      Scope.run ⟨library, settings, String.ofList ('-' :: text)⟩ 0 (system.neg value)) := by
  obtain ⟨operator, found, before, negates⟩ := getUnary?_minus installed
  rw [evaluate, withLibrary_settings installed, tokenize_minus installed whole some free]
  cases readLiteral (Reader.of library settings (String.ofList ('-' :: text))) text 1 with
  | error fault => rfl
  | ok value =>
    rw [← negates]
    exact evaluateTokens_prefixed found before value _ settings

theorem evaluate_literal_eq_ok {value : α} (parsed : system.parse text = .ok value) :
    evaluate library (String.ofList text) = .ok value := by
  rw [evaluate_literal installed whole some, readLiteral_eq_ok_iff]
  simp only [Reader.of, withLibrary_system installed, parsed]

theorem evaluate_minus_eq_ok (free : symbolLexeme? (α := α) settings '-' = none) {value result : α}
    (parsed : system.parse text = .ok value) (negated : system.neg value = .ok result) :
    evaluate library (String.ofList ('-' :: text)) = .ok result := by
  rw [evaluate_minus installed whole some free]
  refine bind_eq_ok.mpr ⟨value, ?_, ?_⟩
  · rw [readLiteral_eq_ok_iff]
    simp only [Reader.of, withLibrary_system installed, parsed]
  · rw [negated]
    rfl

theorem evaluate_minus_of_unsuitable (free : symbolLexeme? (α := α) settings '-' = none) {why : String}
    (refused : system.parse text = .error (.unsuitable why)) :
    evaluate library (String.ofList ('-' :: text)) = .error (.described ⟨.invalidExpression,
      "Invalid number '" ++ String.ofList text ++ "'", Option.some 1,
      Option.some (String.ofList ('-' :: text))⟩) := by
  let reader := Reader.of library settings (String.ofList ('-' :: text))
  have unread : reader.registry.system.parse text = .error (.unsuitable why) := by
    simp only [reader, Reader.of, withLibrary_system installed, refused]
  rw [evaluate_minus installed whole some free, readLiteral_of_unsuitable unread]
  rfl

end Library

end Reckoner

import Reckoner.Proofs.Evaluation.Runs
import Reckoner.Proofs.Scan.Coverage

/-! The scan and the evaluation agree on where an operand has to follow. The scan looks at the token
before a name, the evaluation keeps a flag, and after every step the flag says whether the last token can
end an operand. So a name that is both a prefix and a binary operator is read as the one that fits. -/

namespace Reckoner

open Reckoner.Unicode

variable {α : Type}

namespace Scan

/-! ### Operators that share their name -/

/-- Whether an operator is the one that fits behind a lexeme, if another one shares its name. -/
def Suits (registry : Registry α) (previous : Option (Lexeme α)) : Lexeme α → Prop
  | .unaryOperator name =>
    (registry.getBinary? name).isSome = true → previous.any (endsValue registry) = false
  | .binaryOperator name =>
    (registry.getUnary? name).isSome = true → previous.any (endsValue registry) = true
  | _ => True

variable {registry : Registry α} {previous : Option (Lexeme α)} {lexeme : Lexeme α}

theorem suits_of_called? (other : lexeme.called? = none) : Suits registry previous lexeme := by
  cases lexeme with
  | unaryOperator name => cases other
  | binaryOperator name => cases other
  | _ => trivial

theorem classify_suits (registry : Registry α) (previous : Option (Lexeme α)) (name : String) :
    Suits registry previous (classify registry previous name) := by
  unfold classify
  by_cases function : (registry.getFunction? name).isSome = true
  · rw [if_pos function]
    trivial
  · rw [if_neg function]
    by_cases unary : (registry.getUnary? name).isSome = true
    · rw [if_pos unary]
      split
      · rename_i both
        intro _
        exact (Bool.and_eq_true_iff.mp both).2
      · rename_i single
        intro binary
        simpa [binary] using single
    · rw [if_neg unary]
      intro found
      exact absurd found unary

theorem endsValue_of_isPostfix (postfix_ : isPostfix registry lexeme = true) :
    endsValue registry lexeme = true := by
  cases lexeme with
  | number value => rfl
  | identifier name => rfl
  | closeGroup symbol => rfl
  | _ => exact postfix_

theorem endsValue_of_isProduct {left right : Lexeme α} (product : isProduct registry left right = true) :
    endsValue registry left = true := by
  cases left with
  | number value => rfl
  | identifier name => rfl
  | closeGroup symbol => rfl
  | _ =>
    cases right with
    | identifier name => exact endsValue_of_isPostfix product
    | openGroup symbol => exact endsValue_of_isPostfix product
    | functionCall name => exact endsValue_of_isPostfix product
    | _ => cases product

theorem suits_of_isProduct {left right : Lexeme α} (product : isProduct registry left right = true) :
    Suits registry previous right := by
  cases right with
  | unaryOperator name => cases left <;> cases product
  | binaryOperator name => cases left <;> cases product
  | _ => trivial

variable {reader : Reader α}

theorem Reader.Reads.suits {text : List Char} {count : Nat}
    (reads : reader.Reads previous text lexeme count) : Suits reader.registry previous lexeme := by
  cases reads with
  | number => trivial
  | symbol _ _ found => exact suits_of_called? (symbolLexeme?_called? found)
  | name => exact classify_suits _ _ _
  | identifier => trivial
  | symbolic => trivial

/-- Whether all operators among tokens, kept from the last to the first, fit behind the tokens before
them. -/
def AllSuit (registry : Registry α) : List (Token α) → Prop
  | [] => True
  | token :: earlier =>
    Suits registry (earlier.head?.map Token.lexeme) token.lexeme ∧ AllSuit registry earlier

theorem AllSuit.of_append {later earlier : List (Token α)} {token : Token α}
    (suit : AllSuit registry (later ++ token :: earlier)) :
    Suits registry (earlier.head?.map Token.lexeme) token.lexeme := by
  induction later with
  | nil => exact suit.1
  | cons last rest ih => exact ih suit.2

theorem AllSuit.emit {tokens : List (Token α)} (suit : AllSuit reader.registry tokens)
    (suits : Suits reader.registry (tokens.head?.map Token.lexeme) lexeme) (position : Nat) :
    AllSuit reader.registry (emit reader tokens lexeme position) := by
  unfold Scan.emit
  simp only
  split
  · rename_i product
    obtain ⟨_, left⟩ := Bool.and_eq_true_iff.mp product
    cases tokens with
    | nil => cases left
    | cons last earlier =>
      exact ⟨suits_of_isProduct left, fun _ => endsValue_of_isProduct left, suit⟩
  · exact ⟨suits, suit⟩

theorem AllSuit.extend {tokens : List (Token α)} (suit : AllSuit reader.registry tokens) {c : Char}
    {following : List Char} {position : Nat} {next : Step α}
    (read : step reader (tokens.head?.map Token.lexeme) c following position = .ok next) :
    AllSuit reader.registry (reader.extend tokens next.lexeme position) := by
  cases blank : isBlank c with
  | true =>
    rw [step_of_isBlank blank] at read
    cases read
    exact suit
  | false =>
    obtain ⟨lexeme, count, rfl, reads⟩ := reads_of_step blank read
    exact suit.emit reads.suits position

end Scan

open Scan

/-- Every operator of a source is the one that fits behind the tokens before it. -/
theorem tokenize_suits {registry : Registry α} {source : String} {settings : Settings}
    {before rest : List (Token α)} {token : Token α}
    (scanned : tokenize registry source settings = .ok (before ++ token :: rest)) :
    Suits registry (before.getLast?.map Token.lexeme) token.lexeme := by
  unfold tokenize at scanned
  simp only at scanned
  split at scanned
  · cases scanned
  · have none : AllSuit registry ([] : List (Token α)) := trivial
    have extends_ : ∀ tokens c following position next, AllSuit registry tokens →
        step (Reader.of registry settings source) (tokens.head?.map Token.lexeme) c following position =
          .ok next →
        AllSuit registry ((Reader.of registry settings source).extend tokens next.lexeme position) :=
      fun _ _ _ _ _ suit read => suit.extend read
    have suit : AllSuit registry (before ++ token :: rest).reverse :=
      scanRest_keeps extends_ _ _ _ none _ scanned
    rw [List.reverse_append, List.reverse_cons, List.append_assoc, List.singleton_append] at suit
    have last := suit.of_append
    rwa [List.head?_reverse] at last

namespace Evaluation

/-! ### The flag of the evaluation -/

variable {scope : Scope α}

/-- After a step the flag says whether the last token that was read can end an operand. -/
theorem Transition.expectsOperand_iff {previous following : Option (Token α)} {token : Token α}
    {state next : State α} (moved : Transition scope previous following token state next) :
    next.expectsOperand = false ↔
      ∃ last ∈ (taken token following).getLast?, endsValue scope.registry last.lexeme = true := by
  cases moved with
  | number => simp [taken, Lexeme.kind, endsValue]
  | identifier => simp [taken, Lexeme.kind, endsValue]
  | callee callee opener => simp [taken, Callee.token, opener, Lexeme.kind, endsValue, isPostfix]
  | leading leading =>
    simp [taken, Leading.token, Lexeme.kind, endsValue, isPostfix, leading.registered, leading.before]
  | trailing trailing =>
    simp [taken, Trailing.token, Lexeme.kind, endsValue, isPostfix, trailing.registered, trailing.after]
  | joining => simp [taken, Joining.token, Lexeme.kind, endsValue, isPostfix]
  | opener => simp [taken, Lexeme.kind, endsValue, isPostfix]
  | separator => simp [taken, Lexeme.kind, endsValue, isPostfix]
  | group => simp [taken, Lexeme.kind, endsValue]
  | call => simp [taken, Lexeme.kind, endsValue]

/-- At every place that a run reaches, the flag says whether the last token can end an operand. -/
theorem Reached.expectsOperand_iff {consumed : List (Token α)} {state : State α}
    (reached : Reached scope consumed state) :
    state.expectsOperand = false ↔
      ∃ last ∈ consumed.getLast?, endsValue scope.registry last.lexeme = true := by
  cases reached with
  | initial => exact iff_of_false nofun nofun
  | next _ read =>
    rw [getLast?_taken]
    exact (Scope.step_eq_ok read).expectsOperand_iff

/-- Where the scan reads a prefix operator that shares its name with a binary one, an operand has to
follow. -/
theorem Reached.expects_leading {consumed rest : List (Token α)} {state : State α}
    (reached : Reached scope consumed state) {source : String} {settings : Settings}
    (leading : Leading scope) (shared : (scope.registry.getBinary? leading.name).isSome = true)
    (scanned : tokenize scope.registry source settings = .ok (consumed ++ leading.token :: rest)) :
    state.expectsOperand = true := by
  have suits : (consumed.getLast?.map Token.lexeme).any (endsValue scope.registry) = false :=
    tokenize_suits scanned shared
  rw [← Bool.not_eq_false, reached.expectsOperand_iff]
  rintro ⟨last, member, ends⟩
  rw [Option.mem_def.mp member] at suits
  exact Bool.noConfusion (suits.symm.trans ends)

/-- Where the scan reads a binary operator that shares its name with a unary one, no operand may follow. -/
theorem Reached.expects_joining {consumed rest : List (Token α)} {state : State α}
    (reached : Reached scope consumed state) {source : String} {settings : Settings}
    (joining : Joining scope) (shared : (scope.registry.getUnary? joining.name).isSome = true)
    (scanned : tokenize scope.registry source settings = .ok (consumed ++ joining.token :: rest)) :
    state.expectsOperand = false := by
  have suits : (consumed.getLast?.map Token.lexeme).any (endsValue scope.registry) = true :=
    tokenize_suits scanned shared
  rw [reached.expectsOperand_iff]
  cases last : consumed.getLast? with
  | none =>
    rw [last] at suits
    cases suits
  | some token =>
    rw [last] at suits
    exact ⟨token, rfl, suits⟩

end Evaluation

open Evaluation

/-- At every place that an evaluation reaches, an operand may not follow exactly if there is a last token
and it can end an operand. So an operator of a source that is both a prefix and a binary operator is never
refused: as the first it waits for its operand, as the second for its right one once the operators before
it are applied. -/
theorem expectsOperand_agrees (scope : Scope α) :
    (∀ consumed state, scope.steps none consumed initial = .ok state →
      (∀ rest, scope.steps none (consumed ++ rest) initial =
        scope.steps consumed.getLast? rest state) ∧
      (state.expectsOperand = false ↔
        ∃ last ∈ consumed.getLast?, endsValue scope.registry last.lexeme = true)) ∧
    ∀ source settings before token rest state,
      tokenize scope.registry source settings = .ok (before ++ token :: rest) →
      scope.steps none before initial = .ok state →
      (∀ leading : Leading scope, token = leading.token →
        (scope.registry.getBinary? leading.name).isSome = true →
        scope.step before.getLast? token rest.head? state =
          .ok ⟨state.operands, .operator (.unary leading.operator) leading.position :: state.pending,
            true, leading.position⟩) ∧
      ∀ joining : Joining scope, token = joining.token →
        (scope.registry.getUnary? joining.name).isSome = true →
        scope.step before.getLast? token rest.head? state =
          scope.reduce (Operator.precedesBinary joining.operator.precedence) state.pending state.operands
            joining.position >>= fun (pending, operands, position) =>
              .ok ⟨operands, .operator (.binary joining.operator) joining.position :: pending, true,
                position⟩ := by
  constructor
  · intro consumed state read
    have reached := Scope.reached_iff.mpr read
    exact ⟨Scope.steps_of_reached reached, reached.expectsOperand_iff⟩
  · intro source settings before token rest state scanned read
    have reached := Scope.reached_iff.mpr read
    constructor
    · rintro leading rfl shared
      have expects := reached.expects_leading leading shared scanned
      obtain ⟨operands, pending, _, position⟩ := state
      cases expects
      exact Scope.step_leading leading _ _ _ _ _
    · rintro joining rfl shared
      have expects := reached.expects_joining joining shared scanned
      obtain ⟨operands, pending, _, position⟩ := state
      cases expects
      exact Scope.step_joining joining _ _ _ _ _

namespace Evaluation.Sample

def opposite : UnaryOperator Int :=
  ⟨⟨"-", [], none⟩, .before, Precedence.medium, fun x => .ok (-x)⟩

def difference : BinaryOperator Int :=
  ⟨⟨"-", [], none⟩, Precedence.low, .left, fun x y => .ok (x - y)⟩

/-- A scope with one symbol for two operators. -/
def signs : Scope Int where
  registry :=
    { Registry.empty (NumberSystem.Integer.system ⟨none⟩) Settings.standard with
      unary := [("-", ⟨0, opposite⟩)]
      binary := [("-", ⟨1, difference⟩)]
      names := [("-", "-")]
      nextSerial := 2 }
  settings := Settings.standard
  source := none

def minus : Joining signs := ⟨"-", 1, difference, rfl⟩

def sign : Leading signs := ⟨"-", 2, opposite, rfl, rfl⟩

/-- A number and a binary operator are read. -/
def joined : State Int := ⟨[2], [.operator (.binary difference) 1], true, 1⟩

end Evaluation.Sample

open Evaluation.Sample in
/-- The second of two minus signs is a prefix operator, the first one is not. -/
theorem expectsOperand_agrees_sample :
    tokenize signs.registry "2--1" Settings.standard =
      .ok [⟨.number 2, 0⟩, minus.token, sign.token, ⟨.number 1, 3⟩] ∧
    signs.steps none [⟨.number 2, 0⟩] initial = .ok ⟨[2], [], false, 0⟩ ∧
    signs.step (some ⟨.number 2, 0⟩) minus.token (some sign.token) ⟨[2], [], false, 0⟩ = .ok joined ∧
    signs.steps none [⟨.number 2, 0⟩, minus.token] initial = .ok joined ∧
    signs.step (some minus.token) sign.token (some ⟨.number 1, 3⟩) joined =
      .ok ⟨[2], .operator (.unary opposite) 2 :: joined.pending, true, 2⟩ := by
  have scanned : tokenize signs.registry "2--1" Settings.standard =
    .ok [⟨.number 2, 0⟩, minus.token, sign.token, ⟨.number 1, 3⟩] := rfl
  have first : signs.steps none [⟨.number 2, 0⟩] initial = .ok ⟨[2], [], false, 0⟩ := rfl
  have second : signs.steps none [⟨.number 2, 0⟩, minus.token] initial = .ok joined := rfl
  obtain ⟨_, agrees⟩ := expectsOperand_agrees signs
  have joins := (agrees _ _ [⟨.number 2, 0⟩] minus.token [sign.token, ⟨.number 1, 3⟩] _
    scanned first).2 minus rfl rfl
  have leads := (agrees _ _ [⟨.number 2, 0⟩, minus.token] sign.token [⟨.number 1, 3⟩] _
    scanned second).1 sign rfl rfl
  exact ⟨scanned, first, joins, second, leads⟩

end Reckoner

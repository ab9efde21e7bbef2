import Reckoner.Proofs.Registry.WellNamed
import Reckoner.Proofs.Scan.Numbers
import Reckoner.Proofs.Scan.Reads
import Reckoner.Proofs.Scan.Slices
import Reckoner.Proofs.Text.Literal

/-! Runs of the scan. A scan that succeeds cuts its text into slices, and a text that is cut into slices is
scanned to their tokens. -/

namespace Reckoner

open Reckoner.Unicode

variable {α : Type}

namespace Scan

/-! ### The loop of the scan -/

/-- What the scan of a text ends with, however many steps it takes. -/
inductive Ends (reader : Reader α) :
    List Char → Nat → List (Token α) → Outcome (List (Token α)) → Prop where
  | done {position tokens} : Ends reader [] position tokens (.ok tokens.reverse)
  | failed {c following position tokens fault}
      (fails : step reader (tokens.head?.map Token.lexeme) c following position = .error fault) :
    Ends reader (c :: following) position tokens (.error fault)
  | next {c following position tokens next outcome}
      (read : step reader (tokens.head?.map Token.lexeme) c following position = .ok next)
      (rest : Ends reader ((c :: following).drop next.length) (position + next.length)
        (reader.extend tokens next.lexeme position) outcome) :
    Ends reader (c :: following) position tokens outcome

variable {reader : Reader α} {previous : Option (Lexeme α)} {text : List Char}

theorem Ends.unique {position : Nat} {tokens : List (Token α)} {first second : Outcome (List (Token α))}
    (left : Ends reader text position tokens first) (right : Ends reader text position tokens second) :
    first = second := by
  induction left with
  | done =>
    cases right
    rfl
  | failed fails =>
    cases right with
    | failed other => exact congrArg Except.error (Except.error.inj (fails.symm.trans other))
    | next read => cases fails.symm.trans read
  | next read rest ih =>
    cases right with
    | failed fails => cases read.symm.trans fails
    | next other behind =>
      cases read.symm.trans other
      exact ih behind

/-- Whether a candidate is that of a name with characters and without blanks. -/
def Candidate.Solid (candidate : Candidate) : Prop :=
  ∃ name, candidate = .ofName name ∧ name.toList ≠ [] ∧ ∀ c ∈ name.toList, isBlank c = false

theorem Candidate.Solid.nonempty {candidate : Candidate} (solid : candidate.Solid) :
    candidate.characters ≠ [] := by
  obtain ⟨name, rfl, nonempty, _⟩ := solid
  exact nonempty

/-- Whether all that a reader looks for is solid. -/
structure Reader.Solid (reader : Reader α) : Prop where
  names : ∀ candidate ∈ reader.names, candidate.Solid
  symbols : ∀ candidate ∈ reader.symbols, candidate.Solid

theorem Candidate.solid_ofName {name : String} (checked : Name.check name = .ok ()) :
    (Candidate.ofName name).Solid := ⟨name, rfl, Name.of_check checked⟩

theorem Reader.solid_of {registry : Registry α} (named : registry.WellNamed) (settings : Settings)
    (source : String) : (Reader.of registry settings source).Solid where
  names candidate member := by
    obtain ⟨name, listed, rfl⟩ := List.mem_map.mp member
    exact Candidate.solid_ofName (named.functions name listed)
  symbols candidate member := by
    obtain ⟨name, listed, rfl⟩ := List.mem_map.mp member
    exact Candidate.solid_ofName (named.values (List.mem_filter.mp listed).1)

theorem Reader.Reads.positive (solid : reader.Solid) {lexeme : Lexeme α} {count : Nat}
    (reads : reader.Reads previous text lexeme count) : 0 < count := by
  cases reads with
  | number present => exact List.length_pos_iff.mpr present
  | symbol => exact Nat.one_pos
  | name _ found =>
    exact List.length_pos_iff.mpr (solid.names _ (findName?_eq_some found).1).nonempty
  | identifier _ _ word => exact List.length_pos_iff.mpr word
  | symbolic _ _ _ found =>
    exact List.length_pos_iff.mpr (solid.symbols _ (findSymbol?_eq_some found).1).nonempty

theorem step_positive (solid : reader.Solid) {c : Char} {following : List Char} {position : Nat}
    {next : Step α} (read : step reader previous c following position = .ok next) :
    0 < next.length := by
  cases blank : isBlank c with
  | true =>
    rw [step_of_isBlank blank] at read
    cases read
    exact Nat.one_pos
  | false =>
    obtain ⟨lexeme, count, rfl, reads⟩ := reads_of_step blank read
    exact reads.positive solid

theorem ends_scanRest (solid : reader.Solid) {fuel : Nat} (enough : text.length ≤ fuel)
    (position : Nat) (tokens : List (Token α)) :
    Ends reader text position tokens (scanRest reader fuel text position tokens) := by
  induction fuel generalizing text position tokens with
  | zero =>
    obtain rfl := List.length_eq_zero_iff.mp (Nat.le_zero.mp enough)
    exact .done
  | succ fuel ih =>
    cases text with
    | nil => exact .done
    | cons c following =>
      unfold scanRest
      cases made : step reader (tokens.head?.map Token.lexeme) c following position with
      | error fault => exact .failed made
      | ok next =>
        refine .next made (ih ?_ _ _)
        have shorter := step_positive solid made
        rw [List.length_drop]
        omega

/-! ### Slices of a scan -/

/-- Whether a slice is read at the start of a text, with the rest of the text behind it. -/
structure Reader.Cuts (reader : Reader α) (previous : Option (Lexeme α)) (slice : Slice α)
    (behind : List Char) : Prop where
  blank : ∀ c ∈ slice.blanks, isBlank c = true
  solid : slice.characters ≠ [] ∧ ∀ c ∈ slice.characters, isBlank c = false
  reads : ∃ count, reader.Reads previous (slice.characters ++ behind) slice.lexeme count ∧
    (slice.characters ++ behind).take count = slice.characters

/-- Whether slices are read one behind the other, the last one with the tail behind it. -/
def Reader.Sliced (reader : Reader α) (tail : List Char) : Option (Lexeme α) → List (Slice α) → Prop
  | _, [] => True
  | previous, slice :: rest =>
    reader.Cuts previous slice (textOf rest tail) ∧ reader.Sliced tail (some slice.lexeme) rest

theorem Reader.Sliced.cuts {tail : List Char} {slices : List (Slice α)}
    (sliced : reader.Sliced tail previous slices) : ∀ slice ∈ slices,
      (∀ c ∈ slice.blanks, isBlank c = true) ∧
        slice.characters ≠ [] ∧ ∀ c ∈ slice.characters, isBlank c = false := by
  induction slices generalizing previous with
  | nil => nofun
  | cons slice rest ih =>
    obtain ⟨cuts, others⟩ := sliced
    exact List.forall_mem_cons.mpr ⟨⟨cuts.blank, cuts.solid⟩, ih others⟩

theorem Reader.Sliced.of_source {registry : Registry α} {settings : Settings} {source other : String}
    {tail : List Char} {slices : List (Slice α)}
    (sliced : (Reader.of registry settings source).Sliced tail previous slices) :
    (Reader.of registry settings other).Sliced tail previous slices := by
  induction slices generalizing previous with
  | nil => trivial
  | cons slice rest ih =>
    obtain ⟨⟨blank, solid, count, reads, taken⟩, others⟩ := sliced
    exact ⟨⟨blank, solid, count, reads.of_source, taken⟩, ih others⟩

theorem Candidate.Solid.not_isBlank {candidate : Candidate} (solid : candidate.Solid)
    (stands : candidate.startsAt text = true) {c : Char}
    (member : c ∈ text.take candidate.characters.length) : isBlank c = false := by
  obtain ⟨name, rfl, _, unblank⟩ := solid
  rw [Candidate.ofName, String.length_toList] at member
  exact not_isBlank_of_foldChars (startsAt_ofName_iff.mp stands).1 unblank c member

theorem Reader.Reads.not_isBlank (solid : reader.Solid) {lexeme : Lexeme α} {count : Nat}
    (reads : reader.Reads previous text lexeme count)
    (first : ∀ c ∈ text.head?, isBlank c = false) : ∀ c ∈ text.take count, isBlank c = false := by
  intro c member
  cases reads with
  | number present parsed =>
    rw [← List.prefix_iff_eq_take.mp (reader.literal_starts text)] at member
    exact LiteralStyle.not_isBlank_of_mem_span member
  | symbol absent start found =>
    cases text with
    | nil => cases member
    | cons head following =>
      obtain rfl : c = head := by simpa using member
      exact first c rfl
  | name plain found =>
    obtain ⟨listed, stands, _⟩ := findName?_eq_some found
    exact (solid.names _ listed).not_isBlank stands member
  | identifier plain unnamed word =>
    rw [← List.prefix_iff_eq_take.mp (identifier_starts text)] at member
    apply Bool.eq_false_iff.mpr
    intro blank
    exact Bool.noConfusion ((not_isWord_of_isBlank blank).symm.trans (isWord_of_mem_identifier member))
  | symbolic plain unnamed noWord found =>
    obtain ⟨listed, starts, _⟩ := findSymbol?_eq_some found
    rw [← List.prefix_iff_eq_take.mp starts] at member
    obtain ⟨name, rfl, _, unblank⟩ := solid.symbols _ listed
    exact unblank c member

theorem Reader.Reads.cuts (solid : reader.Solid) {c : Char} (unblank : isBlank c = false)
    {following : List Char} {lexeme : Lexeme α} {count : Nat}
    (reads : reader.Reads previous (c :: following) lexeme count) :
    reader.Cuts previous ⟨[], (c :: following).take count, lexeme⟩
      ((c :: following).drop count) where
  blank := nofun
  solid := by
    constructor
    · have positive := reads.positive solid
      simp [List.take_eq_nil_iff]
      omega
    · apply reads.not_isBlank solid
      rintro _ ⟨⟩
      exact unblank
  reads := by
    rw [List.take_append_drop]
    exact ⟨count, reads, rfl⟩

/-- What is read with a text behind it is all that is left or has its full length. -/
theorem length_of_take {characters behind : List Char} {count : Nat}
    (taken : (characters ++ behind).take count = characters) (more : behind ≠ []) :
    characters.length = count := by
  have lengths := congrArg List.length taken
  have left := List.length_pos_iff.mpr more
  rw [List.length_take, List.length_append] at lengths
  omega

theorem drop_of_take {characters behind : List Char} {count : Nat}
    (taken : (characters ++ behind).take count = characters) :
    (characters ++ behind).drop count = behind := by
  have whole := List.take_append_drop count (characters ++ behind)
  rw [taken] at whole
  exact List.append_cancel_left whole

theorem textOf_ne_nil {tail : List Char} {slices : List (Slice α)}
    (sliced : reader.Sliced tail previous slices) (some : slices ≠ []) : textOf slices tail ≠ [] := by
  cases slices with
  | nil => exact absurd rfl some
  | cons slice rest => simp [textOf, sliced.1.solid.1]

theorem reverse_emit (tokens : List (Token α)) (lexeme : Lexeme α) (position : Nat) :
    (emit reader tokens lexeme position).reverse = tokens.reverse ++
      signsOf reader.registry reader.settings (tokens.head?.map Token.lexeme) lexeme position ++
        [⟨lexeme, position⟩] := by
  unfold emit signsOf
  simp only [Option.any_map]
  split <;> simp_all

theorem head?_emit (tokens : List (Token α)) (lexeme : Lexeme α) (position : Nat) :
    (emit reader tokens lexeme position).head? = some ⟨lexeme, position⟩ := by
  unfold emit
  simp only
  split <;> rfl

/-- A scan that succeeds cuts its text into slices and ends with their tokens. -/
theorem Ends.sliced (solid : reader.Solid) {position : Nat} {tokens result : List (Token α)}
    (ends : Ends reader text position tokens (.ok result)) :
    ∃ slices tail, text = textOf slices tail ∧ (∀ c ∈ tail, isBlank c = true) ∧
      reader.Sliced tail (tokens.head?.map Token.lexeme) slices ∧
      result = tokens.reverse ++ tokensOf reader.registry reader.settings
        (tokens.head?.map Token.lexeme) position slices := by
  generalize same : Except.ok result = outcome at ends
  induction ends with
  | done =>
    cases same
    exact ⟨[], [], rfl, nofun, trivial, (List.append_nil _).symm⟩
  | failed => cases same
  | @next c following position tokens next outcome read rest ih =>
    cases blank : isBlank c with
    | true =>
      rw [step_of_isBlank blank] at read
      cases read
      obtain ⟨slices, tail, whole, behind, sliced, ended⟩ := ih same
      cases slices with
      | nil =>
        refine ⟨[], c :: tail, congrArg (c :: ·) whole, ?_, trivial, ended⟩
        exact List.forall_mem_cons.mpr ⟨blank, behind⟩
      | cons slice slices =>
        obtain ⟨cuts, others⟩ := sliced
        refine ⟨⟨c :: slice.blanks, slice.characters, slice.lexeme⟩ :: slices, tail,
          congrArg (c :: ·) whole, behind, ⟨⟨?_, cuts.solid, cuts.reads⟩, others⟩, ?_⟩
        · exact List.forall_mem_cons.mpr ⟨blank, cuts.blank⟩
        · rw [ended, tokensOf, tokensOf, List.length_cons, Nat.add_right_comm position, ← Nat.add_assoc]
          rfl
    | false =>
      obtain ⟨lexeme, count, rfl, reads⟩ := reads_of_step blank read
      simp only [Reader.extend, head?_emit, reverse_emit, Option.map_some] at ih
      obtain ⟨slices, tail, whole, behind, sliced, ended⟩ := ih same
      have cuts := reads.cuts solid blank
      have parted := List.take_append_drop count (c :: following)
      have moved : slices ≠ [] → position + count = position + 0 + ((c :: following).take count).length := by
        intro some
        have taken : ((c :: following).take count ++ (c :: following).drop count).take count =
            (c :: following).take count := by rw [parted]
        rw [length_of_take taken (by rw [whole]; exact textOf_ne_nil sliced some), Nat.add_zero]
      rw [whole] at cuts parted
      refine ⟨⟨[], (c :: following).take count, lexeme⟩ :: slices, tail, parted.symm, behind,
        ⟨cuts, sliced⟩, ?_⟩
      rw [ended, tokensOf_congr _ _ moved, tokensOf]
      simp

theorem Ends.skip {blanks : List Char} (blank : ∀ c ∈ blanks, isBlank c = true) {position : Nat}
    {tokens : List (Token α)} {outcome : Outcome (List (Token α))}
    (ends : Ends reader text (position + blanks.length) tokens outcome) :
    Ends reader (blanks ++ text) position tokens outcome := by
  induction blanks generalizing position with
  | nil => exact ends
  | cons c rest ih =>
    obtain ⟨first, others⟩ := List.forall_mem_cons.mp blank
    refine .next (step_of_isBlank first _ _) (ih others ?_)
    rw [List.length_cons, Nat.add_comm rest.length, ← Nat.add_assoc] at ends
    exact ends

/-- A text that is cut into slices is scanned to their tokens. -/
theorem Reader.Sliced.ends {tail : List Char} (behind : ∀ c ∈ tail, isBlank c = true)
    {slices : List (Slice α)} {tokens : List (Token α)}
    (sliced : reader.Sliced tail (tokens.head?.map Token.lexeme) slices) (position : Nat) :
    Ends reader (textOf slices tail) position tokens (.ok (tokens.reverse ++
      tokensOf reader.registry reader.settings (tokens.head?.map Token.lexeme) position slices)) := by
  induction slices generalizing tokens position with
  | nil =>
    have skipped : Ends reader (tail ++ []) position tokens (.ok tokens.reverse) :=
      .skip behind .done
    simpa [textOf, tokensOf] using skipped
  | cons slice rest ih =>
    obtain ⟨cuts, others⟩ := sliced
    obtain ⟨count, reads, taken⟩ := cuts.reads
    refine .skip cuts.blank ?_
    have sliced : reader.Sliced tail
        ((emit reader tokens slice.lexeme (position + slice.blanks.length)).head?.map Token.lexeme)
        rest := by
      rw [head?_emit]
      exact others
    have extended := ih sliced (position + slice.blanks.length + count)
    rw [head?_emit, reverse_emit, List.append_assoc, List.append_assoc] at extended
    have moved : rest ≠ [] → position + slice.blanks.length + count =
        position + slice.blanks.length + slice.characters.length := by
      intro some
      rw [length_of_take taken (textOf_ne_nil others some)]
    rw [tokensOf, ← tokensOf_congr _ _ moved]
    obtain ⟨c, following, same⟩ := List.exists_cons_of_ne_nil cuts.solid.1
    have unblank : isBlank c = false := cuts.solid.2 c (by simp [same])
    have dropped := drop_of_take taken
    rw [same, List.cons_append] at reads dropped ⊢
    refine .next (step_of_reads unblank reads _) ?_
    rw [dropped]
    exact extended

end Scan

end Reckoner

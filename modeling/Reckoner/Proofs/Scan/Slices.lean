import Reckoner.Scan
import Mathlib.Logic.Function.Defs

/-! A text as slices that tokens are read from, with blanks between them. The tokens of a text determine
its slices, and what their lexemes are depends on nothing but the lexemes of the slices. -/

namespace Reckoner

open Reckoner.Unicode

variable {α : Type}

namespace Scan

/-! ### Slices -/

/-- A lexeme with the characters it is read from and the blanks before them. -/
@[ext]
structure Slice (α : Type) where
  blanks : List Char
  characters : List Char
  lexeme : Lexeme α

/-- The text of slices with a tail behind them. -/
def textOf : List (Slice α) → List Char → List Char
  | [], tail => tail
  | slice :: rest, tail => slice.blanks ++ (slice.characters ++ textOf rest tail)

/-- Slices that make up a text, with nothing but blanks before, between and behind what is read. -/
structure Slicing (text : List Char) (slices : List (Slice α)) (tail : List Char) : Prop where
  whole : text = textOf slices tail
  blank : ∀ slice ∈ slices, ∀ c ∈ slice.blanks, isBlank c = true
  solid : ∀ slice ∈ slices, slice.characters ≠ [] ∧ ∀ c ∈ slice.characters, isBlank c = false
  tail : ∀ c ∈ tail, isBlank c = true

/-- The product sign before a lexeme, if it is left out there. -/
def signsOf (registry : Registry α) (settings : Settings) (previous : Option (Lexeme α))
    (lexeme : Lexeme α) (place : Nat) : List (Token α) :=
  if settings.implicitProduct && previous.any (isProduct registry · lexeme) then
    [⟨.binaryOperator productSign, place⟩]
  else []

/-- The tokens of slices, each from where its characters start. -/
def tokensOf (registry : Registry α) (settings : Settings) :
    Option (Lexeme α) → Nat → List (Slice α) → List (Token α)
  | _, _, [] => []
  | previous, position, slice :: rest =>
    let place := position + slice.blanks.length
    signsOf registry settings previous slice.lexeme place ++ ⟨slice.lexeme, place⟩ ::
      tokensOf registry settings (some slice.lexeme) (place + slice.characters.length) rest

theorem textOf_append (left right : List (Slice α)) (tail : List Char) :
    textOf (left ++ right) tail = textOf left (textOf right tail) := by
  induction left with
  | nil => rfl
  | cons slice rest ih => simp [textOf, ih]

theorem textOf_tail (slices : List (Slice α)) (tail behind : List Char) :
    textOf slices (tail ++ behind) = textOf slices tail ++ behind := by
  induction slices with
  | nil => rfl
  | cons slice rest ih => simp [textOf, ih]

theorem textOf_injective (slices : List (Slice α)) : Function.Injective (textOf slices) := by
  intro first second same
  rw [← List.nil_append first, ← List.nil_append second, textOf_tail, textOf_tail] at same
  exact List.append_cancel_left same

/-! ### Slices of tokens -/

variable {registry : Registry α} {settings : Settings}

/-- The tokens of a slice: the product sign before it, if it is left out there, and its own. -/
theorem tokensOf_cons (previous : Option (Lexeme α)) (position : Nat) (slice : Slice α)
    (rest : List (Slice α)) :
    let place := position + slice.blanks.length
    tokensOf registry settings previous position (slice :: rest) =
      (signsOf registry settings previous slice.lexeme place ++ [⟨slice.lexeme, place⟩]) ++
        tokensOf registry settings (some slice.lexeme) (place + slice.characters.length) rest := by
  simp [tokensOf]

/-- A token is the sign of a product that is left out, or that of a slice. -/
theorem mem_tokensOf {previous : Option (Lexeme α)} {position : Nat} {slices : List (Slice α)}
    {token : Token α} (member : token ∈ tokensOf registry settings previous position slices) :
    (settings.implicitProduct = true ∧ token.lexeme = .binaryOperator productSign) ∨
      ∃ slice ∈ slices, slice.lexeme = token.lexeme := by
  induction slices generalizing previous position with
  | nil => cases member
  | cons slice rest ih =>
    rw [tokensOf_cons] at member
    rcases List.mem_append.mp member with own | later
    · rcases List.mem_append.mp own with sign | single
      · unfold signsOf at sign
        split at sign
        · rename_i left
          obtain rfl := List.mem_singleton.mp sign
          exact .inl ⟨(Bool.and_eq_true_iff.mp left).1, rfl⟩
        · cases sign
      · obtain rfl := List.mem_singleton.mp single
        exact .inr ⟨slice, List.mem_cons_self, rfl⟩
    · rcases ih later with sign | ⟨other, among, same⟩
      · exact .inl sign
      · exact .inr ⟨other, List.mem_cons_of_mem slice among, same⟩

theorem tokensOf_congr (registry : Registry α) (settings : Settings) {slices : List (Slice α)}
    {previous : Option (Lexeme α)} {first second : Nat} (same : slices ≠ [] → first = second) :
    tokensOf registry settings previous first slices =
      tokensOf registry settings previous second slices := by
  cases slices with
  | nil => rfl
  | cons slice rest => rw [same (List.cons_ne_nil slice rest)]

theorem map_lexeme_signsOf (registry : Registry α) (settings : Settings)
    (previous : Option (Lexeme α)) (lexeme : Lexeme α) (first second : Nat) :
    (signsOf registry settings previous lexeme first).map Token.lexeme =
      (signsOf registry settings previous lexeme second).map Token.lexeme := by
  unfold signsOf
  split
  · rfl
  · rfl

theorem map_lexeme_tokensOf (registry : Registry α) (settings : Settings)
    {first second : List (Slice α)} (same : first.map Slice.lexeme = second.map Slice.lexeme)
    (previous : Option (Lexeme α)) (left right : Nat) :
    (tokensOf registry settings previous left first).map Token.lexeme =
      (tokensOf registry settings previous right second).map Token.lexeme := by
  induction first generalizing second previous left right with
  | nil =>
    obtain rfl := List.map_eq_nil_iff.mp same.symm
    rfl
  | cons slice rest ih =>
    cases second with
    | nil => cases same
    | cons other others =>
      obtain ⟨lexeme, remaining⟩ := List.cons.inj same
      simp only [tokensOf, lexeme, List.map_append, List.map_cons]
      rw [map_lexeme_signsOf _ _ _ _ _ (right + other.blanks.length), ih remaining]

theorem position_of_mem_own {previous : Option (Lexeme α)} {lexeme : Lexeme α} {place : Nat} :
    ∀ token ∈ signsOf registry settings previous lexeme place ++ [⟨lexeme, place⟩],
      token.position = place := by
  unfold signsOf
  split
  · simp
  · simp

theorem le_position_of_mem_tokensOf {previous : Option (Lexeme α)} {position : Nat}
    {slices : List (Slice α)} {token : Token α}
    (member : token ∈ tokensOf registry settings previous position slices) :
    position ≤ token.position := by
  induction slices generalizing previous position with
  | nil => cases member
  | cons slice rest ih =>
    rw [tokensOf_cons] at member
    rcases List.mem_append.mp member with own | later
    · rw [position_of_mem_own token own]
      exact Nat.le_add_right _ _
    · have := ih later
      omega

theorem lt_position_of_mem_tokensOf {previous : Option (Lexeme α)} {place : Nat}
    {characters : List Char} (some : characters ≠ []) {slices : List (Slice α)} :
    ∀ token ∈ tokensOf registry settings previous (place + characters.length) slices,
      place < token.position := by
  intro token member
  have later := le_position_of_mem_tokensOf member
  have positive := List.length_pos_iff.mpr some
  omega

theorem append_inj_of_position {place : Nat} {first second left right : List (Token α)}
    (one : ∀ token ∈ first, token.position = place) (other : ∀ token ∈ second, token.position = place)
    (later : ∀ token ∈ left, place < token.position) (behind : ∀ token ∈ right, place < token.position)
    (same : first ++ left = second ++ right) : first = second ∧ left = right := by
  have front {own rest : List (Token α)} (here : ∀ token ∈ own, token.position = place)
      (after : ∀ token ∈ rest, place < token.position) :
      (own ++ rest).filter (fun token => token.position == place) = own := by
    rw [List.filter_append, List.filter_eq_self.mpr (by simpa using here),
      List.filter_eq_nil_iff.mpr (fun token member => by simpa using Nat.ne_of_gt (after token member)),
      List.append_nil]
  have alike : first = second := by
    rw [← front one later, same, front other behind]
  exact ⟨alike, List.append_cancel_left (alike ▸ same)⟩

namespace Slicing

variable {text tail : List Char} {slice : Slice α} {rest : List (Slice α)}

theorem behind (slicing : Slicing text (slice :: rest) tail) :
    Slicing (textOf rest tail) rest tail where
  whole := rfl
  blank other member := slicing.blank other (List.mem_cons_of_mem slice member)
  solid other member := slicing.solid other (List.mem_cons_of_mem slice member)
  tail := slicing.tail

/-- The blanks before the first slice are all those that its text starts with. -/
theorem takeWhile_isBlank (slicing : Slicing text (slice :: rest) tail) :
    text.takeWhile isBlank = slice.blanks := by
  obtain ⟨some, solid⟩ := slicing.solid slice List.mem_cons_self
  obtain ⟨c, others, same⟩ := List.exists_cons_of_ne_nil some
  rw [slicing.whole, textOf, List.takeWhile_append_of_pos (slicing.blank slice List.mem_cons_self),
    same, List.cons_append, List.takeWhile_cons_of_neg (by simp [solid c (by simp [same])]),
    List.append_nil]

/-- Where slices have the tokens of others that start behind some more characters, there are no more. -/
theorem eq_nil_of_tokensOf {slices others : List (Slice α)} {more after : List Char}
    (slicing : Slicing (more ++ after) slices tail) (solid : ∀ c ∈ more, isBlank c = false)
    {previous : Option (Lexeme α)} {place : Nat}
    (same : tokensOf registry settings previous place slices =
      tokensOf registry settings previous (place + more.length) others) : more = [] := by
  cases more with
  | nil => rfl
  | cons c following =>
    have unblank := solid c List.mem_cons_self
    cases slices with
    | nil =>
      have whole : (c :: following) ++ after = tail := slicing.whole
      have blank := slicing.tail c (by simp [← whole])
      rw [unblank] at blank
      cases blank
    | cons slice rest =>
      have none : slice.blanks = [] := by
        rw [← slicing.takeWhile_isBlank, List.cons_append, List.takeWhile_cons_of_neg (by simp [unblank])]
      have member : ⟨slice.lexeme, place⟩ ∈
          tokensOf registry settings previous place (slice :: rest) := by
        simp [tokensOf, none]
      rw [same] at member
      have later : place + (c :: following).length ≤ place := le_position_of_mem_tokensOf member
      rw [List.length_cons] at later
      omega

/-- Characters in front of slices end where the tokens of the slices start. -/
theorem append_inj_of_tokensOf {characters letters first second left right : List Char}
    {slices others : List (Slice α)} (one : Slicing first slices left)
    (other : Slicing second others right) (solid : ∀ c ∈ characters, isBlank c = false)
    (unblank : ∀ c ∈ letters, isBlank c = false)
    (text : characters ++ first = letters ++ second) {previous : Option (Lexeme α)} {place : Nat}
    (same : tokensOf registry settings previous (place + characters.length) slices =
      tokensOf registry settings previous (place + letters.length) others) :
    characters = letters ∧ first = second := by
  have alike : characters = letters := by
    rcases List.append_eq_append_iff.mp text with ⟨more, rfl, behind⟩ | ⟨more, rfl, behind⟩
    · rw [List.length_append, ← Nat.add_assoc] at same
      have one : Slicing (more ++ second) slices left := behind ▸ one
      rw [one.eq_nil_of_tokensOf (List.forall_mem_append.mp unblank).2 same, List.append_nil]
    · rw [List.length_append, ← Nat.add_assoc] at same
      have other : Slicing (more ++ first) others right := behind ▸ other
      rw [other.eq_nil_of_tokensOf (List.forall_mem_append.mp solid).2 same.symm, List.append_nil]
  exact ⟨alike, List.append_cancel_left (alike ▸ text)⟩

/-- Slices of one text with the same tokens are the same. -/
theorem unique {first second : List (Slice α)} {left right : List Char}
    (one : Slicing text first left) (other : Slicing text second right)
    {previous : Option (Lexeme α)} {position : Nat}
    (same : tokensOf registry settings previous position first =
      tokensOf registry settings previous position second) : first = second ∧ left = right := by
  induction first generalizing text second previous position with
  | nil =>
    cases second with
    | nil => exact ⟨rfl, one.whole.symm.trans other.whole⟩
    | cons slice rest => simp [tokensOf] at same
  | cons slice rest ih =>
    cases second with
    | nil => simp [tokensOf] at same
    | cons next others =>
      have blanks : slice.blanks = next.blanks :=
        one.takeWhile_isBlank.symm.trans other.takeWhile_isBlank
      have text : slice.characters ++ textOf rest left = next.characters ++ textOf others right := by
        have whole := one.whole.symm.trans other.whole
        rw [textOf, textOf, blanks] at whole
        exact List.append_cancel_left whole
      obtain ⟨some, solid⟩ := one.solid slice List.mem_cons_self
      obtain ⟨present, unblank⟩ := other.solid next List.mem_cons_self
      rw [tokensOf_cons, tokensOf_cons, blanks] at same
      obtain ⟨own, apart⟩ := append_inj_of_position position_of_mem_own position_of_mem_own
        (lt_position_of_mem_tokensOf some) (lt_position_of_mem_tokensOf present) same
      have lexeme : slice.lexeme = next.lexeme := by
        simpa using List.append_inj_right' own rfl
      rw [lexeme] at apart
      obtain ⟨characters, texts⟩ :=
        one.behind.append_inj_of_tokensOf other.behind solid unblank text apart
      rw [characters] at apart
      obtain ⟨rfl, rfl⟩ := ih (texts ▸ one.behind) other.behind apart
      exact ⟨congrArg (· :: rest) (Slice.ext blanks characters lexeme), rfl⟩

end Slicing

end Scan

end Reckoner

import Reckoner.Proofs.Unicode.Folding
import Reckoner.Text.Literal

/-! Literals at the start of a text: their characters are those of numerals and units, and a literal is
read in the same way if a blank follows it or what it was read before. -/

namespace Reckoner

open Reckoner.Unicode

/-- The characters of numerals: digits, a point, the letter of an exponent, and signs. -/
def InNumerals (c : Char) : Prop :=
  isDecimalDigit c = true ∨ c ∈ ['.', 'e', 'E', '+', '-']

instance (c : Char) : Decidable (InNumerals c) := inferInstanceAs (Decidable (_ ∨ _))

theorem not_isBlank_of_inNumerals {c : Char} (among : InNumerals c) : isBlank c = false := by
  apply Bool.eq_false_iff.mpr
  intro blank
  rcases among with digit | mark
  · rw [not_isDecimalDigit_of_isBlank blank] at digit
    cases digit
  · have unblank : ['.', 'e', 'E', '+', '-'].all (!isBlank ·) = true := by decide
    have other := List.all_eq_true.mp unblank c mark
    rw [blank] at other
    cases other

namespace LiteralStyle

/-! ### Characters -/

theorem span_eq_nil (style : LiteralStyle) {c : Char} (digit : isDecimalDigit c = false) (point : c ≠ '.')
    (text : List Char) : (style.span (c :: text)).1 = [] := by
  cases style <;> simp [span, spanDecimal, spanSignificand, spanDigits, digit, point]

theorem mem_spanDigits {text : List Char} {c : Char} (member : c ∈ (spanDigits text).1) :
    InNumerals c :=
  .inl (List.all_eq_true.mp List.all_takeWhile c member)

theorem mem_spanSignificand {text : List Char} {c : Char} (member : c ∈ (spanSignificand text).1) :
    InNumerals c := by
  unfold spanSignificand at member
  split at member
  rename_i whole rest same
  have digits : ∀ c ∈ whole, InNumerals c := fun c among =>
    mem_spanDigits (by rw [same]; exact among)
  split at member
  · rename_i after
    split at member
    rename_i fraction others apart
    split at member
    · cases member
    · rcases List.mem_append.mp member with among | behind
      · exact digits c among
      · rcases List.mem_cons.mp behind with rfl | among
        · exact .inr (by decide)
        · exact mem_spanDigits (by rw [apart]; exact among)
  · exact digits c member

theorem mem_spanSign {text : List Char} {c : Char} (member : c ∈ (spanSign text).1) :
    InNumerals c := by
  unfold spanSign at member
  split at member
  · rename_i sign rest
    split at member
    · rename_i isSign
      rw [List.mem_singleton.mp member]
      have cases : sign = '+' ∨ sign = '-' := by simpa using isSign
      rcases cases with rfl | rfl
      · exact .inr (by decide)
      · exact .inr (by decide)
    · cases member
  · cases member

theorem mem_spanExponent {text : List Char} {c : Char} (member : c ∈ (spanExponent text).1) :
    InNumerals c := by
  unfold spanExponent at member
  split at member
  · rename_i mark rest
    split at member
    rename_i sign after same
    split at member
    rename_i digits others apart
    split at member
    · rename_i read
      rcases List.mem_append.mp member with first | behind
      · rcases List.mem_cons.mp first with rfl | among
        · have marked : c = 'e' ∨ c = 'E' := by simpa using (Bool.and_eq_true_iff.mp read).1
          rcases marked with rfl | rfl
          · exact .inr (by decide)
          · exact .inr (by decide)
        · exact mem_spanSign (by rw [same]; exact among)
      · exact mem_spanDigits (by rw [apart]; exact behind)
    · cases member
  · cases member

theorem mem_spanDecimal {text : List Char} {c : Char} (member : c ∈ (spanDecimal text).1) :
    InNumerals c := by
  unfold spanDecimal at member
  split at member
  rename_i significand rest same
  split at member
  rename_i exponent others apart
  split at member
  · cases member
  · rcases List.mem_append.mp member with first | behind
    · exact mem_spanSignificand (by rw [same]; exact first)
    · exact mem_spanExponent (by rw [apart]; exact behind)

theorem mem_spanUnit {text : List Char} {c : Char} (member : c ∈ (spanUnit text).1) :
    c = 'i' ∨ c = 'j' := by
  unfold spanUnit at member
  split at member
  · split at member
    · rename_i unit rest read
      rw [List.mem_singleton.mp member]
      simpa using (Bool.and_eq_true_iff.mp read).1
    · cases member
  · cases member

theorem not_isBlank_of_mem_span {style : LiteralStyle} {text : List Char} {c : Char}
    (member : c ∈ (style.span text).1) : isBlank c = false := by
  cases style with
  | decimal => exact not_isBlank_of_inNumerals (mem_spanDecimal member)
  | integer => exact not_isBlank_of_inNumerals (mem_spanDigits member)
  | complex =>
    rw [span] at member
    split at member
    rename_i number rest same
    split at member
    rename_i unit others apart
    split at member
    · cases member
    · rcases List.mem_append.mp member with first | behind
      · exact not_isBlank_of_inNumerals (mem_spanDecimal (by rw [same]; exact first))
      · rcases mem_spanUnit (by rw [apart]; exact behind) with rfl | rfl
        · decide
        · decide

/-! ### A blank behind a literal -/

theorem spanDigits_space (text after : List Char) :
    spanDigits (text ++ ' ' :: after) =
      ((spanDigits text).1, (spanDigits text).2 ++ ' ' :: after) := by
  have blank : isDecimalDigit ' ' = false := not_isDecimalDigit_of_isBlank (by decide)
  induction text with
  | nil => simp [spanDigits, blank]
  | cons c rest ih =>
    simp only [spanDigits, Prod.mk.injEq] at ih
    cases digit : isDecimalDigit c with
    | true => simp [spanDigits, digit, ih.1, ih.2]
    | false => simp [spanDigits, digit]

theorem spanSignificand_space (text after : List Char) :
    spanSignificand (text ++ ' ' :: after) =
      ((spanSignificand text).1, (spanSignificand text).2 ++ ' ' :: after) := by
  unfold spanSignificand
  rw [spanDigits_space]
  rcases spanDigits text with ⟨whole, rest⟩
  cases rest with
  | nil => rfl
  | cons c behind =>
    by_cases point : c = '.'
    · subst point
      simp only [List.cons_append, spanDigits_space]
      split <;> rfl
    · simp [point]

theorem spanSign_space (text after : List Char) :
    spanSign (text ++ ' ' :: after) = ((spanSign text).1, (spanSign text).2 ++ ' ' :: after) := by
  cases text with
  | nil => rfl
  | cons c rest =>
    simp only [spanSign, List.cons_append]
    split <;> rfl

theorem spanExponent_space (text after : List Char) :
    spanExponent (text ++ ' ' :: after) =
      ((spanExponent text).1, (spanExponent text).2 ++ ' ' :: after) := by
  cases text with
  | nil => rfl
  | cons mark rest =>
    simp only [spanExponent, List.cons_append, spanSign_space, spanDigits_space]
    split <;> rfl

theorem spanDecimal_space (text after : List Char) :
    spanDecimal (text ++ ' ' :: after) =
      ((spanDecimal text).1, (spanDecimal text).2 ++ ' ' :: after) := by
  simp only [spanDecimal, spanSignificand_space, spanExponent_space]
  split <;> rfl

theorem spanUnit_space (text after : List Char) :
    spanUnit (text ++ ' ' :: after) = ((spanUnit text).1, (spanUnit text).2 ++ ' ' :: after) := by
  cases text with
  | nil => rfl
  | cons c rest =>
    have head : (rest ++ ' ' :: after).head?.any isWord = rest.head?.any isWord := by
      cases rest with
      | nil => exact not_isWord_of_isBlank (by decide)
      | cons d others => rfl
    simp only [spanUnit, List.cons_append, head]
    split <;> rfl

theorem span_space (style : LiteralStyle) (text after : List Char) :
    style.span (text ++ ' ' :: after) =
      ((style.span text).1, (style.span text).2 ++ ' ' :: after) := by
  cases style with
  | decimal => exact spanDecimal_space text after
  | integer => exact spanDigits_space text after
  | complex =>
    simp only [span, spanDecimal_space, spanUnit_space]
    split <;> rfl

/-! ### A literal in the front of a text -/

theorem spanDigits_front {text after : List Char}
    (fits : (spanDigits (text ++ after)).1.length ≤ text.length) :
    spanDigits (text ++ after) = ((spanDigits text).1, (spanDigits text).2 ++ after) := by
  induction text with
  | nil =>
    have none : (spanDigits after).1 = [] := List.eq_nil_of_length_eq_zero (Nat.le_zero.mp fits)
    have whole := spanDigits_append after
    rw [none] at whole
    exact Prod.ext none whole
  | cons c rest ih =>
    cases digit : isDecimalDigit c with
    | true =>
      have kept := ih (by simpa [spanDigits, digit] using fits)
      simp only [spanDigits, Prod.mk.injEq] at kept
      simp [spanDigits, digit, kept.1, kept.2]
    | false => simp [spanDigits, digit]

theorem length_spanDigits (text : List Char) :
    (spanDigits text).1.length + (spanDigits text).2.length = text.length := by
  rw [← List.length_append, spanDigits_append]

theorem length_spanDigits_le (text : List Char) : (spanDigits text).1.length ≤ (spanSignificand text).1.length := by
  unfold spanSignificand
  rcases spanDigits text with ⟨whole, rest⟩
  dsimp only
  split
  · rename_i behind
    rcases spanDigits behind with ⟨fraction, others⟩
    dsimp only
    split
    · rename_i neither
      simp_all
    · simp
  · exact Nat.le_refl _

theorem spanSignificand_front {text after : List Char}
    (fits : (spanSignificand (text ++ after)).1.length ≤ text.length) :
    spanSignificand (text ++ after) =
      ((spanSignificand text).1, (spanSignificand text).2 ++ after) := by
  have long := Nat.le_trans (length_spanDigits_le _) fits
  have whole := length_spanDigits text
  unfold spanSignificand at fits ⊢
  rw [spanDigits_front long] at fits ⊢
  generalize spanDigits text = parts at fits whole ⊢
  obtain ⟨digits, rest⟩ := parts
  dsimp only at fits whole ⊢
  cases rest with
  | nil =>
    cases after with
    | nil => rfl
    | cons c others =>
      by_cases point : c = '.'
      · subst point
        simp only [List.nil_append] at fits ⊢
        split at fits
        · rename_i neither
          obtain ⟨rfl, none⟩ : digits = [] ∧ (spanDigits others).1 = [] := by simpa using neither
          obtain rfl : text = [] := List.eq_nil_of_length_eq_zero whole.symm
          simp [none]
        · simp at fits whole
          omega
      · simp [point]
  | cons c behind =>
    by_cases point : c = '.'
    · subst point
      simp only [List.cons_append] at fits ⊢
      have short : (spanDigits (behind ++ after)).1.length ≤ behind.length := by
        split at fits
        · rename_i neither
          simp_all
        · simp at fits whole
          omega
      rw [spanDigits_front short]
      split
      · rfl
      · rfl
    · simp [point]

theorem eq_of_front_nil {parts : List Char × List Char} {after : List Char}
    (whole : parts.1 ++ parts.2 = after) (fits : parts.1.length ≤ 0) : parts = ([], after) := by
  have none : parts.1 = [] := List.eq_nil_of_length_eq_zero (Nat.le_zero.mp fits)
  rw [none] at whole
  exact Prod.ext none whole

theorem spanSign_front {text after : List Char} (some : text ≠ []) :
    spanSign (text ++ after) = ((spanSign text).1, (spanSign text).2 ++ after) := by
  cases text with
  | nil => exact absurd rfl some
  | cons c rest =>
    simp only [spanSign, List.cons_append]
    split <;> rfl

theorem spanExponent_front {text after : List Char}
    (fits : (spanExponent (text ++ after)).1.length ≤ text.length) :
    spanExponent (text ++ after) = ((spanExponent text).1, (spanExponent text).2 ++ after) := by
  cases text with
  | nil => exact eq_of_front_nil (spanExponent_append after) fits
  | cons mark rest =>
    cases marked : mark == 'e' || mark == 'E' with
    | false => simp [spanExponent, marked]
    | true =>
      simp only [spanExponent, List.cons_append, marked, Bool.true_and] at fits ⊢
      by_cases some : rest = []
      · subst some
        have none : (spanDigits (spanSign after).2).1 = [] := by
          apply Classical.byContradiction
          intro digits
          simp [digits] at fits
        have nothing : (spanDigits (spanSign []).2).1 = [] := rfl
        simp only [List.nil_append, none, nothing]
        rfl
      · rw [spanSign_front some] at fits ⊢
        have whole := congrArg List.length (spanSign_append rest)
        rw [List.length_append] at whole
        have short : (spanDigits ((spanSign rest).2 ++ after)).1.length ≤ (spanSign rest).2.length := by
          split at fits
          · simp at fits
            omega
          · simp_all
        rw [spanDigits_front short]
        split <;> rfl

theorem length_spanSignificand_le (text : List Char) :
    (spanSignificand text).1.length ≤ (spanDecimal text).1.length := by
  simp only [spanDecimal]
  split
  · simp_all
  · simp

theorem spanDecimal_front {text after : List Char}
    (fits : (spanDecimal (text ++ after)).1.length ≤ text.length) :
    spanDecimal (text ++ after) = ((spanDecimal text).1, (spanDecimal text).2 ++ after) := by
  have long := Nat.le_trans (length_spanSignificand_le (text ++ after)) fits
  have whole := congrArg List.length (spanSignificand_append text)
  rw [List.length_append] at whole
  simp only [spanDecimal] at fits ⊢
  rw [spanSignificand_front long] at fits ⊢
  generalize spanSignificand text = parts at fits whole ⊢
  obtain ⟨significand, rest⟩ := parts
  dsimp only at fits whole ⊢
  split at fits
  · rename_i none
    simp [none]
  · rename_i some
    have short : (spanExponent (rest ++ after)).1.length ≤ rest.length := by
      rw [List.length_append] at fits
      omega
    simp [some, spanExponent_front short]

theorem spanUnit_front {text after : List Char}
    (fits : (spanUnit (text ++ after)).1.length ≤ text.length)
    (apart : ∀ c, text = [c] → c = 'i' ∨ c = 'j' → after.head?.any isWord = false) :
    spanUnit (text ++ after) = ((spanUnit text).1, (spanUnit text).2 ++ after) := by
  cases text with
  | nil => exact eq_of_front_nil (spanUnit_append after) fits
  | cons c rest =>
    cases unit : c == 'i' || c == 'j' with
    | false => simp [spanUnit, unit]
    | true =>
      have head : (rest ++ after).head?.any isWord = rest.head?.any isWord := by
        cases rest with
        | nil => exact apart c rfl (by simpa using unit)
        | cons d others => rfl
      simp only [spanUnit, List.cons_append, head]
      split <;> rfl

/-- A literal is read from the front of a text that holds it, unless that front ends with a unit that is
read as part of a word. -/
theorem span_front {style : LiteralStyle} {text after : List Char}
    (fits : (style.span (text ++ after)).1.length ≤ text.length)
    (apart : ∀ c, text = (style.span (text ++ after)).1 ++ [c] → c = 'i' ∨ c = 'j' →
      (style.span (text ++ after)).1 ≠ [] → after.head?.any isWord = false) :
    (style.span text).1 = (style.span (text ++ after)).1 := by
  cases style with
  | decimal => rw [span, span, spanDecimal_front fits]
  | integer => rw [span, span, spanDigits_front fits]
  | complex =>
    have long : (spanDecimal (text ++ after)).1.length ≤ text.length := by
      refine Nat.le_trans ?_ fits
      simp only [span]
      split
      · rename_i none
        simp [List.isEmpty_iff.mp none]
      · simp
    have whole := spanDecimal_append text
    simp only [span] at fits apart ⊢
    rw [spanDecimal_front long] at fits apart ⊢
    generalize spanDecimal text = parts at fits apart whole ⊢
    obtain ⟨number, rest⟩ := parts
    dsimp only at fits apart whole ⊢
    split at fits
    · rename_i none
      simp [none]
    · rename_i some
      have short : (spanUnit (rest ++ after)).1.length ≤ rest.length := by
        rw [← whole, List.length_append, List.length_append] at fits
        omega
      have unit : ∀ c, rest = [c] → c = 'i' ∨ c = 'j' → after.head?.any isWord = false := by
        rintro c rfl imaginary
        apply Bool.eq_false_iff.mpr
        intro word
        have refused : (spanUnit ([c] ++ after)).1 = [] := by simp [spanUnit, word]
        rw [if_neg some] at apart
        dsimp only at apart
        rw [refused, List.append_nil] at apart
        rw [apart c whole.symm imaginary (by simpa using some)] at word
        cases word
      simp [some, spanUnit_front short unit]

end LiteralStyle

end Reckoner

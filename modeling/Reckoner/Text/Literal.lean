import Reckoner.Text.Scientific
import Reckoner.Unicode.Word

/-! Literals at the start of a text: the longest one that the style of a number system admits. -/

namespace Reckoner

open Reckoner.Unicode

inductive LiteralStyle where
  /-- Digits with an optional fraction and an optional exponent. -/
  | decimal
  /-- The same with an optional imaginary unit behind it. -/
  | complex
  /-- Digits alone. -/
  | integer
  deriving Repr, DecidableEq

namespace LiteralStyle

/-- Digits with an optional point among them. Nothing is read without a digit. -/
def spanSignificand (text : List Char) : List Char × List Char :=
  let (whole, rest) := spanDigits text
  match rest with
  | '.' :: after =>
    let (fraction, others) := spanDigits after
    if whole.isEmpty && fraction.isEmpty then ([], text) else (whole ++ '.' :: fraction, others)
  | _ => (whole, rest)

def spanSign (text : List Char) : List Char × List Char :=
  match text with
  | c :: rest => if c == '+' || c == '-' then ([c], rest) else ([], text)
  | [] => ([], [])

/-- An exponent mark, an optional sign and digits; without digits nothing is read. -/
def spanExponent (text : List Char) : List Char × List Char :=
  match text with
  | mark :: rest =>
    let (sign, after) := spanSign rest
    let (digits, others) := spanDigits after
    if (mark == 'e' || mark == 'E') && !digits.isEmpty then (mark :: sign ++ digits, others)
    else ([], text)
  | [] => ([], [])

def spanDecimal (text : List Char) : List Char × List Char :=
  let (significand, rest) := spanSignificand text
  let (exponent, others) := spanExponent rest
  if significand.isEmpty then ([], text) else (significand ++ exponent, others)

/-- An imaginary unit that no word character follows. -/
def spanUnit (text : List Char) : List Char × List Char :=
  match text with
  | c :: rest =>
    if (c == 'i' || c == 'j') && !rest.head?.any isWord then ([c], rest) else ([], text)
  | [] => ([], [])

/-- Splits a text behind its literal; the first part is empty if there is none. -/
def span : LiteralStyle → List Char → List Char × List Char
  | decimal, text => spanDecimal text
  | integer, text => spanDigits text
  | complex, text =>
    let (number, rest) := spanDecimal text
    let (unit, others) := spanUnit rest
    if number.isEmpty then ([], text) else (number ++ unit, others)

theorem spanSignificand_append (text : List Char) :
    (spanSignificand text).1 ++ (spanSignificand text).2 = text := by
  have whole := spanDigits_append text
  unfold spanSignificand
  split
  rename_i first rest same
  rw [same] at whole
  split
  · rename_i after
    have fraction := spanDigits_append after
    split
    rename_i digits others apart
    rw [apart] at fraction
    split <;> simp_all
  · exact whole

theorem spanSign_append (text : List Char) : (spanSign text).1 ++ (spanSign text).2 = text := by
  unfold spanSign
  split
  · split <;> rfl
  · rfl

theorem spanExponent_append (text : List Char) :
    (spanExponent text).1 ++ (spanExponent text).2 = text := by
  unfold spanExponent
  split
  · rename_i mark rest
    have whole := spanSign_append rest
    split
    rename_i sign after same
    have behind := spanDigits_append after
    rw [same] at whole
    dsimp only at whole ⊢
    split
    · simp [behind, whole]
    · rfl
  · rfl

theorem spanDecimal_append (text : List Char) :
    (spanDecimal text).1 ++ (spanDecimal text).2 = text := by
  have whole := spanSignificand_append text
  unfold spanDecimal
  split
  rename_i significand rest same
  have behind := spanExponent_append rest
  rw [same] at whole
  split
  rename_i exponent others apart
  rw [apart] at behind
  dsimp only at whole behind ⊢
  split
  · rfl
  · simp [behind, whole]

theorem spanUnit_append (text : List Char) : (spanUnit text).1 ++ (spanUnit text).2 = text := by
  unfold spanUnit
  split
  · split <;> rfl
  · rfl

theorem span_append (style : LiteralStyle) (text : List Char) :
    (style.span text).1 ++ (style.span text).2 = text := by
  cases style with
  | decimal => exact spanDecimal_append text
  | integer => exact spanDigits_append text
  | complex =>
    have whole := spanDecimal_append text
    rw [span]
    split
    rename_i number rest same
    have behind := spanUnit_append rest
    rw [same] at whole
    split
    rename_i unit others apart
    rw [apart] at behind
    dsimp only at whole behind ⊢
    split
    · rfl
    · simp [behind, whole]

def pattern : LiteralStyle → String
  | decimal => "(?:\\d+(?:\\.\\d*)?|\\.\\d+)(?:[eE][+-]?\\d+)?"
  | complex => "(?:\\d+(?:\\.\\d*)?|\\.\\d+)(?:[eE][+-]?\\d+)?(?:[ij](?!\\w))?"
  | integer => "\\d+"

end LiteralStyle

end Reckoner

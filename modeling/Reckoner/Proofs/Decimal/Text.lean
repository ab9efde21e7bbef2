import Reckoner.Decimal.Text
import Reckoner.Proofs.Text.Digits

/-! Decimals read from numerals are finite: the words for what is not finite have letters that no literal
and no text of a finite double has. -/

namespace Reckoner

open Reckoner.Unicode

theorem inNumerals_of_isDigit {c : Char} (digit : c.isDigit = true) : InNumerals c :=
  .inl (isDecimalDigit_of_isDigit digit)

/-! ### Words -/

/-- No character of a numeral is the letter that all words for no finite number have. -/
theorem toLower_ne_of_inNumerals {c : Char} (among : InNumerals c) : c.toLower ≠ 'n' := by
  intro same
  have letter : c = 'n' ∨ c = 'N' := by
    unfold Char.toLower at same
    split at same
    · right
      have code : c.val + 32 = 110 := congrArg Char.val same
      exact Char.ext (by rw [← UInt32.add_sub_cancel c.val 32, code]; rfl)
    · exact .inl same
  rcases letter with rfl | rfl
  · exact absurd among (by decide)
  · exact absurd among (by decide)

theorem mem_of_splitSign {text : List Char} {c : Char}
    (member : c ∈ (Scientific.splitSign text).2) : c ∈ text := by
  unfold Scientific.splitSign at member
  split at member
  · exact List.mem_cons_of_mem _ member
  · exact List.mem_cons_of_mem _ member
  · exact member

theorem Decimal.isFinite_of_read? {text : List Char} (numeral : ∀ c ∈ text, InNumerals c)
    {x : Decimal} (read : Decimal.read? text = some x) : x.isFinite = true := by
  unfold Decimal.read? at read
  rcases signed : Scientific.splitSign text with ⟨negative, rest⟩
  rw [signed] at read
  have letter (part : List Char) (among : ∀ c ∈ part, c ∈ rest) : 'n' ∉ part.map Char.toLower := by
    intro member
    obtain ⟨c, present, same⟩ := List.mem_map.mp member
    have given := numeral c (mem_of_splitSign (by rw [signed]; exact among c present))
    exact toLower_ne_of_inNumerals given same
  have noWord (word : String) (spelled : 'n' ∈ word.toList) :
      Binary64.isWordInAnyCase rest word = false := by
    apply beq_eq_false_iff_ne.mpr
    intro same
    exact letter rest (fun c member => member) (same ▸ spelled)
  have noPrefix (word : String) (spelled : 'n' ∈ word.toList) : dropWord? word rest = none := by
    apply if_neg
    intro same
    exact letter _ (fun c member => List.mem_of_mem_take member) (same ▸ spelled)
  dsimp only at read
  split at read
  · cases read
    rfl
  · simp [noWord "inf" (by decide), noWord "infinity" (by decide), noPrefix "nan" (by decide),
      noPrefix "snan" (by decide)] at read

/-! ### Texts of doubles -/

/-- Whether a text has the characters of numerals only. -/
def Numeric (text : String) : Prop := ∀ c ∈ text.toList, InNumerals c

instance (text : String) : Decidable (Numeric text) :=
  List.decidableBAll InNumerals text.toList

namespace Numeric

theorem append {first second : String} (left : Numeric first) (right : Numeric second) :
    Numeric (first ++ second) := by
  unfold Numeric
  rw [String.toList_append]
  exact List.forall_mem_append.mpr ⟨left, right⟩

theorem ofList {characters : List Char} (among : ∀ c ∈ characters, InNumerals c) :
    Numeric (String.ofList characters) := by
  unfold Numeric
  rw [String.toList_ofList]
  exact among

theorem ite {condition : Prop} [Decidable condition] {first second : String} (left : Numeric first)
    (right : Numeric second) : Numeric (if condition then first else second) := by
  split
  · exact left
  · exact right

theorem toString (n : Nat) : Numeric (toString n) := by
  apply ofList
  intro _ member
  exact inNumerals_of_isDigit (Nat.isDigit_of_mem_toDigits (by decide) (by decide) member)

end Numeric

namespace Binary64

theorem mem_trimZeros {digits : List Char} {c : Char} (member : c ∈ trimZeros digits) :
    c ∈ digits :=
  List.mem_reverse.mp ((List.dropWhile_suffix _).mem (List.mem_reverse.mp member))

theorem numeric_writeExponent (exponent : Int) : Numeric (writeExponent exponent) := by
  unfold writeExponent
  refine .append (.append (.append (by decide) (.ite (by decide) (by decide))) ?_) (.toString _)
  exact .ite (by decide) (by decide)

theorem numeric_layout {digits : List Char} (among : ∀ c ∈ digits, InNumerals c) (leading : Int)
    (point : Bool) : Numeric (layout digits leading point) := by
  have zeros (count : Nat) : ∀ c ∈ List.replicate count '0', InNumerals c := by
    intro c member
    rw [List.eq_of_mem_replicate member]
    decide
  have taken (count : Nat) : ∀ c ∈ digits.take count, InNumerals c :=
    fun c member => among c (List.mem_of_mem_take member)
  have dropped (count : Nat) : ∀ c ∈ digits.drop count, InNumerals c :=
    fun c member => among c (List.mem_of_mem_drop member)
  unfold layout
  refine .ite (.append (by decide) (.ofList ?_)) (.ite ?_ ?_)
  · exact List.forall_mem_append.mpr ⟨zeros _, among⟩
  · refine .append (.ofList (List.forall_mem_append.mpr ⟨taken _, zeros _⟩)) ?_
    exact .ite (.ite (by decide) (by decide)) (.append (by decide) (.ofList (dropped _)))
  · refine .append (.append (.ofList (taken _)) ?_) (numeric_writeExponent _)
    exact .ite (by decide) (.append (by decide) (.ofList (dropped _)))

theorem isNaN_of_isFinite {x : Float} (finite : x.isFinite = true) : x.isNaN = false := by
  simp only [Float.isFinite, Float.Model.isFinite, Float.isNaN, Float.Model.isNaN] at *
  generalize x.toModel.unpack = unpacked at finite ⊢
  cases unpacked with
  | notANumber => cases finite
  | infinity => rfl
  | zero => rfl
  | finite => rfl

theorem isInf_of_isFinite {x : Float} (finite : x.isFinite = true) : x.isInf = false := by
  simp only [Float.isFinite, Float.Model.isFinite, Float.isInf, Float.Model.isInf] at *
  generalize x.toModel.unpack = unpacked at finite ⊢
  cases unpacked with
  | notANumber => rfl
  | infinity => cases finite
  | zero => rfl
  | finite => rfl

theorem numeric_write {x : Float} (finite : x.isFinite = true) : Numeric (write x) := by
  have digits (n : Nat) : ∀ c ∈ trimZeros (toString n).toList, InNumerals c :=
    fun c member => Numeric.toString n c (mem_trimZeros member)
  unfold write writeWith
  simp only [isNaN_of_isFinite finite, isInf_of_isFinite finite, Bool.false_eq_true, if_false]
  refine .ite (.append (.ite (by decide) (by decide)) (by decide)) ?_
  exact .append (.ite (by decide) (by decide)) (numeric_layout (digits _) _ _)

end Binary64

end Reckoner

import Reckoner.Proofs.Numeral
import Reckoner.Proofs.Text.Literal
import Reckoner.Text.Literal

/-! Digits that numbers are written with. What is written of a whole number is read as that number, and it
has as many digits as are counted. -/

namespace Reckoner

open Reckoner.Unicode

/-- Whether a text consists of the digits that numbers are written with. -/
def IsDigits (text : List Char) : Prop := ∀ c ∈ text, c.isDigit = true

namespace IsDigits

theorem append {first second : List Char} (left : IsDigits first) (right : IsDigits second) :
    IsDigits (first ++ second) :=
  List.forall_mem_append.mpr ⟨left, right⟩

theorem replicate_zero (count : Nat) : IsDigits (List.replicate count '0') := by
  intro c member
  rw [List.eq_of_mem_replicate member]
  rfl

theorem take {text : List Char} (digits : IsDigits text) (count : Nat) : IsDigits (text.take count) :=
  fun c member => digits c (List.mem_of_mem_take member)

theorem drop {text : List Char} (digits : IsDigits text) (count : Nat) : IsDigits (text.drop count) :=
  fun c member => digits c (List.mem_of_mem_drop member)

theorem toString (n : Nat) : IsDigits (toString n).toList := by
  intro c member
  have listed : c ∈ Nat.toDigits 10 n := by simpa using member
  exact Nat.isDigit_of_mem_toDigits (by decide) (by decide) listed

end IsDigits

theorem toString_ne_nil (n : Nat) : (toString n).toList ≠ [] := by
  rw [Nat.toString_eq_ofList_toDigits, String.toList_ofList]
  exact Nat.toDigits_ne_nil

/-! ### Values of digits -/

theorem digitValue?_of_isDigit {c : Char} (digit : c.isDigit = true) :
    digitValue? c = some (c.toNat - '0'.toNat) := by
  have bounds : 48 ≤ c.toNat ∧ c.toNat ≤ 57 := by
    simpa [Char.isDigit, UInt32.le_iff_toNat_le] using digit
  have zero : digitZero? digitZeros c.toNat = some 48 := by
    unfold digitZeros digitZero?
    rw [if_neg (by omega), if_pos (by omega)]
  rw [digitValue?, zero]
  rfl

theorem isDecimalDigit_of_isDigit {c : Char} (digit : c.isDigit = true) : isDecimalDigit c = true := by
  rw [isDecimalDigit, digitValue?_of_isDigit digit]
  rfl

namespace Numeral

theorem digitValues?_of_isDigits {text : List Char} (digits : IsDigits text) :
    digitValues? text = some (text.map fun c => c.toNat - '0'.toNat) := by
  induction text with
  | nil => rfl
  | cons c rest ih =>
    obtain ⟨first, others⟩ := List.forall_mem_cons.mp digits
    have tail := ih others
    rw [digitValues?] at tail ⊢
    rw [List.mapM_cons, digitValue?_of_isDigit first, tail]
    rfl

theorem ofDigits_map (text : List Char) :
    ofDigits (text.map fun c => c.toNat - '0'.toNat) = Nat.ofDigitChars 10 text 0 := by
  rw [ofDigits, List.foldl_map, Nat.ofDigitChars_eq_foldl]

theorem length_toString (n : Nat) : (toString n).toList.length = digitCount n := by
  have length (count : Nat) (positive : 0 < count) :
      (toString n).toList.length ≤ count ↔ digitCount n ≤ count := by
    have digits : (toString n).toList = Nat.toDigits 10 n := by simp
    rw [digits, digitCount_le_iff positive, Nat.length_toDigits_le_iff (by decide) positive]
  have some : 0 < (toString n).toList.length := List.length_pos_iff.mpr (toString_ne_nil n)
  have most := (length _ (digitCount_pos n)).mpr (Nat.le_refl _)
  have least := (length _ some).mp (Nat.le_refl _)
  exact Nat.le_antisymm most least

/-! ### Whole numbers -/

theorem strip_of_isDigits {text : List Char} (digits : IsDigits text) : strip text = text := by
  have unblank (part : List Char) (among : IsDigits part) : part.dropWhile isBlank = part := by
    cases part with
    | nil => rfl
    | cons c rest =>
      have solid := not_isBlank_of_inNumerals (.inl (isDecimalDigit_of_isDigit (among c List.mem_cons_self)))
      rw [List.dropWhile_cons, solid]
      rfl
  rw [strip, unblank text digits, unblank text.reverse, List.reverse_reverse]
  exact fun c member => digits c (List.mem_reverse.mp member)

theorem ungroup?_of_isDigits {text : List Char} (digits : IsDigits text) (some : text ≠ []) :
    ungroup? text = .some text := by
  have one : text.splitOn '_' = [text] := by
    apply List.splitOn_eq_singleton
    intro member
    exact absurd (digits '_' member) (by decide)
  simp [ungroup?, one, some]

theorem readNat?_toString {n : Nat} (short : digitCount n ≤ digitLimit) :
    readNat? (toString n).toList = some n := by
  have digits := IsDigits.toString n
  have value : Nat.ofDigitChars 10 (toString n).toList 0 = n := by simp
  rw [readNat?, ungroup?_of_isDigits digits (toString_ne_nil n)]
  simp only [Option.bind_eq_bind, Option.bind_some, digitValues?_of_isDigits digits, List.length_map,
    length_toString, if_pos short, ofDigits_map, value]

/-- What is written of a whole number that is not negative is read as that number. -/
theorem read?_toString {n : Nat} (short : digitCount n ≤ digitLimit) :
    read? (toString n).toList = some (n : Int) := by
  have digits := IsDigits.toString n
  have unsigned (sign : Char) (rest : List Char) (mark : sign.isDigit = false) :
      (toString n).toList ≠ sign :: rest := by
    intro same
    have digit := digits sign (by rw [same]; exact List.mem_cons_self)
    rw [mark] at digit
    cases digit
  unfold read?
  rw [strip_of_isDigits digits]
  split
  · rename_i rest same
    exact absurd same (unsigned '-' rest rfl)
  · rename_i rest same
    exact absurd same (unsigned '+' rest rfl)
  · rw [readNat?_toString short]
    rfl

end Numeral

/-! ### Digits at the start of a text -/

theorem spanDigits_of_isDigits {digits rest : List Char} (all : IsDigits digits)
    (stop : ∀ c ∈ rest.head?, isDecimalDigit c = false) :
    spanDigits (digits ++ rest) = (digits, rest) := by
  have taken : ∀ c ∈ digits, isDecimalDigit c = true :=
    fun c member => isDecimalDigit_of_isDigit (all c member)
  have none : rest.takeWhile isDecimalDigit = [] ∧ rest.dropWhile isDecimalDigit = rest := by
    cases rest with
    | nil => exact ⟨rfl, rfl⟩
    | cons c others => simp [stop c rfl]
  rw [spanDigits, List.takeWhile_append_of_pos taken, List.dropWhile_append_of_pos taken, none.1,
    none.2, List.append_nil]

theorem spanDigits_whole {digits : List Char} (all : IsDigits digits) :
    spanDigits digits = (digits, []) := by
  have split : spanDigits (digits ++ []) = (digits, []) := spanDigits_of_isDigits all nofun
  rwa [List.append_nil] at split

namespace Scientific

open Numeral

theorem digitsValue_of_isDigits {text : List Char} (digits : IsDigits text) :
    digitsValue text = Nat.ofDigitChars 10 text 0 := by
  have values : text.filterMap digitValue? = text.map fun c => c.toNat - '0'.toNat := by
    induction text with
    | nil => rfl
    | cons c rest ih =>
      obtain ⟨first, others⟩ := List.forall_mem_cons.mp digits
      rw [List.filterMap_cons, digitValue?_of_isDigit first, List.map_cons, ih others]
  rw [digitsValue, values, ofDigits_map]

theorem digitsValue_toString (n : Nat) : digitsValue (toString n).toList = n := by
  rw [digitsValue_of_isDigits (.toString n)]
  simp

end Scientific

end Reckoner

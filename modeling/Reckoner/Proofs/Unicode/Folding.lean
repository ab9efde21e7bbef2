import Reckoner.Unicode.Blank
import Reckoner.Unicode.Fold
import Reckoner.Unicode.Word
import Mathlib.Data.List.Chain

/-! Blanks, digits and case folding: no blank is part of a word or of a number, every decimal digit is part of a word,
and only a blank folds to a text with a blank. -/

namespace Reckoner.Unicode

/-! ### Blanks are apart from words and digits -/

theorem Ranges.not_has_of_apart {left right : Ranges}
    (apart : ∀ first ∈ left, ∀ second ∈ right, first.2 < second.1 ∨ second.2 < first.1) {code : Nat}
    (found : left.has code = true) : right.has code = false := by
  apply Bool.eq_false_iff.mpr
  intro other
  obtain ⟨first, listed, above, below⟩ := Ranges.mem_of_has found
  obtain ⟨second, member, least, most⟩ := Ranges.mem_of_has other
  have := apart first listed second member
  omega

theorem not_isWord_of_isBlank {c : Char} (blank : isBlank c = true) : isWord c = false := by
  have numeral : isAlphanumeric c = false :=
    Ranges.not_has_of_apart (by decide +kernel) blank
  have line : c ≠ '_' := by
    rintro rfl
    exact absurd blank (by decide)
  simp [isWord, numeral, line]

theorem mem_of_digitZero? {bases : List Nat} {code base : Nat}
    (found : digitZero? bases code = some base) : base ∈ bases := by
  induction bases with
  | nil => cases found
  | cons head rest ih =>
    unfold digitZero? at found
    split at found
    · cases found
    · split at found
      · cases found
        exact List.mem_cons_self
      · exact List.mem_cons_of_mem _ (ih found)

theorem not_isDecimalDigit_of_isBlank {c : Char} (blank : isBlank c = true) : isDecimalDigit c = false := by
  apply Bool.eq_false_iff.mpr
  intro digit
  obtain ⟨value, found⟩ := Option.isSome_iff_exists.mp digit
  obtain ⟨base, block, rfl⟩ := Option.map_eq_some_iff.mp found
  obtain ⟨least, most⟩ := digitZero?_bounds block
  obtain ⟨range, listed, above, below⟩ := Ranges.mem_of_has blank
  have apart : ∀ base ∈ digitZeros, ∀ range ∈ blankRanges, base + 10 ≤ range.1 ∨ range.2 < base := by
    decide +kernel
  have := apart base (mem_of_digitZero? block) range listed
  omega

/-! ### Decimal digits are parts of words -/

/-- Whether ranges are listed by their starts. -/
def Ranges.Ascending (ranges : Ranges) : Prop := ranges.Pairwise fun first second => first.1 ≤ second.1

theorem Ranges.has_of_mem {ranges : Ranges} (ascending : ranges.Ascending) {range : Nat × Nat}
    (member : range ∈ ranges)
    {code : Nat} (least : range.1 ≤ code) (most : code ≤ range.2) : ranges.has code = true := by
  induction ranges with
  | nil => cases member
  | cons first rest ih =>
    obtain ⟨later, others⟩ := List.pairwise_cons.mp ascending
    rw [Ranges.has, Bool.and_eq_true, Bool.or_eq_true, decide_eq_true_eq, decide_eq_true_eq]
    rcases List.mem_cons.mp member with rfl | behind
    · exact ⟨least, .inl most⟩
    · exact ⟨Nat.le_trans (later range behind) least, .inr (ih others behind)⟩

theorem alphanumericRanges_ascending : Ranges.Ascending alphanumericRanges := by
  have chain : (alphanumericRanges.map Prod.fst).IsChain (· ≤ ·) := by decide +kernel
  exact List.pairwise_map.mp (List.isChain_iff_pairwise.mp chain)

theorem isAlphanumeric_of_isDecimalDigit {c : Char} (digit : isDecimalDigit c = true) : isAlphanumeric c = true := by
  obtain ⟨value, found⟩ := Option.isSome_iff_exists.mp digit
  obtain ⟨base, block, rfl⟩ := Option.map_eq_some_iff.mp found
  obtain ⟨least, most⟩ := digitZero?_bounds block
  -- The comparisons are those of the kernel, which has to make one for every pair of a block and a range.
  have covered : (digitZeros.all fun base => alphanumericRanges.any fun range =>
      Nat.ble range.1 base && Nat.ble (base + 9) range.2) = true := by
    decide +kernel
  obtain ⟨range, member, bounds⟩ :=
    List.any_eq_true.mp (List.all_eq_true.mp covered base (mem_of_digitZero? block))
  rw [Bool.and_eq_true, Nat.ble_eq, Nat.ble_eq] at bounds
  exact Ranges.has_of_mem alphanumericRanges_ascending member (Nat.le_trans bounds.1 least) (by omega)

/-! ### Foldings of characters -/

theorem CaseRun.apply_cases (runs : List CaseRun) (code : Nat) : CaseRun.apply runs code = code ∨
    ∃ run ∈ runs, run.first ≤ code ∧ code ≤ run.last ∧
      CaseRun.apply runs code = (code + run.shift).toNat := by
  induction runs with
  | nil => exact .inl rfl
  | cons run rest ih =>
    unfold CaseRun.apply
    split
    · exact .inl rfl
    · split
      · exact ih.imp_right fun ⟨other, member, moved⟩ => ⟨other, List.mem_cons_of_mem _ member, moved⟩
      · split
        · exact .inr ⟨run, List.mem_cons_self, by omega, by omega, rfl⟩
        · exact .inl rfl

theorem mem_of_expansion? {table : List (Nat × List Nat)} {code : Nat} {image : List Nat}
    (found : expansion? table code = some image) : (code, image) ∈ table := by
  induction table with
  | nil => cases found
  | cons entry rest ih =>
    obtain ⟨key, other⟩ := entry
    unfold expansion? at found
    split at found
    · cases found
    · split at found
      · rename_i same
        cases found
        rw [same]
        exact List.mem_cons_self
      · exact List.mem_cons_of_mem _ (ih found)

/-- A character folds to its expansion, to itself or to what a run moves it to. -/
theorem foldChar_cases (c : Char) :
    (∃ entry ∈ foldExpansions, c.toNat = entry.1 ∧ foldChar c = entry.2.map Char.ofNat) ∨
      foldChar c = [c] ∨
      ∃ run ∈ foldRuns, run.first ≤ c.toNat ∧ c.toNat ≤ run.last ∧
        foldChar c = [Char.ofNat (c.toNat + run.shift).toNat] := by
  unfold foldChar
  split
  · rename_i image found
    exact .inl ⟨(c.toNat, image), mem_of_expansion? found, rfl, rfl⟩
  · refine .inr ?_
    rcases CaseRun.apply_cases foldRuns c.toNat with same | ⟨run, member, above, below, moved⟩
    · rw [same, Char.ofNat_toNat]
      exact .inl rfl
    · rw [moved]
      exact .inr ⟨run, member, above, below, rfl⟩

theorem toNat_ofNat_cases (code : Nat) : (Char.ofNat code).toNat = code ∨ (Char.ofNat code).toNat = 0 := by
  by_cases valid : code.isValidChar
  · rw [Char.ofNat, dif_pos valid]
    exact .inl rfl
  · rw [Char.ofNat, dif_neg valid]
    exact .inr rfl

/-! ### Foldings with blanks -/

theorem foldChar_of_isBlank {c : Char} (blank : isBlank c = true) : foldChar c = [c] := by
  obtain ⟨range, listed, least, most⟩ := Ranges.mem_of_has blank
  rcases foldChar_cases c with ⟨entry, member, same, _⟩ | kept | ⟨run, member, above, below, _⟩
  · have apart : ∀ entry ∈ foldExpansions, ∀ range ∈ blankRanges,
        entry.1 < range.1 ∨ range.2 < entry.1 := by decide +kernel
    have := apart entry member range listed
    omega
  · exact kept
  · have apart : ∀ run ∈ foldRuns, ∀ range ∈ blankRanges,
        run.last < range.1 ∨ range.2 < run.first := by decide +kernel
    have := apart run member range listed
    omega

theorem eq_of_mem_foldChar {b c : Char} (blank : isBlank b = true) (member : b ∈ foldChar c) :
    c = b := by
  rcases foldChar_cases c with ⟨entry, listed, _, image⟩ | kept | ⟨run, listed, above, below, moved⟩
  · have unblank : ∀ entry ∈ foldExpansions, ∀ code ∈ entry.2, isBlank (Char.ofNat code) = false := by
      decide +kernel
    rw [image] at member
    obtain ⟨code, present, rfl⟩ := List.mem_map.mp member
    exact absurd blank (by simp [unblank entry listed code present])
  · rw [kept] at member
    exact (List.mem_singleton.mp member).symm
  · have apart : ∀ run ∈ foldRuns, ∀ range ∈ blankRanges, 0 < range.1 ∧
        (run.last + run.shift < range.1 ∨ (range.2 : Int) < run.first + run.shift) := by
      decide +kernel
    rw [moved, List.mem_singleton] at member
    obtain ⟨range, found, least, most⟩ := Ranges.mem_of_has blank
    obtain ⟨positive, outside⟩ := apart run listed range found
    rw [member] at least most
    rcases toNat_ofNat_cases (c.toNat + run.shift).toNat with same | none
    · omega
    · omega

/-- A text has the blanks of its folding. -/
theorem mem_foldChars_iff {b : Char} (blank : isBlank b = true) {text : List Char} :
    b ∈ foldChars text ↔ b ∈ text := by
  rw [foldChars, List.mem_flatMap]
  constructor
  · rintro ⟨c, member, folded⟩
    exact eq_of_mem_foldChar blank folded ▸ member
  · intro member
    exact ⟨b, member, by simp [foldChar_of_isBlank blank]⟩

theorem not_isBlank_of_foldChars {text name : List Char} (same : foldChars text = foldChars name)
    (unblank : ∀ c ∈ name, isBlank c = false) : ∀ c ∈ text, isBlank c = false := by
  intro c member
  apply Bool.eq_false_iff.mpr
  intro blank
  rw [← mem_foldChars_iff blank, same, mem_foldChars_iff blank] at member
  rw [unblank c member] at blank
  cases blank

theorem isWord_of_foldChar {c unit : Char} (folded : foldChar c = [unit])
    (imaginary : unit = 'i' ∨ unit = 'j') : isWord c = true := by
  rcases foldChar_cases c with ⟨entry, listed, _, image⟩ | kept | ⟨run, listed, above, below, moved⟩
  · have several : ∀ entry ∈ foldExpansions, entry.2.length ≠ 1 := by decide +kernel
    have lengths := congrArg List.length (image.symm.trans folded)
    rw [List.length_map] at lengths
    exact absurd lengths (several entry listed)
  · obtain rfl := (List.cons.inj (kept.symm.trans folded)).1
    rcases imaginary with rfl | rfl
    · decide
    · decide
  · have capitals : ∀ run ∈ foldRuns, run = ⟨0x41, 0x5a, 1, 32⟩ ∨
        run.last + run.shift < 0x69 ∨ 0x6a < run.first + run.shift := by decide +kernel
    have same := congrArg Char.toNat (List.cons.inj (moved.symm.trans folded)).1
    have code : unit.toNat = 0x69 ∨ unit.toNat = 0x6a := by
      rcases imaginary with rfl | rfl
      · exact .inl rfl
      · exact .inr rfl
    have letter : c.toNat = 0x49 ∨ c.toNat = 0x4a := by
      have known := capitals run listed
      rcases toNat_ofNat_cases (c.toNat + run.shift).toNat with kept | none
      · rcases known with rfl | outside
        · dsimp only at *
          omega
        · omega
      · omega
    rw [← Char.ofNat_toNat c]
    rcases letter with letter | letter
    · rw [letter]
      decide
    · rw [letter]
      decide

end Reckoner.Unicode

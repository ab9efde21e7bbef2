/-! Sets of characters given as ascending closed ranges of code points. -/

namespace Reckoner.Unicode

/-- Closed ranges of code points, in ascending order. -/
abbrev Ranges := List (Nat × Nat)

/-- Membership; the search stops at the first range that starts above the code point. -/
def Ranges.has : Ranges → Nat → Bool
  | [], _ => false
  | (low, high) :: rest, code => low ≤ code && (code ≤ high || Ranges.has rest code)

theorem Ranges.mem_of_has {ranges : Ranges} {code : Nat} (found : ranges.has code = true) :
    ∃ range ∈ ranges, range.1 ≤ code ∧ code ≤ range.2 := by
  induction ranges with
  | nil => simp [Ranges.has] at found
  | cons range rest ih =>
    obtain ⟨low, high⟩ := range
    simp only [Ranges.has, Bool.and_eq_true, Bool.or_eq_true, decide_eq_true_eq] at found
    obtain ⟨above, below | later⟩ := found
    · exact ⟨(low, high), List.mem_cons_self .., above, below⟩
    · obtain ⟨range, member, bounds⟩ := ih later
      exact ⟨range, List.mem_cons_of_mem _ member, bounds⟩

end Reckoner.Unicode

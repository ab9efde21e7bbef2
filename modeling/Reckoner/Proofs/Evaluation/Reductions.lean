import Reckoner.Proofs.Evaluation.Runs

/-! The application of pending operators, one after the other. What it leaves on the second stack and
where errors are reported from then on depend on what waits alone; it fails exactly if one of the
applications on its way does. -/

namespace Reckoner.Evaluation

variable {α : Type} {scope : Scope α} {due : Operator α → Bool} {pending left : List (Pending α)}
  {operands rest : List α} {position last : Nat}

/-- Whether what waits is an operator that is due. -/
def Pending.isDue (due : Operator α → Bool) : Pending α → Bool
  | .operator waiting _ => due waiting
  | .group _ => false

/-- The place of what waits. -/
def Pending.place : Pending α → Nat
  | .operator _ place => place
  | .group opened => opened.position

/-- The place that errors are reported at when some operators are applied: that of the last one, or the
place before if there are none. -/
def lastPlace (applied : List (Pending α)) (position : Nat) : Nat :=
  (applied.getLast?.map Pending.place).getD position

@[simp] theorem lastPlace_nil (position : Nat) : lastPlace ([] : List (Pending α)) position = position :=
  rfl

@[simp] theorem lastPlace_cons (entry : Pending α) (applied : List (Pending α)) (position : Nat) :
    lastPlace (entry :: applied) position = lastPlace applied entry.place := by
  rw [lastPlace, lastPlace, List.getLast?_cons]
  cases applied.getLast? <;> rfl

/-- The operators that wait in the innermost group, the one that is applied last at the end. -/
def inside (pending : List (Pending α)) : List (Pending α) :=
  pending.takeWhile (Pending.isDue fun _ => true)

/-- What waits below these: the innermost group and all around it. -/
def around (pending : List (Pending α)) : List (Pending α) :=
  pending.dropWhile (Pending.isDue fun _ => true)

namespace Scope

/-- The stacks that the application of pending operators leads to, from the top on and while they are
due. -/
inductive Reduces (scope : Scope α) (due : Operator α → Bool) :
    List (Pending α) → List α → List (Pending α) → List α → Prop where
  | refl (pending : List (Pending α)) (operands : List α) :
    Reduces scope due pending operands pending operands
  | apply {operator place pending operands results left rest} (isDue : due operator = true)
      (applied : scope.apply operator place operands = .ok results)
      (further : Reduces scope due pending results left rest) :
    Reduces scope due (.operator operator place :: pending) operands left rest

theorem Reduces.suffix (reduces : scope.Reduces due pending operands left rest) :
    left <:+ pending := by
  induction reduces with
  | refl => exact List.suffix_refl _
  | apply _ _ _ ih => exact ih.trans (List.suffix_cons _ _)

theorem reduce_eq_ok (reduced : scope.reduce due pending operands position = .ok (left, rest, last)) :
    scope.Reduces due pending operands left rest ∧ left = pending.dropWhile (Pending.isDue due) ∧
      last = lastPlace (pending.takeWhile (Pending.isDue due)) position := by
  induction pending generalizing operands position with
  | nil =>
    cases reduced
    exact ⟨.refl _ _, rfl, rfl⟩
  | cons top below ih =>
    cases top with
    | group group =>
      cases reduced
      exact ⟨.refl _ _, rfl, rfl⟩
    | operator operator place =>
      unfold reduce at reduced
      split at reduced
      · rename_i isDue
        obtain ⟨results, applied, reduced⟩ := bind_eq_ok.mp reduced
        obtain ⟨reduces, stops, ends⟩ := ih reduced
        refine ⟨.apply isDue applied reduces, ?_, ?_⟩
        · simpa [Pending.isDue, isDue] using stops
        · simpa [Pending.isDue, isDue, Pending.place] using ends
      · rename_i waits
        cases reduced
        exact ⟨.refl _ _, by simp [Pending.isDue, waits], by simp [Pending.isDue, waits]⟩

theorem reduce_all_eq_ok
    (reduced : scope.reduce (fun _ => true) pending operands position = .ok (left, rest, last)) :
    left = around pending ∧ last = lastPlace (inside pending) position :=
  (reduce_eq_ok reduced).2

/-- A reduction fails exactly if an operator does that is due when the ones above it are applied. -/
theorem reduce_eq_error_iff {fault : Fault} :
    scope.reduce due pending operands position = .error fault ↔
      ∃ operator place below results,
        scope.Reduces due pending operands (.operator operator place :: below) results ∧
          due operator = true ∧ scope.apply operator place results = .error fault := by
  constructor
  · intro failed
    induction pending generalizing operands position with
    | nil => cases failed
    | cons top below ih =>
      cases top with
      | group group => cases failed
      | operator operator place =>
        unfold reduce at failed
        split at failed
        · rename_i isDue
          rcases bind_eq_error.mp failed with failed | ⟨results, applied, failed⟩
          · exact ⟨operator, place, below, operands, .refl _ _, isDue, failed⟩
          · obtain ⟨next, at_, lower, final, reduces, fails⟩ := ih failed
            exact ⟨next, at_, lower, final, .apply isDue applied reduces, fails⟩
        · cases failed
  · rintro ⟨operator, place, below, results, reduces, isDue, failed⟩
    generalize same : (.operator operator place :: below : List (Pending α)) = stack at reduces
    induction reduces generalizing position with
    | refl =>
      subst same
      simp only [reduce, isDue, if_true, failed]
      rfl
    | apply firstDue applied _ ih =>
      simp only [reduce, firstDue, if_true, applied]
      exact ih failed same

end Scope

end Reckoner.Evaluation

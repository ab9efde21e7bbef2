/-! Tables: entries under distinct keys, in the order in which the keys were first entered. -/

namespace Reckoner

/-- Entries in order; an operation keeps the place of a key that is present. -/
abbrev Table (β : Type) := List (String × β)

namespace Table

variable {β : Type}

def find? (table : Table β) (key : String) : Option β := List.lookup key table

def contains (table : Table β) (key : String) : Bool := (find? table key).isSome

def insert (key : String) (value : β) : Table β → Table β
  | [] => [(key, value)]
  | (present, old) :: rest =>
    if key == present then (present, value) :: rest else (present, old) :: insert key value rest

/-- Adds an entry unless its key is present. -/
def insertNew (key : String) (value : β) (table : Table β) : Table β :=
  if contains table key then table else table ++ [(key, value)]

def erase (key : String) (table : Table β) : Table β :=
  table.filter fun entry => entry.1 != key

def keys (table : Table β) : List String := table.map Prod.fst

def values (table : Table β) : List β := table.map Prod.snd

theorem find?_insert_self (key : String) (value : β) (table : Table β) :
    find? (insert key value table) key = some value := by
  induction table with
  | nil => simp [insert, find?]
  | cons entry rest ih =>
    obtain ⟨present, old⟩ := entry
    by_cases same : key = present
    · simp [insert, find?, same]
    · have apart : (key == present) = false := by simpa using same
      simpa [insert, find?, List.lookup_cons, apart] using ih

theorem find?_insert_of_ne {key other : String} (apart : other ≠ key) (value : β)
    (table : Table β) : find? (insert key value table) other = find? table other := by
  have different : (other == key) = false := by simpa using apart
  induction table with
  | nil => simp [insert, find?, List.lookup_cons, different]
  | cons entry rest ih =>
    obtain ⟨present, old⟩ := entry
    by_cases same : key = present
    · subst same
      simp [insert, find?, List.lookup_cons, different]
    · have unequal : (key == present) = false := by simpa using same
      simp only [find?] at ih
      simp [insert, unequal, find?, List.lookup_cons, ih]

theorem mem_insert {key : String} {value : β} {table : Table β} {entry : String × β}
    (member : entry ∈ insert key value table) : entry.2 = value ∨ entry ∈ table := by
  induction table with
  | nil => simp_all [insert]
  | cons first rest ih =>
    obtain ⟨present, old⟩ := first
    unfold insert at member
    split at member
    · rcases List.mem_cons.mp member with rfl | behind
      · exact .inl rfl
      · exact .inr (List.mem_cons_of_mem _ behind)
    · rcases List.mem_cons.mp member with rfl | behind
      · exact .inr List.mem_cons_self
      · exact (ih behind).imp_right (List.mem_cons_of_mem _)

theorem mem_of_find? {key : String} {value : β} {table : Table β}
    (found : find? table key = some value) : (key, value) ∈ table := by
  obtain ⟨before, behind, rfl, _⟩ := List.lookup_eq_some_iff.mp found
  simp

/-- Setting an entry keeps the keys in order; a new one comes last. -/
theorem keys_insert (key : String) (value : β) (table : Table β) :
    keys (insert key value table) =
      if key ∈ keys table then keys table else keys table ++ [key] := by
  induction table with
  | nil => simp [insert, keys]
  | cons entry rest ih =>
    obtain ⟨present, old⟩ := entry
    by_cases same : key = present
    · simp [insert, keys, same]
    · have unequal : (key == present) = false := by simpa using same
      simp only [keys] at ih
      simp only [insert, unequal, keys, Bool.false_eq_true, if_false, List.map_cons, ih,
        List.mem_cons, same, false_or]
      split <;> simp_all

theorem contains_iff (table : Table β) (key : String) :
    contains table key = true ↔ key ∈ keys table := by
  induction table with
  | nil => simp [contains, find?, keys]
  | cons entry rest ih =>
    obtain ⟨present, old⟩ := entry
    simp only [contains, find?, keys] at ih
    by_cases same : key = present
    · simp [contains, find?, keys, same]
    · have unequal : (key == present) = false := by simpa using same
      simp [contains, find?, keys, List.lookup_cons, unequal, same, ih]

theorem mem_keys_insert {key other : String} {value : β} {table : Table β} :
    other ∈ keys (insert key value table) ↔ other = key ∨ other ∈ keys table := by
  rw [keys_insert]
  split
  · rename_i present
    exact ⟨.inr, fun
      | .inl same => same ▸ present
      | .inr member => member⟩
  · simp [or_comm]

theorem keys_insertNew (key : String) (value : β) (table : Table β) :
    keys (insertNew key value table) =
      if key ∈ keys table then keys table else keys table ++ [key] := by
  by_cases present : key ∈ keys table
  · simp [insertNew, (contains_iff table key).mpr present, present]
  · have absent : contains table key = false := by
      simpa using mt (contains_iff table key).mp present
    rw [insertNew, absent, if_neg present]
    simp [keys]

theorem mem_keys_insertNew {key other : String} {value : β} {table : Table β} :
    other ∈ keys (insertNew key value table) ↔ other = key ∨ other ∈ keys table := by
  rw [keys_insertNew]
  split
  · rename_i present
    exact ⟨.inr, fun
      | .inl same => same ▸ present
      | .inr member => member⟩
  · simp [or_comm]

theorem nodup_keys_insertNew {key : String} {value : β} {table : Table β}
    (distinct : (keys table).Nodup) : (keys (insertNew key value table)).Nodup := by
  rw [keys_insertNew]
  split
  · exact distinct
  · rename_i absent
    refine List.nodup_append.mpr ⟨distinct, by simp, ?_⟩
    rintro first member second new rfl
    exact absent (List.mem_singleton.mp new ▸ member)

theorem find?_erase_self (key : String) (table : Table β) : find? (erase key table) key = none := by
  induction table with
  | nil => rfl
  | cons entry rest ih =>
    obtain ⟨present, old⟩ := entry
    simp only [erase, find?] at ih
    by_cases same : present = key
    · simp [erase, find?, same, ih]
    · have unequal : (key == present) = false := by simpa using Ne.symm same
      simp [erase, find?, same, List.lookup_cons, unequal, ih]

theorem find?_erase_of_ne {key other : String} (apart : other ≠ key) (table : Table β) :
    find? (erase key table) other = find? table other := by
  induction table with
  | nil => rfl
  | cons entry rest ih =>
    obtain ⟨present, old⟩ := entry
    simp only [erase, find?] at ih
    by_cases same : present = key
    · have unequal : (other == present) = false := by simpa [same] using apart
      simp [erase, find?, same, List.lookup_cons, same ▸ unequal, ih]
    · simp [erase, find?, same, List.lookup_cons, ih]

end Table

end Reckoner

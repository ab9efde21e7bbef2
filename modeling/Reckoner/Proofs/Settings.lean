import Reckoner.Proofs.Outcome
import Reckoner.Settings

/-! Settings that the checks accept: no symbol of their groups is used twice. -/

namespace Reckoner.Settings

/-- Settings that come out of the checks, be it of a first draft or of a changed one. -/
def Valid (settings : Settings) : Prop := ∃ draft : Draft, draft.check = .ok settings

/-- All symbols of some groups in order. -/
def symbols (groups : List (Char × Char)) : List Char :=
  groups.flatMap fun pair => [pair.1, pair.2]

/-- Whether a character is a symbol of groups or separates arguments. -/
def Reserves (settings : Settings) (c : Char) : Prop :=
  (∃ pair ∈ settings.groups, c = pair.1 ∨ c = pair.2) ∨ c = settings.separator

/-- The symbols of the settings are those that are found among the opening or the closing ones, and the separator. -/
theorem reserves_iff {settings : Settings} {c : Char} : settings.Reserves c ↔
    (settings.closerOf? c).isSome = true ∨ (settings.openerOf? c).isSome = true ∨ settings.separator = c := by
  have opens : (settings.closerOf? c).isSome = true ↔ ∃ pair ∈ settings.groups, c = pair.1 := by
    simp only [closerOf?, List.lookup_isSome_iff, beq_iff_eq]
  have closes : (settings.openerOf? c).isSome = true ↔ ∃ pair ∈ settings.groups, c = pair.2 := by
    simp only [openerOf?, List.lookup_isSome_iff, beq_iff_eq]
    constructor
    · rintro ⟨_, member, same⟩
      obtain ⟨pair, among, rfl⟩ := List.mem_map.mp member
      exact ⟨pair, among, same⟩
    · rintro ⟨pair, among, same⟩
      exact ⟨pair.swap, List.mem_map_of_mem among, same⟩
  rw [opens, closes, Reserves, eq_comm (a := settings.separator)]
  grind

theorem checkSymbol_eq_ok {role : Role} {text : String} {c : Char}
    (checked : checkSymbol role text = .ok c) : isSymbol c = true := by
  unfold checkSymbol at checked
  split at checked
  · split at checked
    · rename_i symbol
      cases checked
      exact symbol
    · cases checked
  · cases checked

theorem checkNewSymbol_eq_ok {seen : List Char} {text : String} {c : Char}
    (checked : checkNewSymbol seen text = .ok c) : isSymbol c = true ∧ c ∉ seen := by
  obtain ⟨found, symbol, guarded⟩ := bind_eq_ok.mp checked
  obtain ⟨new, same⟩ := guard_eq_ok_iff.mp guarded
  cases same
  exact ⟨checkSymbol_eq_ok symbol, by simpa using new⟩

theorem checkPairs_cons_eq_ok {seen : List Char} {group : String × String}
    {rest : List (String × String)} {pairs : List (Char × Char)}
    (checked : checkPairs seen (group :: rest) = .ok pairs) :
    ∃ left right others, pairs = (left, right) :: others ∧
      checkNewSymbol seen group.1 = .ok left ∧ checkNewSymbol (left :: seen) group.2 = .ok right ∧
      checkPairs (right :: left :: seen) rest = .ok others := by
  obtain ⟨left, first, checked⟩ := bind_eq_ok.mp checked
  obtain ⟨right, second, checked⟩ := bind_eq_ok.mp checked
  obtain ⟨others, behind, same⟩ := bind_eq_ok.mp checked
  cases same
  exact ⟨left, right, others, rfl, first, second, behind⟩

/-- Checked groups repeat neither a symbol of their own nor one seen before. -/
theorem checkPairs_nodup {seen : List Char} {groups : List (String × String)}
    {pairs : List (Char × Char)} (checked : checkPairs seen groups = .ok pairs) :
    (symbols pairs).Nodup ∧ ∀ c ∈ symbols pairs, c ∉ seen := by
  induction groups generalizing seen pairs with
  | nil =>
    cases checked
    simp [symbols]
  | cons group rest ih =>
    obtain ⟨left, right, others, rfl, first, second, behind⟩ := checkPairs_cons_eq_ok checked
    have new := (checkNewSymbol_eq_ok first).2
    have newer := (checkNewSymbol_eq_ok second).2
    obtain ⟨distinct, apart⟩ := ih behind
    simp only [symbols, List.flatMap_cons, List.cons_append, List.nil_append,
      List.nodup_cons, List.mem_cons] at *
    grind

theorem checkPairs_isSymbol {seen : List Char} {groups : List (String × String)}
    {pairs : List (Char × Char)} (checked : checkPairs seen groups = .ok pairs) :
    ∀ pair ∈ pairs, isSymbol pair.1 = true ∧ isSymbol pair.2 = true := by
  induction groups generalizing seen pairs with
  | nil =>
    cases checked
    nofun
  | cons group rest ih =>
    obtain ⟨left, right, others, rfl, first, second, behind⟩ := checkPairs_cons_eq_ok checked
    exact List.forall_mem_cons.mpr
      ⟨⟨(checkNewSymbol_eq_ok first).1, (checkNewSymbol_eq_ok second).1⟩, ih behind⟩

theorem checkGroups_eq_ok {groups : List (String × String)}
    {found : { pairs : List (Char × Char) // pairs ≠ [] }}
    (checked : checkGroups groups = .ok found) : checkPairs [] groups = .ok found.val := by
  cases groups with
  | nil => simp [checkGroups, throw, throwThe, MonadExceptOf.throw] at checked
  | cons group rest =>
    simp only [checkGroups] at checked
    cases pairs : checkPairs [] (group :: rest) with
    | error message => simp [pairs, bind, Except.bind] at checked
    | ok list =>
      cases list with
      | nil =>
        simp [pairs, bind, Except.bind, throw, throwThe, MonadExceptOf.throw] at checked
      | cons pair others =>
        have same : ⟨pair :: others, List.cons_ne_nil pair others⟩ = found := by
          simpa [pairs, bind, Except.bind, pure, Except.pure] using checked
        rw [← same]

/-- What the checks accept: checked groups, and a checked separator that is no symbol of them. -/
theorem Valid.checked {settings : Settings} (valid : settings.Valid) : ∃ groups separator,
    checkPairs [] groups = .ok settings.groups ∧ checkSymbol .separator separator = .ok settings.separator ∧
      groupsWith settings.groups settings.separator = false := by
  obtain ⟨draft, checked⟩ := valid
  unfold Draft.check at checked
  split at checked
  · rename_i groups nonempty separator grouped separated
    split at checked
    · cases checked
    · rename_i apart
      cases checked
      exact ⟨_, _, checkGroups_eq_ok grouped, separated, Bool.eq_false_iff.mpr apart⟩
  · cases checked

/-- A change that succeeds checks what comes out, or changes nothing. -/
theorem Valid.change {settings next : Settings} (valid : settings.Valid) {step : Change}
    (changed : settings.change step = .ok next) : next.Valid := by
  unfold Settings.change at changed
  split at changed
  · cases changed
    exact valid
  · exact ⟨_, changed⟩

theorem Valid.changes {settings next : Settings} (valid : settings.Valid) {steps : List Change}
    (changed : steps.foldlM Settings.change settings = .ok next) : next.Valid := by
  induction steps generalizing settings with
  | nil =>
    cases changed
    exact valid
  | cons step rest ih =>
    rw [List.foldlM_cons] at changed
    obtain ⟨middle, first, others⟩ := bind_eq_ok.mp changed
    exact ih (valid.change first) others

theorem Valid.symbols_nodup {settings : Settings} (valid : settings.Valid) :
    (symbols settings.groups).Nodup := by
  obtain ⟨groups, _, grouped, -⟩ := valid.checked
  exact (checkPairs_nodup grouped).1

theorem Valid.separator_not_mem {settings : Settings} (valid : settings.Valid) :
    settings.separator ∉ symbols settings.groups := by
  obtain ⟨_, _, -, -, apart⟩ := valid.checked
  intro member
  obtain ⟨pair, listed, among⟩ := List.mem_flatMap.mp member
  rw [List.mem_cons, List.mem_singleton] at among
  have grouped : groupsWith settings.groups settings.separator = true := by
    refine List.any_eq_true.mpr ⟨pair, listed, ?_⟩
    rw [Bool.or_eq_true, beq_iff_eq, beq_iff_eq]
    exact among.imp Eq.symm Eq.symm
  exact Bool.noConfusion (apart.symm.trans grouped)

theorem symbols_perm (groups : List (Char × Char)) :
    (symbols groups).Perm (groups.map Prod.fst ++ groups.map Prod.snd) := by
  induction groups with
  | nil => exact .nil
  | cons pair rest ih =>
    obtain ⟨opening, closing⟩ := pair
    have later : (closing :: symbols rest).Perm (rest.map Prod.fst ++ closing :: rest.map Prod.snd) :=
      (ih.cons closing).trans List.perm_middle.symm
    exact later.cons opening

theorem lookup_eq_some_iff_mem {groups : List (Char × Char)} (distinct : (groups.map Prod.fst).Nodup)
    {key value : Char} : groups.lookup key = some value ↔ (key, value) ∈ groups := by
  constructor
  · intro found
    obtain ⟨before, behind, rfl, -⟩ := List.lookup_eq_some_iff.mp found
    simp
  · intro member
    induction groups with
    | nil => cases member
    | cons pair rest ih =>
      obtain ⟨first, second⟩ := pair
      obtain ⟨new, others⟩ := List.nodup_cons.mp distinct
      rcases List.mem_cons.mp member with same | behind
      · cases same
        exact List.lookup_cons_self
      · have listed : key ∈ rest.map Prod.fst := List.mem_map_of_mem (f := Prod.fst) behind
        have apart : key ≠ first := by
          rintro rfl
          exact new listed
        have unequal : (key == first) = false := by simpa using apart
        rw [List.lookup_cons, unequal]
        exact ih others behind

section Maps

variable {settings : Settings} (valid : settings.Valid) {opening closing : Char}
include valid

theorem Valid.closerOf?_eq_some_iff : settings.closerOf? opening = some closing ↔
    (opening, closing) ∈ settings.groups := by
  have distinct := (symbols_perm settings.groups).nodup_iff.mp valid.symbols_nodup
  exact lookup_eq_some_iff_mem (List.nodup_append.mp distinct).1

theorem Valid.openerOf?_eq_some_iff : settings.openerOf? closing = some opening ↔
    (opening, closing) ∈ settings.groups := by
  have distinct := (symbols_perm settings.groups).nodup_iff.mp valid.symbols_nodup
  have swapped : ((settings.groups.map Prod.swap).map Prod.fst).Nodup := by
    rw [List.map_map]
    exact (List.nodup_append.mp distinct).2.1
  rw [openerOf?, lookup_eq_some_iff_mem swapped, List.mem_map]
  constructor
  · rintro ⟨pair, member, same⟩
    cases same
    exact member
  · exact fun member => ⟨_, member, rfl⟩

theorem Valid.openerOf?_of_opening (opens : (settings.closerOf? opening).isSome = true) :
    settings.openerOf? opening = none := by
  have distinct := (symbols_perm settings.groups).nodup_iff.mp valid.symbols_nodup
  obtain ⟨-, -, apart⟩ := List.nodup_append.mp distinct
  obtain ⟨closing, closer⟩ := Option.isSome_iff_exists.mp opens
  have first := List.mem_map_of_mem (f := Prod.fst) (valid.closerOf?_eq_some_iff.mp closer)
  apply Option.eq_none_iff_forall_ne_some.mpr
  intro other opener
  have second := List.mem_map_of_mem (f := Prod.snd) (valid.openerOf?_eq_some_iff.mp opener)
  exact apart opening first opening second rfl

theorem Valid.separator_ungrouped :
    settings.closerOf? settings.separator = none ∧ settings.openerOf? settings.separator = none := by
  have apart := valid.separator_not_mem
  rw [(symbols_perm settings.groups).mem_iff, List.mem_append, not_or] at apart
  constructor
  · apply Option.eq_none_iff_forall_ne_some.mpr
    intro closing found
    refine apart.1 ?_
    exact List.mem_map_of_mem (f := Prod.fst) (valid.closerOf?_eq_some_iff.mp found)
  · apply Option.eq_none_iff_forall_ne_some.mpr
    intro opening found
    refine apart.2 ?_
    exact List.mem_map_of_mem (f := Prod.snd) (valid.openerOf?_eq_some_iff.mp found)

end Maps

/-- The opening symbol of a pair of valid settings is closed by the other one. -/
theorem Valid.closingText?_eq {settings : Settings} (valid : settings.Valid)
    {opening closing : Char} (member : (opening, closing) ∈ settings.groups) :
    settings.closingText? (String.singleton opening) = some (String.singleton closing) := by
  have closer : settings.closerOf? opening = some closing :=
    valid.closerOf?_eq_some_iff.mpr member
  simp [closingText?, closer]

theorem closingText?_eq_some {settings : Settings} {opening closing : String}
    (found : settings.closingText? opening = some closing) :
    ∃ first last, (first, last) ∈ settings.groups ∧ opening = String.singleton first ∧
      closing = String.singleton last := by
  unfold closingText? at found
  split at found
  · rename_i first single
    obtain ⟨last, closes, rfl⟩ := Option.map_eq_some_iff.mp found
    obtain ⟨before, behind, same, _⟩ := List.lookup_eq_some_iff.mp closes
    refine ⟨first, last, by simp [same], ?_, rfl⟩
    exact String.toList_injective (single.trans (by simp))
  · cases found

theorem Valid.isSymbol {settings : Settings} (valid : settings.Valid) :
    (∀ pair ∈ settings.groups, isSymbol pair.1 = true ∧ isSymbol pair.2 = true) ∧
      isSymbol settings.separator = true := by
  obtain ⟨_, _, grouped, separated, -⟩ := valid.checked
  exact ⟨checkPairs_isSymbol grouped, checkSymbol_eq_ok separated⟩

theorem Valid.isSymbol_of_reserves {settings : Settings} (valid : settings.Valid) {c : Char}
    (reserved : settings.Reserves c) : Settings.isSymbol c = true := by
  obtain ⟨groups, separated⟩ := valid.isSymbol
  rcases reserved with ⟨pair, listed, rfl | rfl⟩ | rfl
  · exact (groups pair listed).1
  · exact (groups pair listed).2
  · exact separated

end Reckoner.Settings

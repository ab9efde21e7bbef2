import Reckoner.NumberSystem.Integer
import Reckoner.Proofs.Registry.Renumbering
import Mathlib.Data.List.Nodup
import Mathlib.Data.List.Perm.Basic

/-! The list of what is registered. Every descriptor is listed once, at the first name of its own in the order in which
names were spelled; at one name functions come before prefix and postfix operators, and those before binary ones. That
is the order of registration only if no operator shares a symbol with one of the other kind that came before it. -/

namespace Reckoner

open Reckoner.Unicode

variable {α : Type}

namespace Descriptor

/-- The folded names of a descriptor. -/
def keys (descriptor : Descriptor α) : List String := descriptor.naming.names.map fold

/-- The order in which the kinds of one name are looked up. -/
def Kind.rank : Kind → Nat
  | function => 0
  | unary => 1
  | binary => 2

theorem keys_ne_nil (descriptor : Descriptor α) : descriptor.keys ≠ [] := by
  simp [keys, Naming.names]

end Descriptor

namespace Registry

variable {registry next : Registry α} {β : Type}

/-! ### The first items with their numbers -/

theorem distinct_congr {first second : List Nat} (same : ∀ serial, serial ∈ first ↔ serial ∈ second)
    (items : List (Registered β)) : distinct items first = distinct items second := by
  induction items generalizing first second with
  | nil => rfl
  | cons item rest ih =>
    have known : first.contains item.serial = second.contains item.serial := by
      rw [Bool.eq_iff_iff, List.contains_iff_mem, List.contains_iff_mem, same]
    have more : ∀ serial, serial ∈ item.serial :: first ↔ serial ∈ item.serial :: second := by
      intro serial
      rw [List.mem_cons, List.mem_cons, same]
    rw [distinct, distinct, known, ih same, ih more]

theorem distinct_append (first second : List (Registered β)) (seen : List Nat) :
    distinct (first ++ second) seen =
      distinct first seen ++ distinct second (first.map Registered.serial ++ seen) := by
  induction first generalizing seen with
  | nil => rfl
  | cons item rest ih =>
    rw [List.cons_append, distinct, distinct]
    split
    · rename_i known
      have present : item.serial ∈ seen := List.contains_iff_mem.mp known
      rw [ih]
      congr 1
      apply distinct_congr
      intro serial
      simp only [List.map_cons, List.cons_append, List.mem_cons, List.mem_append]
      constructor
      · exact .inr
      · rintro (rfl | there)
        · exact .inr present
        · exact there
    · rw [ih, List.cons_append]
      congr 2
      apply distinct_congr
      intro serial
      simp only [List.map_cons, List.cons_append, List.mem_cons, List.mem_append, or_left_comm]

theorem distinct_of_seen {items : List (Registered β)} {seen : List Nat}
    (known : ∀ item ∈ items, item.serial ∈ seen) : distinct items seen = [] := by
  induction items with
  | nil => rfl
  | cons item rest ih =>
    obtain ⟨first, others⟩ := List.forall_mem_cons.mp known
    rw [distinct, if_pos (List.contains_iff_mem.mpr first), ih others]

/-- What is listed are some of the items, of which no two have one number and none a number that has been seen; every
item has the number of one of them or one that has been seen. -/
theorem exists_distinct (items : List (Registered β)) (seen : List Nat) :
    ∃ firsts : List (Registered β), distinct items seen = firsts.map Registered.entry ∧ firsts.Sublist items ∧
      (firsts.map Registered.serial).Nodup ∧ (∀ item ∈ firsts, item.serial ∉ seen) ∧
      ∀ item ∈ items, item.serial ∈ firsts.map Registered.serial ∨ item.serial ∈ seen := by
  induction items generalizing seen with
  | nil => exact ⟨[], rfl, .slnil, .nil, by simp, by simp⟩
  | cons item rest ih =>
    rw [distinct]
    split
    · rename_i known
      obtain ⟨firsts, listed, among, apart, new, covered⟩ := ih seen
      refine ⟨firsts, listed, among.cons item, apart, new, ?_⟩
      exact List.forall_mem_cons.mpr ⟨.inr (List.contains_iff_mem.mp known), covered⟩
    · rename_i unknown
      have fresh : item.serial ∉ seen := fun present => unknown (List.contains_iff_mem.mpr present)
      obtain ⟨firsts, listed, among, apart, new, covered⟩ := ih (item.serial :: seen)
      refine ⟨item :: firsts, by rw [listed, List.map_cons], among.cons_cons item, ?_, ?_, ?_⟩
      · refine List.nodup_cons.mpr ⟨?_, apart⟩
        intro repeated
        obtain ⟨other, member, same⟩ := List.mem_map.mp repeated
        exact new other member (same ▸ List.mem_cons_self)
      · refine List.forall_mem_cons.mpr ⟨fresh, ?_⟩
        intro other member present
        exact new other member (List.mem_cons_of_mem _ present)
      · refine List.forall_mem_cons.mpr ⟨.inl List.mem_cons_self, ?_⟩
        intro other member
        rcases covered other member with listed | present
        · exact .inl (List.mem_cons_of_mem _ listed)
        · rcases List.mem_cons.mp present with same | seen
          · exact .inl (same ▸ List.mem_cons_self)
          · exact .inr seen

/-! ### What is held -/

/-- What a folded name is registered as among those of a kind. -/
def held? (registry : Registry α) (key : String) : Descriptor.Kind → Option (Registered (Descriptor α))
  | .function => (registry.functions.find? key).map fun found => ⟨found.serial, .function found.entry⟩
  | .unary => (registry.unary.find? key).map fun found => ⟨found.serial, .unary found.entry⟩
  | .binary => (registry.binary.find? key).map fun found => ⟨found.serial, .binary found.entry⟩

theorem kind_of_held? {key : String} {kind : Descriptor.Kind} {item : Registered (Descriptor α)}
    (held : registry.held? key kind = some item) : item.entry.kind = kind := by
  cases kind with
  | _ =>
    obtain ⟨found, _, rfl⟩ := Option.map_eq_some_iff.mp held
    rfl

theorem descriptorsOf_eq (registry : Registry α) (key : String) :
    registry.descriptorsOf key = [Descriptor.Kind.function, .unary, .binary].filterMap (registry.held? key) := by
  cases functions : registry.functions.find? key <;> cases unary : registry.unary.find? key <;>
    cases binary : registry.binary.find? key <;>
    simp [descriptorsOf, held?, functions, unary, binary]

theorem map_find?_enter {γ : Type} (make : β → γ) (names : List String) (item : β) (table : Table β) (key : String) :
    ((enter names item table).find? key).map make =
      if key ∈ names.map fold then some (make item) else (table.find? key).map make := by
  rw [find?_enter]
  split <;> rfl

theorem add_eq_record {descriptor : Descriptor α} (added : registry.add descriptor = .ok next) :
    next = registry.record (.ofDescriptor descriptor) :=
  enterDescriptor_eq_record (add_eq_ok_iff.mp added).1

/-- A registration is held under its names for its kind, and what else is held stays. -/
theorem held?_record (registry : Registry α) (descriptor : Descriptor α) (key : String) (kind : Descriptor.Kind) :
    (registry.record (.ofDescriptor descriptor)).held? key kind =
      if kind = descriptor.kind ∧ key ∈ descriptor.keys then some ⟨registry.nextSerial, descriptor⟩
      else registry.held? key kind := by
  cases descriptor with
  | function f =>
    cases kind with
    | function =>
      exact (map_find?_enter _ f.names _ registry.functions key).trans
        (if_congr ⟨fun named => ⟨rfl, named⟩, And.right⟩ rfl rfl)
    | unary | binary => rfl
  | unary operator =>
    cases kind with
    | unary =>
      exact (map_find?_enter _ operator.names _ registry.unary key).trans
        (if_congr ⟨fun named => ⟨rfl, named⟩, And.right⟩ rfl rfl)
    | function | binary => rfl
  | binary operator =>
    cases kind with
    | binary =>
      exact (map_find?_enter _ operator.names _ registry.binary key).trans
        (if_congr ⟨fun named => ⟨rfl, named⟩, And.right⟩ rfl rfl)
    | function | unary => rfl

theorem callables_ofDescriptor (descriptor : Descriptor α) :
    (Event.ofDescriptor descriptor).callables = descriptor.naming.names := by
  cases descriptor with
  | _ => rfl

theorem serials_ofDescriptor (descriptor : Descriptor α) : (Event.ofDescriptor descriptor).serials = 1 := by
  cases descriptor with
  | _ => rfl

theorem allSerials_map_ofDescriptor (descriptors : List (Descriptor α)) :
    Event.allSerials (descriptors.map .ofDescriptor) = descriptors.length := by
  induction descriptors with
  | nil => rfl
  | cons descriptor rest ih =>
    rw [List.map_cons, Event.allSerials, List.foldr_cons, ← Event.allSerials, ih, serials_ofDescriptor, Nat.add_comm]
    rfl

/-! ### Runs of registrations -/

variable {descriptors : List (Descriptor α)}

theorem foldlM_add_eq_record (added : descriptors.foldlM add registry = .ok next) :
    next = (descriptors.map .ofDescriptor).foldl record registry := by
  induction descriptors generalizing registry with
  | nil =>
    cases added
    rfl
  | cons descriptor rest ih =>
    rw [List.foldlM_cons] at added
    obtain ⟨middle, first, others⟩ := bind_eq_ok.mp added
    rw [ih others, add_eq_record first]
    rfl

/-- No folded name is registered twice for one kind. -/
def KindsApart (descriptors : List (Descriptor α)) : Prop :=
  descriptors.Pairwise fun first second => first.kind = second.kind → ∀ key ∈ first.keys, key ∉ second.keys

instance (descriptors : List (Descriptor α)) : Decidable (KindsApart descriptors) :=
  inferInstanceAs (Decidable (List.Pairwise _ _))

theorem getElem?_append_singleton_eq_some_iff {γ : Type} {items : List γ} {last item : γ} {place : Nat} :
    (items ++ [last])[place]? = some item ↔ items[place]? = some item ∨ place = items.length ∧ item = last := by
  rcases Nat.lt_trichotomy place items.length with before | rfl | behind
  · rw [List.getElem?_append_left before]
    exact ⟨.inl, fun found => found.resolve_right fun same => absurd same.1 (Nat.ne_of_lt before)⟩
  · rw [List.getElem?_concat_length, List.getElem?_eq_none (Nat.le_refl _)]
    simp [eq_comm]
  · rw [List.getElem?_eq_none (by simp; omega), List.getElem?_eq_none (Nat.le_of_lt behind)]
    simp [Nat.ne_of_gt behind]

/-- Whether some descriptors, numbered in order, are held under their names for their kinds, and nothing else is. -/
def Holding (registry : Registry α) (descriptors : List (Descriptor α)) : Prop :=
  ∀ key kind (item : Registered (Descriptor α)), registry.held? key kind = some item ↔
    descriptors[item.serial]? = some item.entry ∧ item.entry.kind = kind ∧ key ∈ item.entry.keys

theorem holding_foldl_record (apart : KindsApart descriptors) (system : NumberSystem α) (settings : Settings) :
    Holding ((descriptors.map .ofDescriptor).foldl record (empty system settings)) descriptors := by
  intro key kind item
  induction descriptors using List.reverseRecOn with
  | nil => cases kind <;> simp [held?, empty, Table.find?]
  | append_singleton earlier last ih =>
    obtain ⟨before, -, new⟩ := List.pairwise_append.mp apart
    have count : ((earlier.map .ofDescriptor).foldl record (empty system settings)).nextSerial = earlier.length := by
      rw [nextSerial_foldl_record, allSerials_map_ofDescriptor]
      exact Nat.zero_add _
    rw [List.map_append, List.foldl_append]
    change (record _ (.ofDescriptor last)).held? key kind = some item ↔ _
    rw [held?_record, count, getElem?_append_singleton_eq_some_iff]
    split
    · rename_i named
      obtain ⟨rfl, member⟩ := named
      constructor
      · rintro ⟨⟩
        exact ⟨.inr ⟨rfl, rfl⟩, rfl, member⟩
      · rintro ⟨found | ⟨same, entry⟩, kinds, among⟩
        · exact absurd member (new _ (List.mem_of_getElem? found) last (List.mem_singleton_self last) kinds key among)
        · rw [← same, ← entry]
    · rename_i unnamed
      rw [ih before]
      constructor
      · rintro ⟨found, kinds, among⟩
        exact ⟨.inl found, kinds, among⟩
      · rintro ⟨found | ⟨-, rfl⟩, kinds, among⟩
        · exact ⟨found, kinds, among⟩
        · exact absurd ⟨kinds.symm, among⟩ unnamed

/-! ### The order of the list -/

/-- Where the first name of a descriptor stands among the folded names as they were spelled. -/
def place (spelled : List String) (descriptor : Descriptor α) : Nat :=
  spelled.findIdx fun key => descriptor.keys.contains key

/-- Whether a descriptor is listed before another one: it has the earlier name, or the same one and the kind that is
looked up first. -/
def ListedBefore (spelled : List String) (first second : Descriptor α) : Prop :=
  place spelled first < place spelled second ∨
    place spelled first = place spelled second ∧ first.kind.rank < second.kind.rank

instance (spelled : List String) (first second : Descriptor α) : Decidable (ListedBefore spelled first second) :=
  inferInstanceAs (Decidable (_ ∨ _))

theorem place_append_of_mem {spelled : List String} {descriptor : Descriptor α} {key : String}
    (among : key ∈ spelled) (named : key ∈ descriptor.keys) (further : List String) :
    place spelled descriptor < spelled.length ∧ place (spelled ++ further) descriptor = place spelled descriptor := by
  have found : place spelled descriptor < spelled.length :=
    List.findIdx_lt_length_of_exists ⟨key, among, List.contains_iff_mem.mpr named⟩
  exact ⟨found, List.findIdx_append.trans (if_pos found)⟩

theorem place_append_of_not_mem {spelled : List String} {descriptor : Descriptor α}
    (unnamed : ∀ key ∈ spelled, key ∉ descriptor.keys) (further : List String) :
    place (spelled ++ further) descriptor = place further descriptor + spelled.length := by
  have missing : spelled.findIdx (fun key => descriptor.keys.contains key) = spelled.length :=
    List.findIdx_eq_length_of_false fun key among => by simpa using unnamed key among
  rw [place, List.findIdx_append, missing, if_neg (Nat.lt_irrefl _), place]

theorem mem_descriptorsOf_iff (holding : Holding registry descriptors) {key : String}
    {item : Registered (Descriptor α)} :
    item ∈ registry.descriptorsOf key ↔ descriptors[item.serial]? = some item.entry ∧ key ∈ item.entry.keys := by
  rw [descriptorsOf_eq, List.mem_filterMap]
  constructor
  · rintro ⟨kind, -, held⟩
    obtain ⟨found, -, named⟩ := (holding key kind item).mp held
    exact ⟨found, named⟩
  · rintro ⟨found, named⟩
    exact ⟨item.entry.kind, by cases item.entry.kind <;> simp, (holding key _ item).mpr ⟨found, rfl, named⟩⟩

theorem descriptorsOf_ranked (registry : Registry α) (key : String) :
    (registry.descriptorsOf key).Pairwise fun first second => first.entry.kind.rank < second.entry.kind.rank := by
  rw [descriptorsOf_eq, List.pairwise_filterMap]
  have kinds : [Descriptor.Kind.function, .unary, .binary].Pairwise fun first second => first.rank < second.rank := by
    decide
  apply kinds.imp
  intro first second before item held other heldToo
  rw [kind_of_held? held, kind_of_held? heldToo]
  exact before

/-- Of the names that are looked up one after the other, the first that a descriptor has lists it. -/
theorem distinct_listed (holding : Holding registry descriptors) (spelled : List String) :
    (distinct (spelled.flatMap registry.descriptorsOf) []).Pairwise (ListedBefore spelled) := by
  induction spelled using List.reverseRecOn with
  | nil => exact .nil
  | append_singleton spelled last ih =>
    rw [List.flatMap_append, distinct_append]
    obtain ⟨earlier, listed, among, -⟩ := exists_distinct (spelled.flatMap registry.descriptorsOf) []
    obtain ⟨later, listedToo, amongLast, -, new, -⟩ := exists_distinct (registry.descriptorsOf last)
      ((spelled.flatMap registry.descriptorsOf).map Registered.serial ++ [])
    rw [List.flatMap_singleton]
    rw [listed] at ih ⊢
    rw [listedToo]
    -- What is listed so far has a name among those so far; what the last name adds has none.
    have before : ∀ item ∈ earlier, ∃ key ∈ spelled, key ∈ item.entry.keys := by
      intro item member
      obtain ⟨key, spelt, found⟩ := List.mem_flatMap.mp (among.subset member)
      exact ⟨key, spelt, ((mem_descriptorsOf_iff holding).mp found).2⟩
    have behind : ∀ item ∈ later, place (spelled ++ [last]) item.entry = spelled.length := by
      intro item member
      obtain ⟨held, named⟩ := (mem_descriptorsOf_iff holding).mp (amongLast.subset member)
      have unnamed : ∀ key ∈ spelled, key ∉ item.entry.keys := by
        intro key spelt namedToo
        have found := (mem_descriptorsOf_iff holding).mpr ⟨held, namedToo⟩
        have seen := List.mem_map_of_mem (f := Registered.serial) (List.mem_flatMap.mpr ⟨key, spelt, found⟩)
        exact new item member (List.mem_append_left _ seen)
      rw [place_append_of_not_mem unnamed]
      simp [place, named]
    refine List.pairwise_append.mpr ⟨?_, ?_, ?_⟩
    · apply ih.imp_of_mem
      intro first second member memberToo order
      obtain ⟨item, one, rfl⟩ := List.mem_map.mp member
      obtain ⟨other, two, rfl⟩ := List.mem_map.mp memberToo
      obtain ⟨key, spelt, named⟩ := before item one
      obtain ⟨keyToo, speltToo, namedToo⟩ := before other two
      rw [ListedBefore, (place_append_of_mem spelt named _).2, (place_append_of_mem speltToo namedToo _).2]
      exact order
    · rw [List.pairwise_map]
      apply ((descriptorsOf_ranked registry last).sublist amongLast).imp_of_mem
      intro item other member memberToo ranked
      exact .inr ⟨(behind item member).trans (behind other memberToo).symm, ranked⟩
    · intro first member second memberToo
      obtain ⟨item, one, rfl⟩ := List.mem_map.mp member
      obtain ⟨other, two, rfl⟩ := List.mem_map.mp memberToo
      obtain ⟨key, spelt, named⟩ := before item one
      obtain ⟨within, kept⟩ := place_append_of_mem spelt named [last]
      exact .inl (by rw [kept, behind other two]; exact within)

theorem distinct_perm (holding : Holding registry descriptors) {spelled : List String}
    (covered : ∀ descriptor ∈ descriptors, ∃ key ∈ spelled, key ∈ descriptor.keys) :
    (distinct (spelled.flatMap registry.descriptorsOf) []).Perm descriptors := by
  obtain ⟨firsts, listed, among, apart, -, complete⟩ := exists_distinct (spelled.flatMap registry.descriptorsOf) []
  have numbered : ∀ item ∈ firsts, descriptors[item.serial]? = some item.entry := by
    intro item member
    obtain ⟨key, -, found⟩ := List.mem_flatMap.mp (among.subset member)
    exact ((mem_descriptorsOf_iff holding).mp found).1
  have serials : (firsts.map Registered.serial).Perm (List.range descriptors.length) := by
    apply (List.perm_ext_iff_of_nodup apart List.nodup_range).mpr
    intro serial
    rw [List.mem_range]
    constructor
    · intro member
      obtain ⟨item, one, rfl⟩ := List.mem_map.mp member
      exact (List.getElem?_eq_some_iff.mp (numbered item one)).1
    · intro below
      obtain ⟨key, spelt, named⟩ := covered _ (List.getElem_mem below)
      have found : ⟨serial, descriptors[serial]⟩ ∈ registry.descriptorsOf key :=
        (mem_descriptorsOf_iff holding).mpr ⟨List.getElem?_eq_getElem below, named⟩
      exact (complete _ (List.mem_flatMap.mpr ⟨key, spelt, found⟩)).resolve_right List.not_mem_nil
  have entries : (firsts.map Registered.serial).map (descriptors[·]?) = (firsts.map Registered.entry).map some := by
    rw [List.map_map, List.map_map]
    exact List.map_congr_left numbered
  have all : (List.range descriptors.length).map (descriptors[·]?) = descriptors.map some :=
    List.ext_getElem (by simp) (by simp)
  have perm := serials.map (descriptors[·]?)
  rw [entries, all] at perm
  rw [listed]
  simpa using perm.filterMap id

theorem distinct_flatMap_again {found : String → List (Registered β)} {keys : List String} {key : String}
    (member : key ∈ keys) (rest : List String) :
    distinct ((keys ++ key :: rest).flatMap found) [] = distinct ((keys ++ rest).flatMap found) [] := by
  have seen : ∀ item ∈ found key, item.serial ∈ (keys.flatMap found).map Registered.serial ++ [] := by
    intro item there
    have among := List.mem_map_of_mem (f := Registered.serial) (List.mem_flatMap.mpr ⟨key, member, there⟩)
    exact List.mem_append_left _ among
  rw [List.flatMap_append, List.flatMap_append, distinct_append, distinct_append, List.flatMap_cons, distinct_append,
    distinct_of_seen seen, List.nil_append]
  congr 1
  apply distinct_congr
  intro serial
  rw [List.mem_append]
  constructor
  · rintro (new | known)
    · obtain ⟨item, there, rfl⟩ := List.mem_map.mp new
      exact seen item there
    · exact known
  · exact .inr

/-- The names that are remembered list the same as the names as they were spelled. -/
theorem distinct_remember (found : String → List (Registered β)) (names : List String) (table : Table String) :
    distinct ((remember names table).keys.flatMap found) [] =
      distinct ((table.keys ++ names.map fold).flatMap found) [] := by
  induction names generalizing table with
  | nil => simp [remember]
  | cons name rest ih =>
    rw [remember, List.foldl_cons, ← remember, ih, Table.keys_insertNew, List.map_cons]
    split
    · rename_i present
      exact (distinct_flatMap_again present _).symm
    · rw [List.append_assoc, List.singleton_append]

/-- A registry lists what is held under the names as they were spelled. -/
theorem descriptors_foldl_record (system : NumberSystem α) (settings : Settings) (descriptors : List (Descriptor α)) :
    let registry := (descriptors.map .ofDescriptor).foldl record (empty system settings)
    registry.descriptors = distinct ((descriptors.flatMap Descriptor.keys).flatMap registry.descriptorsOf) [] := by
  intro registry
  have spelled : (descriptors.map .ofDescriptor).flatMap Event.callables =
      descriptors.flatMap fun descriptor => descriptor.naming.names := by
    rw [List.flatMap_map]
    exact congrArg (descriptors.flatMap ·) (funext callables_ofDescriptor)
  have names : registry.names = remember ((descriptors.map .ofDescriptor).flatMap Event.callables) [] :=
    names_foldl_record _ _
  rw [Registry.descriptors, names, distinct_remember, spelled, List.map_flatMap]
  rfl

theorem covered_keys (descriptors : List (Descriptor α)) :
    ∀ descriptor ∈ descriptors, ∃ key ∈ descriptors.flatMap Descriptor.keys, key ∈ descriptor.keys := by
  intro descriptor member
  obtain ⟨key, named⟩ := List.exists_mem_of_ne_nil _ descriptor.keys_ne_nil
  exact ⟨key, List.mem_flatMap.mpr ⟨descriptor, member, named⟩, named⟩

/-- What has been registered is listed once each, by the first of all names spelled that is its own and by its kind. -/
theorem descriptors_listed {system : NumberSystem α} {settings : Settings}
    (added : descriptors.foldlM add (empty system settings) = .ok registry) (apart : KindsApart descriptors) :
    registry.descriptors.Perm descriptors ∧
      registry.descriptors.Pairwise (ListedBefore (descriptors.flatMap Descriptor.keys)) := by
  obtain rfl := foldlM_add_eq_record added
  have holding := holding_foldl_record apart system settings
  have perm := distinct_perm holding (covered_keys descriptors)
  have sorted := distinct_listed holding (descriptors.flatMap Descriptor.keys)
  rw [← descriptors_foldl_record system settings descriptors] at perm sorted
  exact ⟨perm, sorted⟩

/-- No two descriptors are listed one before the other and the other before the one. -/
theorem eq_of_listedBefore {spelled : List String} {first second : List (Descriptor α)} (perm : first.Perm second)
    (sorted : first.Pairwise (ListedBefore spelled)) (ordered : second.Pairwise (ListedBefore spelled)) :
    first = second := by
  refine perm.eq_of_pairwise ?_ sorted ordered
  rintro one other - - (earlier | ⟨same, earlier⟩) (later | ⟨sameToo, later⟩) <;> omega

/-- Registrations on an empty registry that succeed, with no folded name twice for one kind, are listed once each, by
the first of all names spelled that is one of theirs and then by their kinds. So they are listed in the order in which
they were made exactly if that is the order of these names and kinds. -/
theorem descriptors_in_order_iff {system : NumberSystem α} {settings : Settings}
    (added : descriptors.foldlM add (empty system settings) = .ok registry) (apart : KindsApart descriptors) :
    let spelled := descriptors.flatMap Descriptor.keys
    registry.descriptors.Perm descriptors ∧ registry.descriptors.Pairwise (ListedBefore spelled) ∧
      (registry.descriptors = descriptors ↔ descriptors.Pairwise (ListedBefore spelled)) := by
  intro spelled
  obtain ⟨perm, sorted⟩ := descriptors_listed added apart
  exact ⟨perm, sorted, fun same => same ▸ sorted, eq_of_listedBefore perm sorted⟩

/-- A sign that is registered between two operands, behind another operator, is listed with its form before an operand,
which had come first. -/
theorem descriptors_in_order_iff_sample :
    let negation : Descriptor Int := .unary ⟨⟨"-", [], none⟩, .before, 2, fun x => .ok (-x)⟩
    let product : Descriptor Int := .binary ⟨⟨"*", ["times"], none⟩, 2, .left, fun x y => .ok (x * y)⟩
    let difference : Descriptor Int := .binary ⟨⟨"-", ["Minus"], none⟩, 1, .left, fun x y => .ok (x - y)⟩
    let descriptors := [negation, product, difference]
    ∃ registry, descriptors.foldlM add (empty (NumberSystem.Integer.system ⟨none⟩) Settings.standard) = .ok registry ∧
      KindsApart descriptors ∧ registry.descriptors.Perm descriptors ∧
      descriptors.flatMap Descriptor.keys = ["-", "*", "times", "-", "minus"] ∧
        registry.descriptors ≠ descriptors := by
  intro negation product difference descriptors
  have apart : KindsApart descriptors := by decide +kernel
  have late : ¬ descriptors.Pairwise (ListedBefore (descriptors.flatMap Descriptor.keys)) := by decide +kernel
  have writable : ∀ descriptor ∈ descriptors, descriptor.Writable := by decide +kernel
  have entered : descriptors.foldlM enterDescriptor (empty (NumberSystem.Integer.system ⟨none⟩) Settings.standard) =
      .ok _ := rfl
  have added := (foldlM_add_of_writable writable _).trans entered
  obtain ⟨perm, -, inOrder⟩ := descriptors_in_order_iff added apart
  exact ⟨_, added, apart, perm, by decide +kernel, fun same => late (inOrder.mp same)⟩

/-- Of a sign with two operands and one with a single operand the latter is listed first, though registered last. -/
theorem descriptors_out_of_order :
    let difference : Descriptor Int := .binary ⟨⟨"-", [], none⟩, 1, .left, fun x y => .ok (x - y)⟩
    let negation : Descriptor Int := .unary ⟨⟨"-", [], none⟩, .before, 2, fun x => .ok (-x)⟩
    ∃ registry, [difference, negation].foldlM add (empty (NumberSystem.Integer.system ⟨none⟩) Settings.standard) =
        .ok registry ∧
      KindsApart [difference, negation] ∧ registry.descriptors = [negation, difference] ∧
      registry.descriptors ≠ [difference, negation] := by
  intro difference negation
  have writable : ∀ descriptor ∈ [difference, negation], descriptor.Writable := by decide +kernel
  rw [foldlM_add_of_writable writable]
  refine ⟨_, rfl, by decide +kernel, rfl, ?_⟩
  intro same
  cases congrArg (List.map Descriptor.kind) same

end Registry

end Reckoner

import Mathlib.Data.List.Sort
import Mathlib.Data.Set.Card
import Mathlib.Tactic.Common

/-!
# Ordered maps

A finite map whose entries are listed in the order of their keys, as an ordered associative
container iterates over them. Looking up, inserting and erasing a key splits the entries into those
in front of it, its own one, and those behind it. The rank of a key is the number of entries in
front of it; all laws about the first entries of a map are laws about ranks.
-/

variable {κ ν : Type*} {before : κ → κ → Prop}

/-- A finite map which lists its entries in strictly increasing order of their keys. -/
@[ext]
structure OrderedMap (κ ν : Type*) (before : κ → κ → Prop) where
  /-- The entries, in order. -/
  entries : List (κ × ν)
  /-- Each key comes before all later ones. -/
  sorted : entries.Pairwise fun left right => before left.1 right.1

namespace OrderedMap

/-! ## Parts of a map -/

/-- The map without entries. -/
def empty : OrderedMap κ ν before where
  entries := []
  sorted := List.Pairwise.nil

/-- Number of entries. -/
def size (map : OrderedMap κ ν before) : ℕ := map.entries.length

/-- The first entry. -/
def first (map : OrderedMap κ ν before) : Option (κ × ν) := map.entries.head?

/-- The entry of a key. -/
def find [DecidableEq κ] (map : OrderedMap κ ν before) (key : κ) : Option (κ × ν) :=
  map.entries.find? fun entry => entry.1 = key

/-- The value of a key. -/
def lookup [DecidableEq κ] (map : OrderedMap κ ν before) (key : κ) : Option ν :=
  (map.find key).map Prod.snd

/-- The entries whose keys come before a key. -/
def front [DecidableRel before] (map : OrderedMap κ ν before) (key : κ) : List (κ × ν) :=
  map.entries.filter fun entry => before entry.1 key

/-- The entries whose keys come after a key. -/
def back [DecidableRel before] (map : OrderedMap κ ν before) (key : κ) : List (κ × ν) :=
  map.entries.filter fun entry => before key entry.1

/-- Number of entries whose keys come before a key. -/
def rank [DecidableRel before] (map : OrderedMap κ ν before) (key : κ) : ℕ :=
  (map.front key).length

/-- The entries of other keys. -/
def others [DecidableEq κ] (key : κ) (entries : List (κ × ν)) : List (κ × ν) :=
  entries.filter fun entry => entry.1 ≠ key

@[simp]
theorem entries_empty : (empty : OrderedMap κ ν before).entries = [] := rfl

theorem first_eq_none_iff {map : OrderedMap κ ν before} : map.first = none ↔ map.size = 0 := by
  rw [first, List.head?_eq_none_iff, size, List.length_eq_zero_iff]

/-- The first entry comes before all others. -/
theorem first_before {map : OrderedMap κ ν before} {best entry : κ × ν}
    (found : map.first = some best) (member : entry ∈ map.entries) :
    entry = best ∨ before best.1 entry.1 := by
  obtain ⟨rest, split⟩ := List.head?_eq_some_iff.mp found
  have sorted := map.sorted
  rw [split] at sorted member
  rcases List.mem_cons.mp member with same | later
  · exact Or.inl same
  · exact Or.inr (List.rel_of_pairwise_cons sorted later)

theorem mem_front [DecidableRel before] {map : OrderedMap κ ν before} {key : κ} {entry : κ × ν} :
    entry ∈ map.front key ↔ entry ∈ map.entries ∧ before entry.1 key := by
  simp [front]

theorem mem_back [DecidableRel before] {map : OrderedMap κ ν before} {key : κ} {entry : κ × ν} :
    entry ∈ map.back key ↔ entry ∈ map.entries ∧ before key entry.1 := by
  simp [back]

theorem rank_le_size [DecidableRel before] (map : OrderedMap κ ν before) (key : κ) :
    map.rank key ≤ map.size :=
  List.length_filter_le _ _

theorem mem_others [DecidableEq κ] {key : κ} {entries : List (κ × ν)} {entry : κ × ν} :
    entry ∈ others key entries ↔ entry ∈ entries ∧ entry.1 ≠ key := by
  simp [others]

/-- All entries count for the rank exactly when all come before the key. -/
theorem rank_eq_size_iff [DecidableRel before] {map : OrderedMap κ ν before} {key : κ} :
    map.rank key = map.size ↔ ∀ entry ∈ map.entries, before entry.1 key := by
  rw [rank, front, size, List.length_filter_eq_length_iff]
  simp

theorem front_filter_front [DecidableRel before] (map : OrderedMap κ ν before) (key : κ) :
    (map.front key).filter (fun entry => before entry.1 key) = map.front key := by
  simp [front]

section Order

variable [IsStrictTotalOrder κ before]

/-! ## Membership -/

/-- Keys of a map are distinct. -/
theorem value_unique {map : OrderedMap κ ν before} {key : κ} {left right : ν}
    (left_member : (key, left) ∈ map.entries) (right_member : (key, right) ∈ map.entries) :
    left = right := by
  have keys : (map.entries.map Prod.fst).Nodup := by
    rw [List.Nodup, List.pairwise_map]
    refine map.sorted.imp ?_
    intro left right ahead same
    exact irrefl_of before right.1 (same ▸ ahead)
  exact (Prod.mk.inj (List.inj_on_of_nodup_map keys left_member right_member rfl)).2

/-- Maps with the same entries are equal. -/
theorem eq_of_mem {left right : OrderedMap κ ν before}
    (same : ∀ key value, (key, value) ∈ left.entries ↔ (key, value) ∈ right.entries) :
    left = right := by
  have left_sorted : left.entries.Pairwise (InvImage before Prod.fst) := left.sorted
  have right_sorted : right.entries.Pairwise (InvImage before Prod.fst) := right.sorted
  exact OrderedMap.ext
    (left_sorted.eq_of_mem_iff right_sorted fun entry => same entry.1 entry.2)

section Lookup

variable [DecidableEq κ]

theorem lookup_eq_some_iff {map : OrderedMap κ ν before} {key : κ} {value : ν} :
    map.lookup key = some value ↔ (key, value) ∈ map.entries := by
  constructor
  · intro found
    obtain ⟨⟨other, stored⟩, entry, rfl⟩ := Option.map_eq_some_iff.mp found
    rw [find] at entry
    have same : other = key := by simpa using List.find?_some entry
    exact same ▸ List.mem_of_find?_eq_some entry
  · intro member
    cases found : map.find key with
    | none =>
        have absent := List.find?_eq_none.mp found (key, value) member
        exact absurd (decide_eq_true rfl) absent
    | some entry =>
        obtain ⟨other, stored⟩ := entry
        have listed := List.mem_of_find?_eq_some found
        rw [find] at found
        have same : other = key := by simpa using List.find?_some found
        subst same
        rw [lookup, find, found, Option.map_some, value_unique listed member]

theorem lookup_eq_none_iff {map : OrderedMap κ ν before} {key : κ} :
    map.lookup key = none ↔ ∀ value, (key, value) ∉ map.entries := by
  simp only [Option.eq_none_iff_forall_ne_some, ne_eq, lookup_eq_some_iff]

/-- Maps with the same values are equal. -/
theorem eq_of_lookup {left right : OrderedMap κ ν before}
    (same : ∀ key, left.lookup key = right.lookup key) : left = right := by
  apply eq_of_mem
  intro key value
  rw [← lookup_eq_some_iff, ← lookup_eq_some_iff, same]

theorem lookup_ne_none_iff {map : OrderedMap κ ν before} {key : κ} :
    map.lookup key ≠ none ↔ ∃ value, (key, value) ∈ map.entries := by
  simp only [Option.ne_none_iff_exists', lookup_eq_some_iff]

/-- A map has as many entries as it has keys with a value. -/
theorem ncard_keys (map : OrderedMap κ ν before) :
    {key | map.lookup key ≠ none}.ncard = map.size := by
  have keys : {key | map.lookup key ≠ none} = ((map.entries.map Prod.fst).toFinset : Set κ) := by
    ext key
    simp [lookup_ne_none_iff]
  have nodup : (map.entries.map Prod.fst).Nodup := by
    rw [List.Nodup, List.pairwise_map]
    exact map.sorted.imp ne_of_irrefl
  rw [keys, Set.ncard_coe_finset, List.toFinset_card_of_nodup nodup, List.length_map, size]

theorem finite_keys (map : OrderedMap κ ν before) : {key | map.lookup key ≠ none}.Finite := by
  refine (map.entries.map Prod.fst).finite_toSet.subset ?_
  intro key listed
  obtain ⟨value, member⟩ := lookup_ne_none_iff.mp listed
  exact List.mem_map.mpr ⟨(key, value), member, rfl⟩

/-- The first entry is the one whose key comes before all others. -/
theorem first_eq_some_iff {map : OrderedMap κ ν before} {key : κ} {value : ν} :
    map.first = some (key, value) ↔ map.lookup key = some value ∧
      ∀ other, map.lookup other ≠ none → other = key ∨ before key other := by
  constructor
  · intro found
    refine ⟨lookup_eq_some_iff.mpr (List.mem_of_mem_head? found), ?_⟩
    intro other listed
    obtain ⟨stored, member⟩ := lookup_ne_none_iff.mp listed
    rcases first_before found member with same | later
    · exact Or.inl (congrArg Prod.fst same)
    · exact Or.inr later
  · rintro ⟨found, least⟩
    have member := lookup_eq_some_iff.mp found
    cases head : map.first with
    | none =>
        rw [first_eq_none_iff, size, List.length_eq_zero_iff] at head
        rw [head] at member
        exact absurd member List.not_mem_nil
    | some best =>
        obtain ⟨first, stored⟩ := best
        have first_member : (first, stored) ∈ map.entries := List.mem_of_mem_head? head
        rcases first_before head member with same | later
        · rw [same]
        · rcases least first (lookup_ne_none_iff.mpr ⟨stored, first_member⟩) with rfl | earlier
          · rw [value_unique first_member member]
          · exact absurd earlier (asymm_of before later)

end Lookup

variable [DecidableRel before]

/-! ## Insertion and erasure -/

/-- Let a key have a value, or none. -/
def alter (map : OrderedMap κ ν before) (key : κ) (value : Option ν) : OrderedMap κ ν before where
  entries := map.front key ++ (value.toList.map fun stored => (key, stored)) ++ map.back key
  sorted := by
    have front_sorted : (map.front key).Pairwise fun left right => before left.1 right.1 :=
      map.sorted.filter _
    have back_sorted : (map.back key).Pairwise fun left right => before left.1 right.1 :=
      map.sorted.filter _
    have slot_sorted : (value.toList.map fun stored => (key, stored)).Pairwise
        fun left right => before left.1 right.1 := by
      cases value <;> simp
    rw [List.append_assoc, List.pairwise_append, List.pairwise_append]
    refine ⟨front_sorted, ⟨slot_sorted, back_sorted, ?_⟩, ?_⟩
    · intro entry slot later member
      obtain ⟨stored, -, rfl⟩ := List.mem_map.mp slot
      exact (mem_back.mp member).2
    · intro earlier ahead later member
      have ahead_of_key := (mem_front.mp ahead).2
      rcases List.mem_append.mp member with slot | behind
      · obtain ⟨stored, -, rfl⟩ := List.mem_map.mp slot
        exact ahead_of_key
      · exact trans_of before ahead_of_key (mem_back.mp behind).2

theorem entries_alter (map : OrderedMap κ ν before) (key : κ) (value : Option ν) :
    (map.alter key value).entries =
      map.front key ++ (value.toList.map fun stored => (key, stored)) ++ map.back key := rfl

/-- Insert or replace the value of a key. -/
def insert (map : OrderedMap κ ν before) (key : κ) (value : ν) : OrderedMap κ ν before :=
  map.alter key (some value)

/-- Erase a key, listed or not. -/
def erase (map : OrderedMap κ ν before) (key : κ) : OrderedMap κ ν before :=
  map.alter key none

/-- An altered map holds the new value of its key and the old ones of all others. -/
theorem mem_alter {map : OrderedMap κ ν before} {key other : κ} {value : Option ν} {stored : ν} :
    (other, stored) ∈ (map.alter key value).entries ↔
      (other = key ∧ value = some stored) ∨ (other ≠ key ∧ (other, stored) ∈ map.entries) := by
  have slot : (other, stored) ∈ value.toList.map (fun stored => (key, stored)) ↔
      other = key ∧ value = some stored := by
    cases value <;> simp [eq_comm]
  simp only [entries_alter, List.mem_append, slot, mem_front, mem_back]
  constructor
  · rintro ((⟨member, ahead⟩ | here) | ⟨member, behind⟩)
    · exact Or.inr ⟨ne_of_irrefl ahead, member⟩
    · exact Or.inl here
    · exact Or.inr ⟨ne_of_irrefl' behind, member⟩
  · rintro (here | ⟨different, member⟩)
    · exact Or.inl (Or.inr here)
    · rcases trichotomous_of before other key with ahead | same | behind
      · exact Or.inl (Or.inl ⟨member, ahead⟩)
      · exact absurd same different
      · exact Or.inr ⟨member, behind⟩

theorem lookup_alter [DecidableEq κ] {map : OrderedMap κ ν before} {key other : κ}
    {value : Option ν} :
    (map.alter key value).lookup other = if other = key then value else map.lookup other := by
  apply Option.ext
  intro stored
  split <;> rename_i same
  · rw [lookup_eq_some_iff, mem_alter]
    simp [same]
  · rw [lookup_eq_some_iff, lookup_eq_some_iff, mem_alter]
    simp [same]

@[simp]
theorem lookup_alter_self [DecidableEq κ] {map : OrderedMap κ ν before} {key : κ}
    {value : Option ν} : (map.alter key value).lookup key = value := by
  rw [lookup_alter, if_pos rfl]

theorem lookup_alter_of_ne [DecidableEq κ] {map : OrderedMap κ ν before} {key other : κ}
    {value : Option ν} (different : other ≠ key) :
    (map.alter key value).lookup other = map.lookup other := by
  rw [lookup_alter, if_neg different]

/-- A key which keeps its value leaves the map alone. -/
theorem alter_lookup [DecidableEq κ] (map : OrderedMap κ ν before) (key : κ) :
    map.alter key (map.lookup key) = map := by
  apply eq_of_mem
  intro other stored
  rw [mem_alter]
  by_cases same : other = key
  · simp [same, lookup_eq_some_iff]
  · simp [same]

/-- A map consists of what is in front of a key, its own entry, and what is behind it. -/
theorem entries_split [DecidableEq κ] (map : OrderedMap κ ν before) (key : κ) :
    map.entries = map.front key ++
      ((map.lookup key).toList.map fun stored => (key, stored)) ++ map.back key :=
  congrArg entries (map.alter_lookup key).symm

theorem size_split [DecidableEq κ] (map : OrderedMap κ ν before) (key : κ) :
    map.size = map.rank key + (map.lookup key).toList.length + (map.back key).length := by
  rw [size, entries_split map key, List.length_append, List.length_append, List.length_map, rank]

/-! ## Ranks in an altered map -/

theorem front_alter_self {map : OrderedMap κ ν before} {key : κ} {value : Option ν} :
    (map.alter key value).front key = map.front key := by
  have slot : (value.toList.map fun stored => (key, stored)).filter
      (fun entry => before entry.1 key) = [] := by
    cases value <;> simp [irrefl_of before key]
  have behind : (map.back key).filter (fun entry => before entry.1 key) = [] := by
    rw [List.filter_eq_nil_iff]
    intro entry member
    simpa using asymm_of before (mem_back.mp member).2
  rw [front, entries_alter, List.filter_append, List.filter_append, front_filter_front, slot,
    behind, List.append_nil, List.append_nil]

@[simp]
theorem rank_alter_self {map : OrderedMap κ ν before} {key : κ} {value : Option ν} :
    (map.alter key value).rank key = map.rank key := by
  rw [rank, front_alter_self, rank]

theorem back_alter_self {map : OrderedMap κ ν before} {key : κ} {value : Option ν} :
    (map.alter key value).back key = map.back key := by
  have slot : (value.toList.map fun stored => (key, stored)).filter
      (fun entry => before key entry.1) = [] := by
    cases value <;> simp [irrefl_of before key]
  have ahead : (map.front key).filter (fun entry => before key entry.1) = [] := by
    rw [List.filter_eq_nil_iff]
    intro entry member
    simpa using asymm_of before (mem_front.mp member).2
  have behind : (map.back key).filter (fun entry => before key entry.1) = map.back key := by
    simp [back]
  rw [back, entries_alter, List.filter_append, List.filter_append, ahead, slot, behind,
    List.nil_append, List.nil_append]

/-- The size changes by the entry of the altered key. -/
theorem size_alter [DecidableEq κ] (map : OrderedMap κ ν before) (key : κ) (value : Option ν) :
    (map.alter key value).size + (map.lookup key).toList.length =
      map.size + value.toList.length := by
  rw [size_split (map.alter key value) key, size_split map key, lookup_alter_self,
    back_alter_self, rank_alter_self]
  omega

theorem size_alter_le [DecidableEq κ] (map : OrderedMap κ ν before) (key : κ) (value : Option ν) :
    (map.alter key value).size ≤ map.size + 1 := by
  have sizes := map.size_alter key value
  have one_entry := Option.length_toList_le (o := value)
  omega

/-- The rank of any key changes by the entry of the altered key, if that one comes before it. -/
theorem rank_alter [DecidableEq κ] (map : OrderedMap κ ν before) (key other : κ)
    (value : Option ν) :
    (map.alter key value).rank other +
        (if before key other then (map.lookup key).toList.length else 0) =
      map.rank other + if before key other then value.toList.length else 0 := by
  have slot : ∀ held : Option ν, ((held.toList.map fun stored => (key, stored)).filter
      fun entry => before entry.1 other).length =
        if before key other then held.toList.length else 0 := by
    intro held
    by_cases ahead : before key other <;> cases held <;> simp [ahead]
  have former : map.rank other =
      ((map.front key).filter fun entry => before entry.1 other).length +
        (if before key other then (map.lookup key).toList.length else 0) +
          ((map.back key).filter fun entry => before entry.1 other).length := by
    rw [rank, front, entries_split map key, List.filter_append, List.filter_append,
      List.length_append, List.length_append, slot]
  have altered : (map.alter key value).rank other =
      ((map.front key).filter fun entry => before entry.1 other).length +
        (if before key other then value.toList.length else 0) +
          ((map.back key).filter fun entry => before entry.1 other).length := by
    rw [rank, front, entries_alter, List.filter_append, List.filter_append, List.length_append,
      List.length_append, slot]
  rw [former, altered]
  omega

/-- A key behind all others is inserted at the end. -/
theorem entries_alter_of_last {map : OrderedMap κ ν before} {key : κ} {value : ν}
    (last : ∀ entry ∈ map.entries, before entry.1 key) :
    (map.alter key (some value)).entries = map.entries ++ [(key, value)] := by
  have all_front : map.front key = map.entries := by
    rw [front, List.filter_eq_self]
    simpa using last
  have none_back : map.back key = [] := by
    rw [back, List.filter_eq_nil_iff]
    intro entry member
    simpa using asymm_of before (last entry member)
  rw [entries_alter, all_front, none_back]
  simp

end Order

/-! ## The first entries -/

/-- The map of the first `count` entries. -/
def take (map : OrderedMap κ ν before) (count : ℕ) : OrderedMap κ ν before where
  entries := map.entries.take count
  sorted := map.sorted.sublist (List.take_sublist count map.entries)

theorem entries_take (map : OrderedMap κ ν before) (count : ℕ) :
    (map.take count).entries = map.entries.take count := rfl

/-- Erase the last entry, if there is one. -/
def eraseLast (map : OrderedMap κ ν before) : OrderedMap κ ν before where
  entries := map.entries.dropLast
  sorted := map.sorted.sublist (List.dropLast_sublist map.entries)

theorem entries_eraseLast (map : OrderedMap κ ν before) :
    map.eraseLast.entries = map.entries.dropLast := rfl

@[simp]
theorem size_take (map : OrderedMap κ ν before) (count : ℕ) :
    (map.take count).size = min count map.size :=
  List.length_take

theorem size_eraseLast (map : OrderedMap κ ν before) : map.eraseLast.size = map.size - 1 :=
  List.length_dropLast

theorem take_of_size_le {map : OrderedMap κ ν before} {count : ℕ} (within : map.size ≤ count) :
    map.take count = map :=
  OrderedMap.ext (List.take_of_length_le within)

/-- Erasing the last entry of a map which is longer keeps its first entries. -/
theorem take_eraseLast {map : OrderedMap κ ν before} {count : ℕ} (longer : count < map.size) :
    map.eraseLast.take count = map.take count := by
  have within : count ≤ map.entries.length - 1 := Nat.le_sub_one_of_lt longer
  apply OrderedMap.ext
  rw [entries_take, entries_take, entries_eraseLast, List.dropLast_eq_take, List.take_take,
    Nat.min_eq_left within]

section Order

variable [IsStrictTotalOrder κ before]

theorem lookup_of_lookup_take [DecidableEq κ] {map : OrderedMap κ ν before} {count : ℕ} {key : κ}
    {value : ν} (found : (map.take count).lookup key = some value) :
    map.lookup key = some value :=
  lookup_eq_some_iff.mpr (List.mem_of_mem_take (lookup_eq_some_iff.mp found))

/-- An entry of the key between those in front and those behind is none of the others. -/
theorem others_split [DecidableEq κ] {key : κ} (value : Option ν) {ahead behind : List (κ × ν)}
    (before_key : ∀ entry ∈ ahead, before entry.1 key)
    (after_key : ∀ entry ∈ behind, before key entry.1) :
    others key (ahead ++ ((value.toList.map fun stored => (key, stored)) ++ behind)) =
      ahead ++ behind := by
  have slot : (value.toList.map fun stored => (key, stored)).filter
      (fun entry => entry.1 ≠ key) = [] := by
    cases value <;> simp
  have front : ahead.filter (fun entry => entry.1 ≠ key) = ahead := by
    rw [List.filter_eq_self]
    intro entry member
    simpa using ne_of_irrefl (before_key entry member)
  have back : behind.filter (fun entry => entry.1 ≠ key) = behind := by
    rw [List.filter_eq_self]
    intro entry member
    simpa using ne_of_irrefl' (after_key entry member)
  rw [others, List.filter_append, List.filter_append, front, slot, back, List.nil_append]

variable [DecidableRel before]

/-- The entries in front of a key are the first ones. -/
theorem take_entries_of_le_rank [DecidableEq κ] {map : OrderedMap κ ν before} {count : ℕ}
    {key : κ} (behind : count ≤ map.rank key) :
    map.entries.take count = (map.front key).take count := by
  rw [entries_split map key, List.append_assoc, List.take_append_of_le_length behind]

/-- Altering a key leaves the entries in front of it alone. -/
theorem take_alter [DecidableEq κ] {map : OrderedMap κ ν before} {key : κ} {count : ℕ}
    (value : Option ν) (behind : count ≤ map.rank key) :
    (map.alter key value).entries.take count = map.entries.take count := by
  rw [take_entries_of_le_rank behind, entries_alter, List.append_assoc,
    List.take_append_of_le_length behind]

/-- A key is among the first entries exactly when its rank says so. -/
theorem mem_take_iff [DecidableEq κ] {map : OrderedMap κ ν before} {count : ℕ} {key : κ}
    {value : ν} :
    (key, value) ∈ (map.take count).entries ↔
      map.rank key < count ∧ (key, value) ∈ map.entries := by
  constructor
  · intro member
    refine ⟨?_, List.mem_of_mem_take member⟩
    by_contra behind
    rw [entries_take, take_entries_of_le_rank (Nat.le_of_not_lt behind)] at member
    exact irrefl_of before key (mem_front.mp (List.mem_of_mem_take member)).2
  · rintro ⟨reached, member⟩
    have found := lookup_eq_some_iff.mpr member
    have split := entries_split map key
    rw [found, Option.toList_some, List.map_singleton] at split
    have length : (map.front key ++ [(key, value)]).length ≤ count := by
      rw [List.length_append]
      exact reached
    rw [entries_take, split, List.take_append, List.take_of_length_le length]
    simp

theorem lookup_take [DecidableEq κ] {map : OrderedMap κ ν before} {count : ℕ} {key : κ} :
    (map.take count).lookup key = if map.rank key < count then map.lookup key else none := by
  apply Option.ext
  intro value
  rw [lookup_eq_some_iff, mem_take_iff]
  split <;> rename_i reached <;> simp [reached, lookup_eq_some_iff]

/-- Altering a key leaves the first entries alone exactly when the key lies behind them or keeps its
value. -/
theorem take_alter_eq_iff [DecidableEq κ] {map : OrderedMap κ ν before} {key : κ} {count : ℕ}
    {value : Option ν} :
    (map.alter key value).entries.take count = map.entries.take count ↔
      count ≤ map.rank key ∨ map.lookup key = value := by
  constructor
  · intro same
    rcases Nat.lt_or_ge (map.rank key) count with reached | behind
    · right
      have maps : (map.alter key value).take count = map.take count := OrderedMap.ext same
      have lookups := congrArg (OrderedMap.lookup · key) maps
      simp only [lookup_take, rank_alter_self, if_pos reached, lookup_alter_self] at lookups
      exact lookups.symm
    · exact Or.inl behind
  · rintro (behind | rfl)
    · exact take_alter value behind
    · rw [alter_lookup]

/-- A key among the first entries of an altered map leaves the remaining ones of them to the first
entries of other keys. -/
theorem others_take_alter [DecidableEq κ] {map : OrderedMap κ ν before} {key : κ} {count : ℕ}
    (value : Option ν) (reached : map.rank key < count) :
    others key ((map.alter key value).entries.take count) =
      (others key map.entries).take (count - value.toList.length) := by
  have one_entry := Option.length_toList_le (o := value)
  have front : (map.front key).length < count := reached
  have slot : (value.toList.map fun stored => (key, stored)).length = value.toList.length :=
    List.length_map _
  have taken : (map.alter key value).entries.take count =
      map.front key ++ ((value.toList.map fun stored => (key, stored)) ++
        (map.back key).take (count - (map.front key).length - value.toList.length)) := by
    rw [entries_alter, List.append_assoc, List.take_append, List.take_of_length_le front.le,
      List.take_append, List.take_of_length_le (by omega), slot]
  rw [taken, entries_split map key, List.append_assoc,
    others_split value (fun entry member => (mem_front.mp member).2)
      fun entry member => (mem_back.mp (List.mem_of_mem_take member)).2,
    others_split _ (fun entry member => (mem_front.mp member).2)
      fun entry member => (mem_back.mp member).2,
    List.take_append, List.take_of_length_le (l := map.front key) (by omega), Nat.sub_right_comm]

/-- A key among the first entries gives rise to a sorted list of first entries exactly when its
value is the listed one and the first entries of other keys are the listed ones. -/
theorem take_alter_eq_iff_others [DecidableEq κ] {map : OrderedMap κ ν before} {key : κ}
    {count : ℕ} {value : Option ν} {listed : List (κ × ν)} (reached : map.rank key < count)
    (sorted : listed.Pairwise fun left right => before left.1 right.1) :
    (map.alter key value).entries.take count = listed ↔
      (∀ stored, (key, stored) ∈ listed ↔ value = some stored) ∧
        others key listed = (others key map.entries).take (count - value.toList.length) := by
  have slot : ∀ stored, (key, stored) ∈ ((map.alter key value).take count).entries ↔
      value = some stored := by
    intro stored
    rw [mem_take_iff, rank_alter_self, mem_alter]
    simp [reached]
  rw [← others_take_alter value reached, ← entries_take]
  constructor
  · rintro rfl
    exact ⟨slot, rfl⟩
  · rintro ⟨level, same⟩
    have maps : (map.alter key value).take count = { entries := listed, sorted } := by
      apply eq_of_mem
      intro other stored
      by_cases here : other = key
      · subst here
        rw [slot, level]
      · have kept : ∀ entries : List (κ × ν),
            (other, stored) ∈ others key entries ↔ (other, stored) ∈ entries := by
          intro entries
          rw [mem_others, and_iff_left here]
        rw [← kept, ← same, kept]
    exact congrArg entries maps

/-- The rank of a key among the first entries. -/
theorem rank_take [DecidableEq κ] {map : OrderedMap κ ν before} {count : ℕ} {key : κ} :
    (map.take count).rank key = min count (map.rank key) := by
  have rest : ((((map.lookup key).toList.map fun stored => (key, stored)) ++
      map.back key).take (count - (map.front key).length)).filter
        (fun entry => before entry.1 key) = [] := by
    rw [List.filter_eq_nil_iff]
    intro entry member
    rcases List.mem_append.mp (List.mem_of_mem_take member) with slot | behind
    · obtain ⟨stored, -, rfl⟩ := List.mem_map.mp slot
      simpa using irrefl_of before key
    · simpa using asymm_of before (mem_back.mp behind).2
  have front_kept : ((map.front key).take count).filter (fun entry => before entry.1 key) =
      (map.front key).take count := by
    rw [List.filter_eq_self]
    intro entry member
    simpa using (mem_front.mp (List.mem_of_mem_take member)).2
  have split : (map.take count).front key = (map.front key).take count := by
    rw [front, entries_take, entries_split map key, List.append_assoc, List.take_append,
      List.filter_append, front_kept, rest, List.append_nil]
  rw [rank, split, List.length_take, rank]

/-- Restoring the value of a key among the first entries adds nothing to them. -/
theorem take_alter_lookup_take [DecidableEq κ] (map : OrderedMap κ ν before) (key : κ)
    (count : ℕ) :
    ((map.take count).alter key (map.lookup key)).take count = map.take count := by
  apply OrderedMap.ext
  rcases Nat.lt_or_ge (map.rank key) count with reached | behind
  · have kept : (map.take count).lookup key = map.lookup key := by
      rw [lookup_take, if_pos reached]
    rw [← kept, alter_lookup, entries_take, entries_take, List.take_take, Nat.min_self]
  · have still_behind : count ≤ (map.take count).rank key := by
      rw [rank_take, Nat.min_eq_left behind]
    rw [entries_take, take_alter _ still_behind, entries_take, List.take_take, Nat.min_self]

/-- A key comes before an entry exactly when its rank and its own entry lie in front of it. -/
theorem before_getElem_iff [DecidableEq κ] {map : OrderedMap κ ν before} {key : κ} {position : ℕ}
    (within : position < map.entries.length) :
    before key map.entries[position].1 ↔
      map.rank key + (map.lookup key).toList.length ≤ position := by
  have length : (map.front key ++
      ((map.lookup key).toList.map fun stored => (key, stored))).length =
        map.rank key + (map.lookup key).toList.length := by
    rw [List.length_append, List.length_map, rank]
  have found := List.getElem?_eq_getElem within
  generalize map.entries[position] = entry at found ⊢
  rw [entries_split map key] at found
  constructor
  · intro behind
    by_contra ahead
    rw [List.getElem?_append_left (length ▸ Nat.lt_of_not_le ahead)] at found
    rcases List.mem_append.mp (List.mem_of_getElem? found) with front | slot
    · exact asymm_of before behind (mem_front.mp front).2
    · obtain ⟨stored, -, rfl⟩ := List.mem_map.mp slot
      exact irrefl_of before key behind
  · intro behind
    rw [List.getElem?_append_right (length ▸ behind)] at found
    exact (mem_back.mp (List.mem_of_getElem? found)).2

end Order

/-! ## Other keys -/

/-- The other map has the same entries in the same order, under other keys. -/
def Rekeyed {μ : Type*} {after : μ → μ → Prop} (rekey : κ → μ) (map : OrderedMap κ ν before)
    (other : OrderedMap μ ν after) : Prop :=
  other.entries = map.entries.map (Prod.map rekey id)

section Rekeyed

variable {μ : Type*} {after : μ → μ → Prop} {rekey : κ → μ} {map : OrderedMap κ ν before}
  {other : OrderedMap μ ν after}

theorem Rekeyed.size (rekeyed : map.Rekeyed rekey other) : other.size = map.size := by
  rw [OrderedMap.size, rekeyed, List.length_map, OrderedMap.size]

theorem Rekeyed.first (rekeyed : map.Rekeyed rekey other) :
    other.first = map.first.map (Prod.map rekey id) := by
  rw [OrderedMap.first, rekeyed, List.head?_map, OrderedMap.first]

theorem Rekeyed.take (rekeyed : map.Rekeyed rekey other) (count : ℕ) :
    (map.take count).Rekeyed rekey (other.take count) := by
  rw [Rekeyed, entries_take, entries_take, rekeyed, List.map_take]

variable [IsStrictTotalOrder κ before] [DecidableRel before] [IsStrictTotalOrder μ after]
  [DecidableRel after]

/-- Keys which are compared alike are altered alike. -/
theorem Rekeyed.alter (rekeyed : map.Rekeyed rekey other)
    (alike : ∀ left right, after (rekey left) (rekey right) ↔ before left right) (key : κ)
    (value : Option ν) : (map.alter key value).Rekeyed rekey (other.alter (rekey key) value) := by
  have front : other.front (rekey key) = (map.front key).map (Prod.map rekey id) := by
    rw [OrderedMap.front, rekeyed, List.filter_map, OrderedMap.front]
    simp only [Function.comp_def, Prod.map_fst, alike]
  have back : other.back (rekey key) = (map.back key).map (Prod.map rekey id) := by
    rw [OrderedMap.back, rekeyed, List.filter_map, OrderedMap.back]
    simp only [Function.comp_def, Prod.map_fst, alike]
  rw [Rekeyed, entries_alter, entries_alter, front, back, List.map_append, List.map_append,
    List.map_map]
  rfl

end Rekeyed

end OrderedMap

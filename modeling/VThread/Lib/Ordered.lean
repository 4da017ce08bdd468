import Mathlib.Data.List.Nodup
import Mathlib.Order.Lattice

/-!
# Ordered collections

Collections without two items of one key, kept in the order of their keys.  A set has its items
as their own keys, and a map has pairs.
-/

namespace VThread.Lib

/-- Items in the order of their keys. -/
structure Ordered {α κ : Type} [LinearOrder κ] (key : α → κ) where
  items : List α
  sorted : items.Pairwise fun left right => key left < key right

namespace Ordered

variable {α κ : Type} [LinearOrder κ] {key : α → κ}

instance : Membership α (Ordered key) := ⟨fun collection item => item ∈ collection.items⟩

theorem mem_items {collection : Ordered key} {item : α} :
    item ∈ collection.items ↔ item ∈ collection := Iff.rfl

def empty : Ordered key := ⟨[], .nil⟩

@[simp] theorem not_mem_empty (item : α) : item ∉ (empty : Ordered key) := List.not_mem_nil

/-- The item with a key. -/
def find? (collection : Ordered key) (wanted : κ) : Option α :=
  collection.items.find? fun item => key item = wanted

/-- Add an item, in place of the one with its key. -/
def insert (collection : Ordered key) (item : α) : Ordered key where
  items := collection.items.filter (key · < key item) ++
    item :: collection.items.filter (key item < key ·)
  sorted := by
    have below : ∀ other ∈ collection.items.filter (key · < key item), key other < key item :=
      fun other member => by simpa using (List.mem_filter.mp member).2
    have above : ∀ other ∈ collection.items.filter (key item < key ·), key item < key other :=
      fun other member => by simpa using (List.mem_filter.mp member).2
    refine List.pairwise_append.mpr ⟨collection.sorted.filter _,
      List.pairwise_cons.mpr ⟨above, collection.sorted.filter _⟩, ?_⟩
    intro left isLeft right isRight
    rcases List.mem_cons.mp isRight with rfl | isRight
    · exact below left isLeft
    · exact lt_trans (below left isLeft) (above right isRight)

/-- Drop the item with a key. -/
def erase (collection : Ordered key) (dropped : κ) : Ordered key where
  items := collection.items.filter (key · ≠ dropped)
  sorted := collection.sorted.filter _

/-- The item with the least key. -/
def first? (collection : Ordered key) : Option α := collection.items.head?

def popFirst (collection : Ordered key) : Ordered key where
  items := collection.items.tail
  sorted := collection.sorted.tail

variable {collection : Ordered key} {item other : α} {wanted dropped : κ}

theorem nodup_keys (collection : Ordered key) : (collection.items.map key).Nodup :=
  List.pairwise_map.mpr (collection.sorted.imp ne_of_lt)

/-- The keys of two collections are in one order. -/
theorem keys_eq {β : Type} {key' : β → κ} {other : Ordered key'}
    (same : ∀ wanted, wanted ∈ collection.items.map key ↔ wanted ∈ other.items.map key') :
    collection.items.map key = other.items.map key' := by
  have permuted : (collection.items.map key).Perm (other.items.map key') :=
    (List.perm_ext_iff_of_nodup (nodup_keys _) (nodup_keys _)).mpr same
  refine permuted.eq_of_pairwise (fun left right _ _ less greater => ?_)
    (List.pairwise_map.mpr collection.sorted) (List.pairwise_map.mpr other.sorted)
  exact absurd less (lt_asymm greater)

/-- An item is known by its key. -/
theorem eq_of_key (isItem : item ∈ collection) (isOther : other ∈ collection)
    (same : key item = key other) : item = other :=
  List.inj_on_of_nodup_map collection.nodup_keys isItem isOther same

theorem mem_insert : other ∈ collection.insert item ↔
    other = item ∨ other ∈ collection ∧ key other ≠ key item := by
  rw [← mem_items, insert, List.mem_append, List.mem_cons, List.mem_filter, List.mem_filter,
    mem_items, decide_eq_true_eq, decide_eq_true_eq, ne_iff_lt_or_gt]
  tauto

theorem mem_erase : item ∈ collection.erase dropped ↔
    item ∈ collection ∧ key item ≠ dropped := by
  rw [← mem_items, erase, List.mem_filter, mem_items, decide_eq_true_eq]

theorem find?_eq_some : collection.find? wanted = some item ↔
    item ∈ collection ∧ key item = wanted := by
  constructor
  · intro found
    exact ⟨List.mem_of_find?_eq_some found, by simpa using List.find?_some found⟩
  · rintro ⟨member, rfl⟩
    have present : (collection.items.find? fun other => key other = key item).isSome :=
      List.find?_isSome.mpr ⟨item, member, by simp⟩
    obtain ⟨other, found⟩ := Option.isSome_iff_exists.mp present
    have same : key other = key item := by simpa using List.find?_some found
    rw [find?, found, eq_of_key (List.mem_of_find?_eq_some found) member same]

theorem find?_eq_none : collection.find? wanted = none ↔
    ∀ item ∈ collection, key item ≠ wanted := by
  rw [find?, List.find?_eq_none]
  simp only [mem_items, decide_eq_true_eq, ne_eq]

theorem find?_insert : (collection.insert item).find? wanted =
    if key item = wanted then some item else collection.find? wanted := by
  ext other
  rw [find?_eq_some, mem_insert]
  split
  · rename_i same
    constructor
    · rintro ⟨rfl | ⟨-, differ⟩, own⟩
      · rfl
      · exact absurd (own.trans same.symm) differ
    · rintro ⟨⟩
      exact ⟨.inl rfl, same⟩
  · rename_i differ
    rw [find?_eq_some]
    constructor
    · rintro ⟨rfl | ⟨member, -⟩, own⟩
      · exact absurd own differ
      · exact ⟨member, own⟩
    · rintro ⟨member, own⟩
      exact ⟨.inr ⟨member, fun same => differ (same.symm.trans own)⟩, own⟩

theorem find?_erase : (collection.erase dropped).find? wanted =
    if wanted = dropped then none else collection.find? wanted := by
  ext other
  rw [find?_eq_some, mem_erase]
  split
  · rename_i same
    constructor
    · rintro ⟨⟨-, differ⟩, own⟩
      exact absurd (own.trans same) differ
    · rintro ⟨⟩
  · rename_i differ
    rw [find?_eq_some]
    constructor
    · rintro ⟨⟨member, -⟩, own⟩
      exact ⟨member, own⟩
    · rintro ⟨member, own⟩
      exact ⟨⟨member, fun same => differ (own.symm.trans same)⟩, own⟩

theorem erase_absent (absent : collection.find? dropped = none) :
    collection.erase dropped = collection := by
  have unkeyed := find?_eq_none.mp absent
  rw [erase]
  congr
  exact List.filter_eq_self.mpr fun item member => decide_eq_true (unkeyed item member)

theorem nodup : collection.items.Nodup := by
  refine collection.sorted.imp ?_
  rintro item other less rfl
  exact lt_irrefl _ less

theorem first?_eq_none : collection.first? = none ↔ ∀ item, item ∉ collection := by
  rw [first?, List.head?_eq_none_iff, List.eq_nil_iff_forall_not_mem]
  rfl

/-- The first item is in front of all others. -/
theorem first?_cons (first : collection.first? = some item) :
    collection.items = item :: collection.popFirst.items := by
  obtain ⟨rest, items⟩ := List.head?_eq_some_iff.mp first
  change collection.items = item :: collection.items.tail
  rw [items, List.tail_cons]

theorem first?_mem (first : collection.first? = some item) : item ∈ collection := by
  rw [← mem_items, first?_cons first]
  exact List.mem_cons_self

/-- The items behind the first one have greater keys. -/
theorem lt_of_mem_popFirst (first : collection.first? = some item)
    (behind : other ∈ collection.popFirst) : key item < key other := by
  have sorted := collection.sorted
  rw [first?_cons first] at sorted
  exact (List.pairwise_cons.mp sorted).1 other behind

theorem mem_popFirst (first : collection.first? = some item) :
    other ∈ collection.popFirst ↔ other ∈ collection ∧ other ≠ item := by
  have members : other ∈ collection ↔ other = item ∨ other ∈ collection.popFirst := by
    rw [← mem_items, first?_cons first, List.mem_cons, mem_items]
  rw [members]
  constructor
  · intro behind
    refine ⟨.inr behind, ?_⟩
    rintro rfl
    exact lt_irrefl _ (lt_of_mem_popFirst first behind)
  · rintro ⟨rfl | behind, differ⟩
    · exact absurd rfl differ
    · exact behind

theorem first?_le (first : collection.first? = some item) (member : other ∈ collection) :
    key item ≤ key other := by
  by_cases same : other = item
  · rw [same]
  · exact le_of_lt (lt_of_mem_popFirst first ((mem_popFirst first).mpr ⟨member, same⟩))

/-- An item of a new key is one more. -/
theorem length_insert (absent : collection.find? (key item) = none) :
    (collection.insert item).items.length = collection.items.length + 1 := by
  have unkeyed := find?_eq_none.mp absent
  have grown : ((collection.insert item).items).Perm (item :: collection.items) := by
    refine (List.perm_ext_iff_of_nodup nodup (List.nodup_cons.mpr ⟨fun member => ?_, nodup⟩)).mpr
      fun other => ?_
    · exact unkeyed item member rfl
    · rw [mem_items, mem_insert, List.mem_cons, mem_items]
      constructor
      · rintro (same | ⟨member, -⟩)
        · exact .inl same
        · exact .inr member
      · rintro (same | member)
        · exact .inl same
        · exact .inr ⟨member, unkeyed other member⟩
  rw [grown.length_eq, List.length_cons]

/-- An item of a known key replaces the one it has. -/
theorem length_replace (present : other ∈ collection) (same : key other = key item) :
    (collection.insert item).items.length = collection.items.length := by
  have keys : ((collection.insert item).items.map key).Perm (collection.items.map key) := by
    refine (List.perm_ext_iff_of_nodup (nodup_keys _) (nodup_keys _)).mpr fun wanted => ?_
    simp only [List.mem_map, mem_items, mem_insert]
    constructor
    · rintro ⟨found, rfl | ⟨member, -⟩, rfl⟩
      · exact ⟨other, present, same⟩
      · exact ⟨found, member, rfl⟩
    · rintro ⟨found, member, rfl⟩
      by_cases equal : key found = key item
      · exact ⟨item, .inl rfl, equal.symm⟩
      · exact ⟨found, .inr ⟨member, equal⟩, rfl⟩
  simpa using keys.length_eq

theorem length_erase (present : item ∈ collection) :
    (collection.erase (key item)).items.length + 1 = collection.items.length := by
  have split : (item :: (collection.erase (key item)).items).Perm collection.items := by
    refine (List.perm_ext_iff_of_nodup (List.nodup_cons.mpr ⟨fun member => ?_, nodup⟩) nodup).mpr
      fun other => ?_
    · exact (mem_erase.mp member).2 rfl
    · rw [List.mem_cons, mem_items, mem_erase, mem_items]
      constructor
      · rintro (rfl | ⟨member, -⟩)
        · exact present
        · exact member
      · intro member
        by_cases same : key other = key item
        · exact .inl (eq_of_key member present same)
        · exact .inr ⟨member, same⟩
  rw [← split.length_eq, List.length_cons]

theorem length_erase_le : (collection.erase dropped).items.length ≤ collection.items.length :=
  List.length_filter_le _ _

theorem length_popFirst (first : collection.first? = some item) :
    collection.popFirst.items.length < collection.items.length := by
  rw [first?_cons first]
  exact Nat.lt_succ_self _

end Ordered

end VThread.Lib

import Mathlib.Algebra.Order.BigOperators.Group.Finset
import Mathlib.Data.List.Nodup
import Mathlib.Data.Nat.Count

/-!
# Items in disjoint places

Every item is in one place at most, and every place lists its items once, in the order in
which they came.  What is counted over the items is what the lengths of the lists add up to.
-/

namespace VThread.Lib

universe u v

structure Placement (κ : Type u) (α : Type v) where
  items : κ → List α
  place : α → Option κ
  nodup : ∀ kind, (items kind).Nodup
  mem_iff : ∀ kind item, item ∈ items kind ↔ place item = some kind

namespace Placement

variable {κ : Type u} {α : Type v}

def empty : Placement κ α where
  items _ := []
  place _ := none
  nodup _ := List.nodup_nil
  mem_iff := by simp

section Ops

variable [DecidableEq α]

/-- Take an item out of its place. -/
def remove (placement : Placement κ α) (item : α) : Placement κ α where
  items kind := (placement.items kind).erase item
  place := Function.update placement.place item none
  nodup kind := (placement.nodup kind).erase item
  mem_iff kind other := by
    rw [(placement.nodup kind).mem_erase_iff, placement.mem_iff]
    by_cases same : other = item
    · simp [same]
    · simp [same]

theorem remove_place_self (placement : Placement κ α) (item : α) :
    (placement.remove item).place item = none := Function.update_self ..

theorem items_erase_of_ne {placement : Placement κ α} {item : α} {kind : κ}
    (elsewhere : placement.place item ≠ some kind) :
    (placement.items kind).erase item = placement.items kind := by
  apply List.erase_of_not_mem
  rw [placement.mem_iff]
  exact elsewhere

variable [DecidableEq κ]

/-- Put an item that is nowhere at the end of a place. -/
def insert (placement : Placement κ α) (item : α) (kind : κ)
    (fresh : placement.place item = none) : Placement κ α where
  items := Function.update placement.items kind (placement.items kind ++ [item])
  place := Function.update placement.place item (some kind)
  nodup other := by
    by_cases same : other = kind
    · subst same
      rw [Function.update_self]
      apply (placement.nodup other).append (List.nodup_singleton item)
      rw [List.disjoint_singleton, placement.mem_iff, fresh]
      nofun
    · rw [Function.update_of_ne same]
      exact placement.nodup other
  mem_iff other queried := by
    by_cases same : queried = item
    · subst same
      by_cases here : other = kind
      · simp [here]
      · have absent : queried ∉ placement.items other := by
          rw [placement.mem_iff, fresh]
          nofun
        simpa [here, Ne.symm here] using absent
    · by_cases here : other = kind
      · subst here
        simp [same, placement.mem_iff]
      · simp [same, here, placement.mem_iff]

/-- Move an item to the end of a place. -/
def move (placement : Placement κ α) (item : α) (kind : κ) : Placement κ α :=
  (placement.remove item).insert item kind (placement.remove_place_self item)

variable {placement : Placement κ α} {item other : α} {kind : κ}

@[simp] theorem move_place_self : (placement.move item kind).place item = some kind :=
  Function.update_self ..

theorem move_place_ne (ne : other ≠ item) :
    (placement.move item kind).place other = placement.place other := by
  have inserted := Function.update_of_ne ne (some kind) (placement.remove item).place
  exact inserted.trans (Function.update_of_ne ne ..)

/-- The list an item comes to. -/
theorem move_items_self (elsewhere : placement.place item ≠ some kind) :
    (placement.move item kind).items kind = placement.items kind ++ [item] := by
  have inserted := Function.update_self kind ((placement.remove item).items kind ++ [item])
    (placement.remove item).items
  exact inserted.trans (congrArg (· ++ [item]) (items_erase_of_ne elsewhere))

theorem move_items_ne {there : κ} (ne : there ≠ kind) :
    (placement.move item kind).items there = (placement.items there).erase item :=
  Function.update_of_ne ne ..

theorem move_items_other {there : κ} (ne : there ≠ kind)
    (elsewhere : placement.place item ≠ some there) :
    (placement.move item kind).items there = placement.items there :=
  (move_items_ne ne).trans (items_erase_of_ne elsewhere)

end Ops

/-- The list an item leaves. -/
theorem length_erase [DecidableEq α] {placement : Placement κ α} {item : α} {kind : κ}
    (here : placement.place item = some kind) :
    ((placement.items kind).erase item).length + 1 = (placement.items kind).length := by
  have member := (placement.mem_iff kind item).2 here
  rw [List.length_erase_of_mem member]
  exact Nat.sub_add_cancel (List.length_pos_of_mem member)

/-- The lists together hold the placed items. -/
theorem sum_length [Fintype κ] (placement : Placement κ Nat) {bound : Nat}
    (bounded : ∀ item, placement.place item ≠ none → item < bound) :
    ∑ kind, (placement.items kind).length =
      Nat.count (fun item => (placement.place item).isSome = true) bound := by
  classical
  rw [Nat.count_eq_card_filter_range]
  have lists : ∀ kind, (placement.items kind).length =
      (placement.items kind).toFinset.card := fun kind =>
    (List.toFinset_card_of_nodup (placement.nodup kind)).symm
  rw [Finset.sum_congr rfl fun kind _ => lists kind, ← Finset.card_biUnion]
  · apply congrArg Finset.card
    ext item
    simp only [Finset.mem_biUnion, Finset.mem_univ, true_and, List.mem_toFinset,
      placement.mem_iff, Finset.mem_filter, Finset.mem_range]
    constructor
    · rintro ⟨kind, placed⟩
      exact ⟨bounded item (by rw [placed]; nofun), by rw [placed]; rfl⟩
    · rintro ⟨-, placed⟩
      exact Option.isSome_iff_exists.1 placed
  · intro first _ second _ ne
    refine Finset.disjoint_left.2 ?_
    intro item inFirst inSecond
    rw [List.mem_toFinset, placement.mem_iff] at inFirst inSecond
    exact ne (Option.some.inj (inFirst.symm.trans inSecond))

end Placement

end VThread.Lib

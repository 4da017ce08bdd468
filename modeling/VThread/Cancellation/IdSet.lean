import Mathlib.Data.Finset.Sort
import Mathlib.Data.Finset.Card
import Mathlib.Order.Defs.LinearOrder

/-!
# Cancellation adjacency sets

`IdSet` keeps an empty or one-element adjacency inline and switches to a hash set
from two identities on.  The `many` constructor carries that bound, so every set of
identities has exactly one representation.  `ParentSet` has the same shape and only
boxes its hash set.
-/

namespace VThread.Cancellation

/-- Deterministic adjacency: nothing, one identity, or at least two. -/
inductive IdSet where
  | empty
  | one (id : Nat)
  | many (ids : Finset Nat) (atLeastTwo : 2 ≤ ids.card)
  deriving DecidableEq

/-- Compact ancestry; its hash set is boxed. -/
abbrev ParentSet := IdSet

namespace IdSet

/-- The set of identities an adjacency stands for. -/
def toFinset : IdSet → Finset Nat
  | empty => ∅
  | one id => {id}
  | many ids _ => ids

/-- The representation of a set of identities. -/
def ofFinset (ids : Finset Nat) : IdSet :=
  if atLeastTwo : 2 ≤ ids.card then many ids atLeastTwo
  else match ids.sort (· ≤ ·) with
    | [] => empty
    | id :: _ => one id

instance : Membership Nat IdSet := ⟨fun ids id => id ∈ ids.toFinset⟩

instance (id : Nat) (ids : IdSet) : Decidable (id ∈ ids) :=
  inferInstanceAs (Decidable (id ∈ ids.toFinset))

theorem mem_def {id : Nat} {ids : IdSet} : id ∈ ids ↔ id ∈ ids.toFinset := Iff.rfl

@[simp] theorem not_mem_empty (id : Nat) : id ∉ empty := by simp [mem_def, toFinset]

@[simp] theorem mem_one {id other : Nat} : id ∈ one other ↔ id = other := by
  simp [mem_def, toFinset]

@[simp] theorem mem_many {id : Nat} {ids : Finset Nat} {atLeastTwo : 2 ≤ ids.card} :
    id ∈ many ids atLeastTwo ↔ id ∈ ids := Iff.rfl

/-- One representation for each set. -/
theorem toFinset_injective : Function.Injective toFinset := by
  intro left right equal
  cases left with
  | empty =>
      cases right with
      | empty => rfl
      | one id => simp [toFinset] at equal
      | many ids atLeastTwo =>
          simp only [toFinset] at equal
          subst equal
          simp at atLeastTwo
  | one id =>
      cases right with
      | empty => simp [toFinset] at equal
      | one other => simpa [toFinset] using equal
      | many ids atLeastTwo =>
          simp only [toFinset] at equal
          subst equal
          simp at atLeastTwo
  | many ids atLeastTwo =>
      cases right with
      | empty =>
          simp only [toFinset] at equal
          subst equal
          simp at atLeastTwo
      | one id =>
          simp only [toFinset] at equal
          subst equal
          simp at atLeastTwo
      | many =>
          simp only [toFinset] at equal
          subst equal
          rfl

theorem ext {left right : IdSet} (same : ∀ id, id ∈ left ↔ id ∈ right) : left = right :=
  toFinset_injective (Finset.ext same)

def isEmpty : IdSet → Bool
  | empty => true
  | _ => false

def len : IdSet → Nat
  | empty => 0
  | one _ => 1
  | many ids _ => ids.card

/-- Insert an identity and report whether it was absent. -/
def insert (ids : IdSet) (id : Nat) : IdSet × Bool :=
  match ids with
  | empty => (one id, true)
  | one existing =>
      if different : existing = id then (one existing, false)
      else (many {existing, id} (Finset.card_pair different).ge, true)
  | many ids atLeastTwo =>
      (many (Insert.insert id ids)
        (atLeastTwo.trans (Finset.card_le_card (Finset.subset_insert id ids))),
        decide (id ∉ ids))

/-- Remove an identity; a hash set left with one element is replaced by it. -/
def remove (ids : IdSet) (id : Nat) : IdSet :=
  match ids with
  | empty => empty
  | one existing => if existing = id then empty else one existing
  | many ids _ => ofFinset (ids.erase id)

/-- The identities in iteration order.  The hash order of the source is not
specified; no result depends on the order chosen here. -/
def toList : IdSet → List Nat
  | empty => []
  | one id => [id]
  | many ids _ => ids.sort (· ≤ ·)

/-- Collect identities, keeping each of them once. -/
def ofList (ids : List Nat) : IdSet :=
  ids.foldl (fun set id => (set.insert id).1) empty

/-- Insert every identity of another set. -/
def extendSet (ids other : IdSet) : IdSet :=
  other.toList.foldl (fun set id => (set.insert id).1) ids

/-! ## Set semantics -/

@[simp] theorem toFinset_ofFinset (ids : Finset Nat) : (ofFinset ids).toFinset = ids := by
  unfold ofFinset
  split
  next => rfl
  next small =>
    have cardLe : ids.card ≤ 1 := by omega
    rcases ids.eq_empty_or_nonempty with rfl | ⟨id, member⟩
    · simp [toFinset]
    · have single : ids = {id} := by
        apply Finset.eq_singleton_iff_unique_mem.2
        exact ⟨member, fun other otherMem => Finset.card_le_one.1 cardLe _ otherMem _ member⟩
      subst single
      simp [toFinset]

@[simp] theorem mem_ofFinset {id : Nat} {ids : Finset Nat} : id ∈ ofFinset ids ↔ id ∈ ids := by
  rw [mem_def, toFinset_ofFinset]

@[simp] theorem isEmpty_iff {ids : IdSet} : ids.isEmpty = true ↔ ∀ id, id ∉ ids := by
  cases ids with
  | empty => simp [isEmpty]
  | one id => simp [isEmpty]
  | many ids =>
      have nonempty : ids.Nonempty := Finset.card_pos.1 (by omega)
      obtain ⟨id, member⟩ := nonempty
      simp only [isEmpty, Bool.false_eq_true, mem_many, false_iff, not_forall, not_not]
      exact ⟨id, member⟩

@[simp] theorem len_eq_card (ids : IdSet) : ids.len = ids.toFinset.card := by
  cases ids <;> simp [len, toFinset]

@[simp] theorem mem_insert {ids : IdSet} {id other : Nat} :
    other ∈ (ids.insert id).1 ↔ other = id ∨ other ∈ ids := by
  cases ids with
  | empty => simp [insert]
  | one =>
      simp only [insert]
      split
      next equal => subst equal; simp
      next => simp [or_comm]
  | many => simp [insert]

@[simp] theorem insert_added {ids : IdSet} {id : Nat} :
    (ids.insert id).2 = true ↔ id ∉ ids := by
  cases ids with
  | empty => simp [insert]
  | one =>
      simp only [insert]
      split
      next equal => simp [equal]
      next different => simp [Ne.symm different]
  | many => simp [insert]

@[simp] theorem mem_remove {ids : IdSet} {id other : Nat} :
    other ∈ ids.remove id ↔ other ≠ id ∧ other ∈ ids := by
  cases ids with
  | empty => simp [remove]
  | one =>
      simp only [remove]
      split
      next equal => subst equal; simp
      next different =>
        simp only [mem_one]
        constructor
        · rintro rfl
          exact ⟨different, rfl⟩
        · exact And.right
  | many => simp [remove]

@[simp] theorem mem_toList {ids : IdSet} {id : Nat} : id ∈ ids.toList ↔ id ∈ ids := by
  cases ids <;> simp [toList]

theorem nodup_toList (ids : IdSet) : ids.toList.Nodup := by
  cases ids with
  | empty => simp [toList]
  | one id => simp [toList]
  | many => exact Finset.sort_nodup _ _

theorem mem_foldl_insert {ids : List Nat} {set : IdSet} {id : Nat} :
    id ∈ ids.foldl (fun set id => (set.insert id).1) set ↔ id ∈ ids ∨ id ∈ set := by
  induction ids generalizing set with
  | nil => simp
  | cons head tail ih =>
      simp only [List.foldl_cons, ih, mem_insert, List.mem_cons]
      tauto

@[simp] theorem mem_ofList {ids : List Nat} {id : Nat} : id ∈ ofList ids ↔ id ∈ ids := by
  simp [ofList, mem_foldl_insert]

@[simp] theorem mem_extendSet {ids other : IdSet} {id : Nat} :
    id ∈ ids.extendSet other ↔ id ∈ ids ∨ id ∈ other := by
  simp [extendSet, mem_foldl_insert, or_comm]

end IdSet

end VThread.Cancellation

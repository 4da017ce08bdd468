import Mathlib.Data.List.GetD
import Mathlib.Data.List.Nodup
import Mathlib.Order.Lattice
import Mathlib.Order.Nat

/-!
# Binary search

A search halves the range of a sorted list until one item is left, and compares this one.
-/

namespace VThread.Lib

variable {items : List Nat} {target : Nat}

/-- Halve a range of a list, with the number of halvings that are still allowed. -/
def halve (items : List Nat) (target : Nat) : Nat → Nat → Nat → Nat
  | 0, base, _ => base
  | fuel + 1, base, size =>
      if 1 < size then
        let half := size / 2
        halve items target fuel
          (if target < items.getD (base + half) 0 then base else base + half) (size - half)
      else base

/-- `binary_search_by_key`. -/
def binarySearch (items : List Nat) (target : Nat) : Option Nat :=
  let base := halve items target items.length 0 items.length
  if items[base]? = some target then some base else none

/-- What is found is there. -/
theorem getElem_of_binarySearch {index : Nat} (found : binarySearch items target = some index) :
    items[index]? = some target := by
  unfold binarySearch at found
  dsimp only at found
  split at found
  · rename_i equal
    cases found
    exact equal
  · cases found

/-- The range of a sorted list never loses the target. -/
theorem halve_eq (sorted : items.Pairwise (· < ·)) {index : Nat}
    (here : items[index]? = some target) (fuel : Nat) {base size : Nat} (enough : size ≤ fuel + 1)
    (above : base ≤ index) (below : index < base + size) (fits : base + size ≤ items.length) :
    halve items target fuel base size = index := by
  induction fuel generalizing base size with
  | zero =>
      rw [halve]
      omega
  | succ fuel ih =>
      rw [halve]
      split
      · rename_i large
        obtain ⟨inside, isTarget⟩ := List.getElem?_eq_some_iff.mp here
        have middle : base + size / 2 < items.length := by omega
        dsimp only
        rw [List.getD_eq_getElem _ _ middle]
        split
        · -- The middle is beyond the target.
          rename_i beyond
          have before : index < base + size / 2 := by
            apply Nat.lt_of_not_le
            intro behind
            rcases Nat.eq_or_lt_of_le behind with equal | behind
            · subst equal
              omega
            · have ordered := List.pairwise_iff_getElem.mp sorted _ _ middle inside behind
              omega
          apply ih <;> omega
        · rename_i reached
          have after : base + size / 2 ≤ index := by
            apply Nat.le_of_not_lt
            intro ahead
            have ordered := List.pairwise_iff_getElem.mp sorted _ _ inside middle ahead
            omega
          apply ih <;> omega
      · omega

/-- A sorted list is searched without a miss. -/
theorem binarySearch_of_mem (sorted : items.Pairwise (· < ·)) (member : target ∈ items) :
    ∃ index, binarySearch items target = some index ∧ items[index]? = some target := by
  obtain ⟨index, here⟩ := List.mem_iff_getElem?.mp member
  have inside := (List.getElem?_eq_some_iff.mp here).1
  have reached : halve items target items.length 0 items.length = index :=
    halve_eq sorted here items.length (Nat.le_succ _) (Nat.zero_le _) (by omega) (by omega)
  refine ⟨index, ?_, here⟩
  unfold binarySearch
  dsimp only
  rw [reached, if_pos here]

end VThread.Lib

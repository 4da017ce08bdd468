import Mathlib.Data.List.Nodup
import Mathlib.Data.List.Perm.Basic

/-!
# Turns

A queue of numbered entries, at most one of each owner, in the order of their numbers.
-/

namespace VThread.Lib

variable {ι β : Type*} {owner : β → ι} {number : β → Nat}

/-- The entries have numbers below `next`. -/
structure Turns (owner : β → ι) (number : β → Nat) (entries : List β) (next : Nat) : Prop where
  owners : (entries.map owner).Nodup
  sorted : (entries.map number).Pairwise (· < ·)
  bounded : ∀ entry ∈ entries, number entry < next

namespace Turns

variable {entries entries' : List β} {entry front : β} {next : Nat}

theorem nil : Turns owner number [] next := ⟨.nil, .nil, by rintro _ ⟨⟩⟩

theorem sublist (turns : Turns owner number entries next) (fewer : entries'.Sublist entries) :
    Turns owner number entries' next :=
  ⟨turns.owners.sublist (fewer.map _), turns.sorted.sublist (fewer.map _),
    fun entry member => turns.bounded entry (fewer.subset member)⟩

theorem mono (turns : Turns owner number entries next) {next' : Nat} (le : next ≤ next') :
    Turns owner number entries next' :=
  ⟨turns.owners, turns.sorted, fun entry member =>
    Nat.lt_of_lt_of_le (turns.bounded entry member) le⟩

/-- Another owner joins the queue. -/
theorem join (turns : Turns owner number entries next) (absent : owner entry ∉ entries.map owner)
    (last : number entry = next) : Turns owner number (entries ++ [entry]) (next + 1) where
  owners := by
    rw [List.map_append]
    refine List.nodup_append.mpr ⟨turns.owners, List.nodup_singleton _, ?_⟩
    rintro other member _ isLast rfl
    exact absent (List.mem_singleton.mp isLast ▸ member)
  sorted := by
    rw [List.map_append]
    refine List.pairwise_append.mpr ⟨turns.sorted, List.pairwise_singleton _ _, ?_⟩
    rintro other member _ isLast
    obtain ⟨before, known, rfl⟩ := List.mem_map.mp member
    rw [List.mem_singleton.mp isLast, last]
    exact turns.bounded before known
  bounded other member := by
    rcases List.mem_append.mp member with member | isLast
    · exact Nat.lt_succ_of_lt (turns.bounded other member)
    · rw [List.mem_singleton.mp isLast, last]
      exact Nat.lt_succ_self _

/-- The front leaves the queue. -/
theorem not_mem_rest (turns : Turns owner number (front :: entries) next) :
    owner front ∉ entries.map owner := (List.nodup_cons.mp turns.owners).1

/-- An owner leaves the queue with its entry. -/
theorem not_mem_leave [DecidableEq ι] (turns : Turns owner number entries next) (leaver : ι) :
    leaver ∉ (entries.eraseP fun entry => owner entry = leaver).map owner := by
  have erased : (entries.eraseP fun entry => owner entry = leaver).map owner =
      (entries.map owner).erase leaver := by
    clear turns
    induction entries with
    | nil => rfl
    | cons entry entries ih =>
        by_cases own : owner entry = leaver
        · rw [List.eraseP_cons_of_pos (by simpa using own), List.map_cons, own,
            List.erase_cons_head]
        · rw [List.eraseP_cons_of_neg (by simpa using own), List.map_cons, List.map_cons,
            List.erase_cons_tail (by simpa using own), ih]
  rw [erased]
  exact turns.owners.not_mem_erase

/-- What one owner can do to a queue: nothing, join it at its end, or leave it. -/
inductive Step (owner : β → ι) (mover : ι) (entries : List β) : List β → Prop where
  | stays : Step owner mover entries entries
  | joins (entry : β) : owner entry = mover → Step owner mover entries (entries ++ [entry])
  | leaves (rest : List β) : rest.Sublist entries →
      (∀ entry ∈ entries, owner entry ≠ mover → entry ∈ rest) → Step owner mover entries rest

/-- The entries of the others stay. -/
theorem Step.others {mover : ι} (step : Step owner mover entries entries')
    (differ : owner entry ≠ mover) : entry ∈ entries' ↔ entry ∈ entries := by
  cases step with
  | stays => exact .rfl
  | joins last own =>
      rw [List.mem_append]
      constructor
      · rintro (member | isLast)
        · exact member
        · rw [List.mem_singleton.mp isLast] at differ
          exact absurd own differ
      · exact .inl
  | leaves rest fewer kept => exact ⟨fun member => fewer.subset member,
      fun member => kept entry member differ⟩

/-- Everybody else is behind the front. -/
theorem front_first (turns : Turns owner number (front :: entries) next) :
    ∀ entry ∈ entries, number front < number entry := by
  intro entry member
  exact (List.pairwise_cons.mp turns.sorted).1 _ (List.mem_map_of_mem member)

end Turns

end VThread.Lib

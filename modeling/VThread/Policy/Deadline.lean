import Mathlib.Data.List.ReduceOption
import VThread.Policy.Tree

/-!
# Deadlines

Optional deadlines are ordered with the missing one last, and `earliest` is a greatest lower
bound.
-/

namespace VThread.Policy

/-- The first deadline is the second or before it; no deadline is the latest. -/
def NoLater (first second : Option Instant) : Prop :=
  ∀ limit, second = some limit → ∃ deadline, first = some deadline ∧ deadline ≤ limit

theorem NoLater.refl (deadline : Option Instant) : NoLater deadline deadline :=
  fun limit same => ⟨limit, same, Nat.le_refl limit⟩

theorem NoLater.trans {first second third : Option Instant} (left : NoLater first second)
    (right : NoLater second third) : NoLater first third := by
  intro limit same
  obtain ⟨middle, isMiddle, le⟩ := right limit same
  obtain ⟨deadline, isDeadline, le'⟩ := left middle isMiddle
  exact ⟨deadline, isDeadline, Nat.le_trans le' le⟩

theorem NoLater.antisymm {first second : Option Instant} (left : NoLater first second)
    (right : NoLater second first) : first = second := by
  cases first with
  | none =>
      cases second with
      | none => rfl
      | some limit =>
          obtain ⟨_, missing, -⟩ := left limit rfl
          cases missing
  | some deadline =>
      obtain ⟨limit, rfl, le⟩ := right deadline rfl
      obtain ⟨_, same, le'⟩ := left limit rfl
      cases same
      rw [Nat.le_antisymm le le']

/-- A missing deadline bounds nothing. -/
@[simp] theorem noLater_none (deadline : Option Instant) : NoLater deadline none := by
  intro limit same
  cases same

/-- A deadline respects the earliest of some exactly when it respects each of them. -/
theorem noLater_earliest {deadline : Option Instant} {deadlines : List (Option Instant)} :
    NoLater deadline (earliest deadlines) ↔ ∀ other ∈ deadlines, NoLater deadline other := by
  constructor
  · intro bound other member limit isLimit
    subst isLimit
    have listed : limit ∈ deadlines.reduceOption := List.reduceOption_mem_iff.mpr member
    cases least : earliest deadlines with
    | none =>
        rw [List.min?_eq_none_iff.mp least] at listed
        cases listed
    | some instant =>
        obtain ⟨first, isFirst, le⟩ := bound instant least
        exact ⟨first, isFirst, Nat.le_trans le ((List.min?_eq_some_iff.mp least).2 limit listed)⟩
  · intro bounds limit isLimit
    have listed := (List.min?_eq_some_iff.mp isLimit).1
    exact bounds (some limit) (List.reduceOption_mem_iff.mp listed) limit rfl

theorem earliest_noLater {deadline : Option Instant} {deadlines : List (Option Instant)}
    (member : deadline ∈ deadlines) : NoLater (earliest deadlines) deadline :=
  noLater_earliest.mp (.refl _) deadline member

/-- Deadlines that bound the same instants have the same earliest one. -/
theorem earliest_congr {left right : List (Option Instant)}
    (same : ∀ deadline, (∀ other ∈ left, NoLater deadline other) ↔
      ∀ other ∈ right, NoLater deadline other) : earliest left = earliest right := by
  refine NoLater.antisymm (noLater_earliest.mpr ?_) (noLater_earliest.mpr ?_)
  · exact (same _).mp fun other member => earliest_noLater member
  · exact (same _).mpr fun other member => earliest_noLater member

end VThread.Policy

import Mathlib.Logic.Relation
import Mathlib.Order.WellFounded
import Mathlib.Order.Basic
import Mathlib.Tactic.Basic

/-!
# Reachability under graph compaction

Two rewrites of a relation that keep its reachability: bypassing one vertex by edges
from its predecessors to its successors, and folding one vertex into another that
the same sources reach.
-/

namespace VThread.Lib.Digraph

variable {α : Type}

/-- Reachability along zero or more edges. -/
abbrev Reach (edge : α → α → Prop) : α → α → Prop := Relation.ReflTransGen edge

/-- `bypassed` is `edge` without `vertex`, whose predecessors are connected to its
successors. -/
def Bypass (edge bypassed : α → α → Prop) (vertex : α) : Prop :=
  ∀ source target, bypassed source target ↔
    source ≠ vertex ∧ target ≠ vertex ∧
      (edge source target ∨ edge source vertex ∧ edge vertex target)

theorem Bypass.reach_of {edge bypassed : α → α → Prop} {vertex source target : α}
    (bypass : Bypass edge bypassed vertex) (path : Reach bypassed source target) :
    Reach edge source target := by
  induction path with
  | refl => exact .refl
  | tail _ step ih =>
      rcases ((bypass _ _).1 step).2.2 with direct | ⟨first, second⟩
      · exact ih.tail direct
      · exact (ih.tail first).tail second

/-- Bypassing a vertex without a loop keeps reachability between all others. -/
theorem Bypass.reach_iff {edge bypassed : α → α → Prop} {vertex source target : α}
    (bypass : Bypass edge bypassed vertex) (loopless : ¬ edge vertex vertex)
    (sourceNe : source ≠ vertex) (targetNe : target ≠ vertex) :
    Reach bypassed source target ↔ Reach edge source target := by
  refine ⟨bypass.reach_of, fun path => ?_⟩
  -- A path that stops at the bypassed vertex is remembered by its last edge.
  have general : ∀ last, Reach edge source last →
      (last ≠ vertex → Reach bypassed source last) ∧
      (last = vertex → ∃ before, before ≠ vertex ∧
        Reach bypassed source before ∧ edge before vertex) := by
    intro last path
    induction path with
    | refl => exact ⟨fun _ => .refl, fun equal => (sourceNe equal).elim⟩
    | @tail middle last _ step ih =>
        by_cases middleEq : middle = vertex
        · subst middleEq
          obtain ⟨before, beforeNe, path, into⟩ := ih.2 rfl
          constructor
          · intro lastNe
            exact path.tail ((bypass _ _).2 ⟨beforeNe, lastNe, .inr ⟨into, step⟩⟩)
          · rintro rfl
            exact (loopless step).elim
        · constructor
          · intro lastNe
            exact (ih.1 middleEq).tail ((bypass _ _).2 ⟨middleEq, lastNe, .inl step⟩)
          · rintro rfl
            exact ⟨middle, middleEq, ih.1 middleEq, step⟩
  exact (general target path).1 targetNe

/-- `folded` is `edge` without `removed`, whose successors now follow `kept`. -/
def Fold (edge folded : α → α → Prop) (kept removed : α) : Prop :=
  ∀ source target, folded source target ↔
    source ≠ removed ∧ target ≠ removed ∧
      (edge source target ∨ source = kept ∧ edge removed target)

/-- Folding a vertex into a smaller one keeps reachability from every source that
reaches both or neither. -/
theorem Fold.reach_iff [LinearOrder α] [WellFoundedLT α]
    {edge folded : α → α → Prop} {kept removed source target : α}
    (fold : Fold edge folded kept removed)
    (increasing : ∀ first second, edge first second → first < second)
    (lower : kept < removed)
    (equivalent : Reach edge source kept ↔ Reach edge source removed)
    (sourceNe : source ≠ removed) (targetNe : target ≠ removed) :
    Reach folded source target ↔ Reach edge source target := by
  constructor
  · intro path
    induction path with
    | refl => exact .refl
    | @tail middle last _ step ih =>
        obtain ⟨middleNe, -, direct | ⟨rfl, handed⟩⟩ := (fold _ _).1 step
        · exact (ih middleNe).tail direct
        · exact (equivalent.1 (ih middleNe)).tail handed
  · -- Edges increase, so the path to `kept` ends before `removed` is met.
    intro path
    induction target using WellFoundedLT.induction with
    | ind target ih =>
        rcases Relation.ReflTransGen.cases_tail path with rfl | ⟨middle, path, step⟩
        · exact .refl
        · by_cases middleEq : middle = removed
          · subst middleEq
            have keptNe : kept ≠ middle := lower.ne
            have toKept := ih kept (lower.trans (increasing _ _ step)) keptNe
              (equivalent.2 path)
            exact toKept.tail ((fold _ _).2 ⟨keptNe, targetNe, .inr ⟨rfl, step⟩⟩)
          · have toMiddle := ih middle (increasing _ _ step) middleEq path
            exact toMiddle.tail ((fold _ _).2 ⟨middleEq, targetNe, .inl step⟩)

/-- Along increasing edges a path never descends. -/
theorem Reach.le [LinearOrder α] {edge : α → α → Prop}
    (increasing : ∀ first second, edge first second → first < second)
    {source target : α} (path : Reach edge source target) : source ≤ target := by
  induction path with
  | refl => exact le_rfl
  | tail _ step ih => exact ih.trans (increasing _ _ step).le

end VThread.Lib.Digraph

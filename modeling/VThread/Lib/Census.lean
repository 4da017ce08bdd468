import Mathlib.Algebra.BigOperators.Finprod
import VThread.Lib.Transition

/-!
# Counting over threads

A program may have infinitely many threads, but only finitely many have moved.  What the
threads contribute to a counter adds up to a number, and a step changes that number by the
difference the moving thread makes.
-/

namespace VThread.Lib

universe u v w

variable {ι : Type u} {σ : Type v} {π : Type w}

/-- What the local states of all threads add up to. -/
noncomputable def total (weight : π → Nat) (locals : ι → π) : Nat :=
  finsum fun thread => weight (locals thread)

theorem total_eq_sum {weight : π → Nat} {locals : ι → π} {members : Finset ι}
    (covers : ∀ thread, weight (locals thread) ≠ 0 → thread ∈ members) :
    total weight locals = ∑ thread ∈ members, weight (locals thread) :=
  finsum_eq_sum_of_support_subset _ covers

theorem total_eq_zero {weight : π → Nat} {locals : ι → π}
    (idle : ∀ thread, weight (locals thread) = 0) : total weight locals = 0 :=
  finsum_eq_zero_of_forall_eq_zero idle

variable {start : π} {locals : ι → π}

theorem le_total (weight : π → Nat) (idle : weight start = 0)
    (started : {thread | locals thread ≠ start}.Finite) (thread : ι) :
    weight (locals thread) ≤ total weight locals := by
  have covers : ∀ other, weight (locals other) ≠ 0 → other ∈ started.toFinset := by
    intro other busy
    rw [Set.Finite.mem_toFinset]
    rintro (asleep : locals other = start)
    exact busy (asleep ▸ idle)
  classical
  by_cases busy : weight (locals thread) = 0
  · omega
  · rw [total_eq_sum covers, ← Finset.add_sum_erase _ _ (covers thread busy)]
    exact Nat.le_add_right _ _

section Move

variable [DecidableEq ι]

/-- A step exchanges the contribution of one thread. -/
theorem total_move (weight : π → Nat) (idle : weight start = 0)
    (started : {thread | locals thread ≠ start}.Finite) (thread : ι) (pc : π) :
    total weight (fun other => if other = thread then pc else locals other) +
        weight (locals thread) =
      total weight locals + weight pc := by
  have covers : ∀ other, weight (locals other) ≠ 0 → other ∈ insert thread started.toFinset := by
    intro other busy
    refine Finset.mem_insert_of_mem ((Set.Finite.mem_toFinset _).mpr ?_)
    rintro (asleep : locals other = start)
    exact busy (asleep ▸ idle)
  have covers' : ∀ other, weight (if other = thread then pc else locals other) ≠ 0 →
      other ∈ insert thread started.toFinset := by
    intro other busy
    by_cases same : other = thread
    · exact Finset.mem_insert.mpr (.inl same)
    · rw [if_neg same] at busy
      exact covers other busy
  have others : ∑ other ∈ (insert thread started.toFinset).erase thread,
        weight (if other = thread then pc else locals other) =
      ∑ other ∈ (insert thread started.toFinset).erase thread, weight (locals other) := by
    apply Finset.sum_congr rfl
    intro other member
    rw [if_neg (Finset.ne_of_mem_erase member)]
  have member := Finset.mem_insert_self thread started.toFinset
  rw [total_eq_sum covers, total_eq_sum covers', ← Finset.add_sum_erase _ _ member,
    ← Finset.add_sum_erase _ (fun other => weight (locals other)) member, others, if_pos rfl]
  omega

/-- In every reachable state finitely many threads have moved. -/
theorem Program.started {program : Program ι σ π} {state : Threads ι σ π}
    (reachable : program.system.Reachable state) :
    {thread | state.locals thread ≠ program.start}.Finite := by
  induction reachable with
  | initial isInitial =>
      apply Set.finite_empty.subset
      intro thread away
      exact away (isInitial.2 thread)
  | step _ taken ih =>
      cases taken with
      | mk thread moved =>
          apply (ih.insert thread).subset
          intro other away
          by_cases same : other = thread
          · exact .inl same
          · refine .inr ?_
            simpa [same] using away

end Move

end VThread.Lib

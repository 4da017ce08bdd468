import Mathlib.Data.List.Perm.Subperm
import Mathlib.Logic.Function.Basic

/-!
# Chains in memory

Nodes linked by a `next` field up to a null node, as intrusive lists keep them.
-/

namespace VThread.Lib

universe u

/-- The nodes met from `head` on, up to `null`. -/
inductive Chain {α : Type u} (null : α) (next : α → α) : α → List α → Prop where
  | nil : Chain null next null []
  | cons {head : α} {rest : List α} : head ≠ null → Chain null next (next head) rest →
      Chain null next head (head :: rest)

namespace Chain

variable {α : Type u} {null head : α} {next next' : α → α} {nodes : List α}

/-- A chain depends on the links of its own nodes only. -/
theorem frame (chain : Chain null next head nodes)
    (same : ∀ node ∈ nodes, next' node = next node) : Chain null next' head nodes := by
  induction chain with
  | nil => exact .nil
  | cons notNull _ ih =>
      apply Chain.cons notNull
      rw [same _ (List.mem_cons_self ..)]
      exact ih fun node member => same node (List.mem_cons_of_mem _ member)

theorem eq_nil (chain : Chain null next null nodes) : nodes = [] := by
  cases chain with
  | nil => rfl
  | cons notNull _ => exact (notNull rfl).elim

theorem exists_cons (chain : Chain null next head nodes) (notNull : head ≠ null) :
    ∃ rest, nodes = head :: rest ∧ Chain null next (next head) rest := by
  cases chain with
  | nil => exact (notNull rfl).elim
  | cons _ tail => exact ⟨_, rfl, tail⟩

theorem head_eq_null_iff (chain : Chain null next head nodes) : head = null ↔ nodes = [] := by
  cases chain with
  | nil => simp
  | cons notNull _ => simp [notNull]

/-- A node that links to the chain goes in front of it. -/
theorem push (chain : Chain null next head nodes) {node : α}
    (notNull : node ≠ null) (link : next' node = head)
    (same : ∀ other ∈ nodes, next' other = next other) :
    Chain null next' node (node :: nodes) := by
  apply Chain.cons notNull
  rw [link]
  exact chain.frame same

end Chain

/-- The nodes met in at most `fuel` links. -/
def walk {α : Type u} [DecidableEq α] (null : α) (next : α → α) : Nat → α → List α
  | 0, _ => []
  | fuel + 1, head => if head = null then [] else head :: walk null next fuel (next head)

theorem Chain.walk_eq {α : Type u} [DecidableEq α] {null head : α} {next : α → α}
    {nodes : List α} (chain : Chain null next head nodes) {fuel : Nat}
    (enough : nodes.length ≤ fuel) : walk null next fuel head = nodes := by
  induction fuel generalizing head nodes with
  | zero =>
      rw [List.length_eq_zero_iff.1 (Nat.le_zero.1 enough)]
      rfl
  | succ fuel ih =>
      cases chain with
      | nil => simp [walk]
      | cons notNull tail =>
          rw [walk, if_neg notNull, ih tail (Nat.le_of_succ_le_succ enough)]

/-- Distinct numbers below a bound are no more than the bound. -/
theorem length_le_of_nodup_lt {nodes : List Nat} {bound : Nat} (distinct : nodes.Nodup)
    (below : ∀ node ∈ nodes, node < bound) : nodes.length ≤ bound := by
  have subperm := List.Nodup.subperm distinct fun node member =>
    List.mem_range.2 (below node member)
  simpa using subperm.length_le

end VThread.Lib

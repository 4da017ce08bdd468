import Mathlib.Data.List.Perm.Basic
import VThread.Lib.Checked

/-!
# Sweeping a vector by swapping entries out

A loop that goes through a vector from its end, takes out one entry at a time by moving the
last one into its place, and lets a body run on it that may append entries of its own.  What
the body appends is never swept, and every entry of the start is swept once.
-/

namespace VThread.Lib

variable {α σ : Type}

/-- `Vec::swap_remove`, without its panic on an index out of range. -/
def swapRemove (entries : List α) (index : Nat) : Option (α × List α) :=
  entries[index]?.map fun entry =>
    (entry, ((entries.set index (entries.getLast?.getD entry))).dropLast)

theorem swapRemove_isSome {entries : List α} {index : Nat} (inside : index < entries.length) :
    ∃ entry rest, swapRemove entries index = some (entry, rest) := by
  rw [swapRemove, List.getElem?_eq_getElem inside]
  exact ⟨_, _, rfl⟩

theorem swapRemove_last (front : List α) (entry : α) :
    swapRemove (front ++ [entry]) front.length = some (entry, front) := by
  simp [swapRemove]

theorem swapRemove_inner (front : List α) (entry : α) (back : List α) (last : α) :
    swapRemove (front ++ entry :: (back ++ [last])) front.length =
      some (entry, front ++ last :: back) := by
  have ends : (front ++ entry :: (back ++ [last])).getLast? = some last := by
    rw [← List.cons_append, ← List.append_assoc, List.getLast?_concat]
  rw [swapRemove, ends]
  have place : (front ++ entry :: (back ++ [last]))[front.length]? = some entry := by simp
  rw [place, Option.map_some, Option.getD_some]
  have swapped : (front ++ entry :: (back ++ [last])).set front.length last =
      (front ++ last :: back) ++ [last] := by
    simp
  rw [swapped, List.dropLast_concat]

/-- Everything there is to know about a removal. -/
theorem swapRemove_cases {entries : List α} {index : Nat} {entry : α} {rest : List α}
    (removed : swapRemove entries index = some (entry, rest)) :
    ∃ front back, entries = front ++ entry :: back ∧ front.length = index ∧
      rest.Perm (front ++ back) ∧ front <+: rest := by
  have inside : index < entries.length := by
    by_contra outside
    rw [swapRemove, List.getElem?_eq_none_iff.mpr (Nat.le_of_not_lt outside)] at removed
    cases removed
  obtain ⟨front, value, back, rfl, rfl⟩ : ∃ front value back,
      entries = front ++ value :: back ∧ front.length = index :=
    ⟨entries.take index, entries[index], entries.drop (index + 1), by
      rw [List.getElem_cons_drop, List.take_append_drop], by
      rw [List.length_take]
      omega⟩
  rcases List.eq_nil_or_concat back with rfl | ⟨back, last, rfl⟩
  · rw [swapRemove_last] at removed
    cases removed
    exact ⟨rest, [], rfl, rfl, by simp, List.prefix_refl rest⟩
  · rw [List.concat_eq_append, swapRemove_inner] at removed
    cases removed
    refine ⟨front, back ++ [last], by simp, rfl, ?_, List.prefix_append ..⟩
    exact List.Perm.append_left front (List.perm_append_singleton last back).symm

/-! ## The sweep -/

variable (list : σ → List α) (replace : List α → σ → σ) (body : α → σ → Checked σ)

/-- Sweep the first so many entries from the last one to the first; also what was swept. -/
def sweep : Nat → σ → Checked (σ × List α)
  | 0, state => pure (state, [])
  | index + 1, state => do
      let (entry, rest) ← expect (swapRemove (list state) index) "swap_remove index"
      let state ← body entry (replace rest state)
      let (state, swept) ← sweep index state
      pure (state, entry :: swept)

/-- The body was run for these entries, one after the other. -/
inductive Swept (runs : α → σ → σ → Prop) : List α → σ → σ → Prop where
  | done (state : σ) : Swept runs [] state state
  | next {entry : α} {rest entries : List α} {state state' final : σ} :
      (list state).Perm (entry :: rest) → runs entry (replace rest state) state' →
      Swept runs entries state' final → Swept runs (entry :: entries) state final

variable {list replace body}

theorem Swept.imp {runs runs' : α → σ → σ → Prop}
    (weaker : ∀ entry state state', runs entry state state' → runs' entry state state')
    {entries : List α} {state state' : σ} (swept : Swept list replace runs entries state state') :
    Swept list replace runs' entries state state' := by
  induction swept with
  | done state => exact .done state
  | next perm ran _ ih => exact .next perm (weaker _ _ _ ran) ih

/-- A body that keeps an invariant and only appends is run once for every entry, on the last
entry first, and no index is out of range. -/
theorem sweep_spec {holds : σ → Prop} {runs : α → σ → σ → Prop}
    (step : ∀ state index entry rest, holds state →
      swapRemove (list state) index = some (entry, rest) →
      ∃ state', body entry (replace rest state) = .ok state' ∧ holds state' ∧
        rest <+: list state' ∧ runs entry (replace rest state) state')
    (count : Nat) {state : σ} (valid : holds state) (enough : count ≤ (list state).length) :
    ∃ state', sweep list replace body count state =
        .ok (state', ((list state).take count).reverse) ∧ holds state' ∧
      Swept list replace runs ((list state).take count).reverse state state' := by
  induction count generalizing state with
  | zero => exact ⟨state, rfl, valid, .done state⟩
  | succ index ih =>
      obtain ⟨entry, rest, removed⟩ := swapRemove_isSome (Nat.lt_of_succ_le enough)
      obtain ⟨front, back, split, rfl, perm, kept⟩ := swapRemove_cases removed
      obtain ⟨state', ran, valid', appended, did⟩ :=
        step state front.length entry rest valid removed
      have start : front <+: list state' := kept.trans appended
      obtain ⟨final, swept, valid'', others⟩ := ih valid' start.length_le
      have same : (list state').take front.length = front :=
        (List.prefix_iff_eq_take.mp start).symm
      have all : ((list state).take (front.length + 1)).reverse = entry :: front.reverse := by
        simp [split, List.take_append, List.take_of_length_le]
      refine ⟨final, ?_, valid'', ?_⟩
      · rw [sweep, removed, expect_some, ok_bind, all]
        simp only [ran, ok_bind, swept, same]
        rfl
      · rw [all]
        rw [same] at others
        refine .next ?_ did others
        rw [split]
        exact List.perm_middle.trans (perm.symm.cons entry)

end VThread.Lib

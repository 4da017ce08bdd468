import Mathlib.Data.List.Nodup

/-!
# Ledgers of tokens

A ledger lists the place of every token.  Moving the first token of a place to another place
changes the numbers of tokens at these two places only.
-/

namespace VThread.Lib

variable {α : Type} [DecidableEq α] {ledger : List α} {source target place : α}

theorem count_move_other (fromOther : place ≠ source) (toOther : place ≠ target) :
    (ledger.replace source target).count place = ledger.count place := by
  simp [List.count_replace, fromOther.symm, toOther.symm]

theorem count_move_source (differ : source ≠ target) :
    (ledger.replace source target).count source = ledger.count source - 1 := by
  by_cases member : source ∈ ledger
  · simp [List.count_replace, member, differ.symm]
  · simp [member, List.count_eq_zero_of_not_mem member]

theorem count_move_target (member : source ∈ ledger) (differ : source ≠ target) :
    (ledger.replace source target).count target = ledger.count target + 1 := by
  simp [List.count_replace, member, differ]

variable {β : Type} [DecidableEq β] {holder : α → Option β}

/-- The holders of the tokens at the places that have one, where each holder has one place. -/
theorem count_holders {place : β → α} (holds : ∀ item owner, holder item = some owner ↔
    item = place owner) (ledger : List α) (owner : β) :
    (ledger.filterMap holder).count owner = ledger.count (place owner) := by
  induction ledger with
  | nil => rfl
  | cons item ledger ih =>
      rw [List.filterMap_cons, List.count_cons]
      by_cases own : item = place owner
      · rw [(holds item owner).mpr own]
        simp [own, ih]
      · rw [beq_false_of_ne own, if_neg Bool.false_ne_true, Nat.add_zero, ← ih]
        cases held : holder item with
        | none => rfl
        | some other =>
            have differ : other ≠ owner := by
              rintro rfl
              exact own ((holds item other).mp held)
            exact List.count_cons_of_ne differ

end VThread.Lib

import Mathlib.Data.List.Basic

/-!
# First in, first out

The history of a buffer: what was put into it is what was taken out of it, followed by what it
still holds, followed by what was lost with it at its end.
-/

namespace VThread.Lib

variable {α : Type*}

structure Fifo (put taken held lost : List α) : Prop where
  order : put = taken ++ (held ++ lost)
  ended : lost ≠ [] → held = []

namespace Fifo

variable {put taken held lost : List α} {value : α}

theorem empty : Fifo ([] : List α) [] [] [] := ⟨rfl, fun _ => rfl⟩

theorem push (fifo : Fifo put taken held []) : Fifo (put ++ [value]) taken (held ++ [value]) [] :=
  ⟨by simp [fifo.order], fun lost => absurd rfl lost⟩

theorem pop (fifo : Fifo put taken (value :: held) lost) :
    Fifo put (taken ++ [value]) held lost where
  order := by simp [fifo.order]
  ended some := by cases fifo.ended some

/-- All that is held is lost. -/
theorem lose (fifo : Fifo put taken held lost) : Fifo put taken [] (held ++ lost) :=
  ⟨fifo.order, fun _ => rfl⟩

end Fifo

end VThread.Lib

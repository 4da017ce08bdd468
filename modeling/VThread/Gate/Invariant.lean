import VThread.Gate.Queue

/-!
# The invariant of a gate

What the shared state keeps, and what a thread knows at each point of its call.  A thread
knows only its own view of the shared state.
-/

namespace VThread.Gate

open VThread.Lib VThread.Wait

variable {ι : Type} [DecidableEq ι]

/-- The shared state as one thread knows it, with the number of permits that are selected for
its ticket and carried by its call. -/
structure View where
  word : WaitWord
  timed : Bool
  closed : Bool
  queued : Prop
  reserved : Prop
  selected : Nat
  carried : Nat

def Shared.view (shared : Shared ι) (thread : ι) : View where
  word := shared.word thread
  timed := shared.timed thread
  closed := shared.closed
  queued := thread ∈ shared.entries.map Entry.wait
  reserved := thread ∈ shared.tickets
  selected := shared.permits.count (.selected thread)
  carried := shared.permits.count (.carried thread)

/-- How it stands with a ticket: still queued, selected, passed over by a selection, or
removed by a close. -/
inductive Status where
  | queued
  | granted (selection : ResourceSelection)
  | lost
  | shut
  deriving DecidableEq

/-- The permits that come with a selection. -/
def permitsOf : Option ResourceSelection → Nat
  | some .permit => 1
  | _ => 0

namespace Status

/-- The selection that a ticket was given. -/
def selection? : Status → Option ResourceSelection
  | granted selection => some selection
  | _ => none

/-- Statuses with which `park_wait` returns success. -/
def Ended : Status → Prop
  | granted _ | shut => True
  | queued | lost => False

end Status

/-- The ticket of the thread has a status. -/
structure View.Is (view : View) (status : Status) : Prop where
  queued : view.queued ↔ status = .queued
  selected : view.selected = permitsOf status.selection?
  closed : status = .shut → view.closed = true
  carried : view.carried = 0

/-- The word of a ticket shows a close and a selection. -/
structure Bears (word : WaitWord) (status : Status) : Prop where
  closed : word.closed = decide (status = .shut)
  resource : word.resource = status.selection?

/-- The thread has no ticket, and its call carries a number of permits. -/
structure View.Away (view : View) (carried : Nat) : Prop where
  idle : view.word.phase = .idle
  openCell : view.word.closed = false
  queued : ¬ view.queued
  reserved : ¬ view.reserved
  selected : view.selected = 0
  carried : view.carried = carried

/-- The thread has a ticket that is in no queue any more, with a selection to dispose of. -/
structure View.Leaves (view : View) (selection : Option ResourceSelection) : Prop where
  idle : view.word.phase = .idle
  queued : ¬ view.queued
  reserved : view.reserved
  selected : view.selected = permitsOf selection
  carried : view.carried = 0

/-- A recycled cell. -/
structure Fresh (word : WaitWord) : Prop where
  idle : word.phase = .idle
  openCell : word.closed = false
  permit : word.permit = false
  resource : word.resource = none

/-- Causes for which a parked ticket returns an error. -/
def Denies (timed : Bool) (cause : WakeCause) : Prop :=
  cause = .inheritedCancelled ∨ cause = .timedOut ∧ timed = true

/-- The generation was claimed or selected for a cause. -/
def Ends (word : WaitWord) (cause : WakeCause) : Prop :=
  word.phase = .claim cause ∨ word.phase = .selected cause

/-- The word of a ticket whose wait has begun. -/
def Suspended (timed : Bool) (word : WaitWord) : Status → Prop
  | .queued => word.phase = .active ∧ word.permit = false ∨
      ∃ cause, Denies timed cause ∧ Ends word cause
  | .granted _ => word.phase = .selected .ready
  | .lost => ∃ cause, Denies timed cause ∧ Ends word cause
  | .shut => ∃ cause, (Denies timed cause ∨ cause = .closed) ∧ word.phase = .selected cause

/-- The word of a ticket that waits. -/
def Waits (timed : Bool) (word : WaitWord) : Parking → Status → Prop
  | .begin, .queued | .bind _, .queued => word.permit = false
  | .begin, .granted _ => word.permit = true
  | .begin, .shut => True
  | .begin, .lost | .bind _, _ => False
  | .parked _, status | .rollback _ _, status => Suspended timed word status

/-- A retired ticket, whose word shows its status. -/
structure View.Keeps (view : View) (status : Status) : Prop where
  idle : view.word.phase = .idle
  reserved : view.reserved
  stands : view.Is status
  bears : Bears view.word status

/-- `try_take` exchanges only a positive number of permits. -/
def TryTake.Positive : TryTake → Prop
  | .exchange available => available ≠ 0
  | .start | .load | .recheck => True

/-- What a thread knows before its next step. -/
def Fits (view : View) : Pc ι → Prop
  | .rest _ | .enter | .publish _ _ _ => view.Away 0
  | .tryTake _ stage => view.Away 0 ∧ stage.Positive
  | .reserve => view.Away 0 ∧ Fresh view.word
  | .subscribe => Fresh view.word ∧ ¬ view.queued ∧ view.reserved ∧ view.selected = 0 ∧
      view.carried = 0
  | .waiting stage => view.reserved ∧ stage.Fits view.word ∧
      ∃ status, view.Is status ∧ Bears view.word status ∧
        Waits view.timed view.word stage status
  | .check | .loadClosed => ∃ status : Status, status.Ended ∧ view.Keeps status
  | .takeResource => ∃ selection, view.Keeps (.granted selection)
  | .complete selection => view.Leaves (some selection) ∧ view.word.closed = false
  | .dropTicket _ => ∃ status, view.Keeps status
  | .dropClosed selection _ => view.Leaves selection ∧ (view.word.closed → view.closed)
  | .reset selection _ => view.Leaves selection
  | .release selection _ => view.Leaves selection ∧ view.word.closed = false
  | .signal _ => view.Away 1
  | .panicked _ => False

/-- Who owes the publication of a claim: the cell still holds it, with the interest of its
owner at most. -/
structure Owes (shared : Shared ι) (thread task : ι) (claimed : WaitWord) : Prop where
  publisher : shared.publisher task = some thread
  isClaimed : claimed.isClaimed = true
  permit : claimed.permit = false
  held : shared.word task = claimed ∨ shared.word task = claimed.withPermit true

/-- What a thread owes. -/
def Owing (shared : Shared ι) (thread : ι) : Pc ι → Prop
  | .publish task claimed _ => Owes shared thread task claimed
  | _ => True

/-- The invariant of the shared state. -/
structure Shared.Inv (shared : Shared ι) : Prop where
  waits : (shared.entries.map Entry.wait).Nodup
  sorted : (shared.entries.map Entry.arrival).Pairwise (· < ·)
  arrived : ∀ entry ∈ shared.entries, entry.arrival < shared.arrivals
  shut : shared.closed = true → shared.entries = [] ∧ shared.available = 0
  /-- No permit is stored while a ticket is queued. -/
  idle : shared.entries ≠ [] → shared.available = 0
  accounts : Accounts shared.available shared.successes shared.issued shared.closed shared.permits
  tickets : shared.tickets.Nodup
  outstanding : shared.outstanding = shared.tickets.length
  capacity : shared.outstanding ≤ shared.capacity
  active : ∀ thread, (shared.word thread).phase = .active → (shared.word thread).permit = false

end VThread.Gate

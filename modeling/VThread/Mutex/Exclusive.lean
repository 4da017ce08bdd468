import VThread.Lib.Checked

/-!
# Linear ownership of one value

The lock word of an exclusive cell, the capability that is handed from owner to owner, and
the mailbox it is handed through.
-/

namespace VThread.Mutex

def LOCKED : Nat := 1

def HAS_WAITERS : Nat := 1 <<< 1

/-- `ExclusiveCell`, without the protected value. -/
structure ExclusiveCell where
  state : Nat
  identity : Nat
  deriving DecidableEq, Repr

structure Ownership where
  identity : Nat
  deriving DecidableEq, Repr

/-- `OwnershipSlot`; zero is empty. -/
structure OwnershipSlot where
  identity : Nat
  deriving DecidableEq, Repr

inductive QueueDecision where
  | acquired
  | queued
  deriving DecidableEq, Repr

namespace OwnershipSlot

def new : OwnershipSlot := ⟨0⟩

def publish (slot : OwnershipSlot) (ownership : Ownership) : Option OwnershipSlot :=
  if slot.identity = 0 then some ⟨ownership.identity⟩ else none

def take (slot : OwnershipSlot) : OwnershipSlot × Option Ownership :=
  (⟨0⟩, if slot.identity ≠ 0 then some ⟨slot.identity⟩ else none)

end OwnershipSlot

namespace ExclusiveCell

def tryLock (cell : ExclusiveCell) : Option ExclusiveCell :=
  if cell.state = 0 then some { cell with state := LOCKED } else none

/-- The operation that decides `queue_or_lock`. -/
def queueOrLock (cell : ExclusiveCell) : Checked (ExclusiveCell × QueueDecision) :=
  if cell.state = 0 then .ok ({ cell with state := LOCKED }, .acquired)
  else if cell.state &&& LOCKED = 0 then .error "waiter marker exists without an owner"
  else if cell.state &&& HAS_WAITERS ≠ 0 then .ok (cell, .queued)
  else .ok ({ cell with state := cell.state ||| HAS_WAITERS }, .queued)

/-- Whether an ownership is the one of this locked cell. -/
def accepts (cell : ExclusiveCell) (ownership : Ownership) : Bool :=
  ownership.identity = cell.identity && cell.state &&& LOCKED ≠ 0

/-- Whether `claim` makes a guard of an ownership. -/
def claim (cell : ExclusiveCell) (ownership : Ownership) : Bool := cell.accepts ownership

def setWaiters (cell : ExclusiveCell) (ownership : Ownership) (hasWaiters : Bool) :
    Option ExclusiveCell :=
  if cell.accepts ownership then
    some { cell with state := LOCKED ||| (hasWaiters.toNat * HAS_WAITERS) }
  else none

def unlock (cell : ExclusiveCell) (ownership : Ownership) : Option ExclusiveCell :=
  if cell.accepts ownership then some { cell with state := 0 } else none

/-- `ExclusiveGuard::try_release`: the ownership is kept for a queued handoff. -/
def tryRelease (cell : ExclusiveCell) : Checked (ExclusiveCell × Option Ownership) :=
  if cell.state = LOCKED then .ok ({ cell with state := 0 }, none)
  else if cell.state &&& LOCKED = 0 then .error "exclusive guard lost ownership"
  else .ok (cell, some ⟨cell.identity⟩)

end ExclusiveCell

end VThread.Mutex

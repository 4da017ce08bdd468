import VThread.Mutex.Line

/-!
# The invariant of the mutex

What the shared state keeps, and what a thread knows at each point of its call.  A thread
knows only its own view of the shared state.
-/

namespace VThread.Mutex

open VThread.Lib VThread.Wait

variable {ι : Type} [DecidableEq ι]

/-- How the ownership stands to one thread. -/
inductive Standing where
  | none
  | call
  | granted
  | rejected
  deriving DecidableEq

namespace Holder

def standing (thread : ι) : Holder ι → Standing
  | .call other => if other = thread then .call else .none
  | .granted other => if other = thread then .granted else .none
  | .rejected other => if other = thread then .rejected else .none
  | .free | .guard => .none

variable {holder : Holder ι} {thread other : ι}

@[simp] theorem standing_free : (free : Holder ι).standing thread = .none := rfl

@[simp] theorem standing_guard : (guard : Holder ι).standing thread = .none := rfl

@[simp] theorem standing_call_self : (call thread).standing thread = .call := by
  simp [standing]

@[simp] theorem standing_granted_self : (granted thread).standing thread = .granted := by
  simp [standing]

@[simp] theorem standing_rejected_self : (rejected thread).standing thread = .rejected := by
  simp [standing]

theorem standing_call (differ : other ≠ thread) : (call other).standing thread = .none := by
  simp [standing, differ]

theorem standing_granted (differ : other ≠ thread) :
    (granted other).standing thread = .none := by
  simp [standing, differ]

theorem standing_rejected (differ : other ≠ thread) :
    (rejected other).standing thread = .none := by
  simp [standing, differ]

theorem eq_call (stands : holder.standing thread = .call) : holder = .call thread := by
  cases holder <;> simp_all [standing] <;> split at stands <;> simp_all

theorem eq_granted (stands : holder.standing thread = .granted) :
    holder = .granted thread := by
  cases holder <;> simp_all [standing] <;> split at stands <;> simp_all

theorem eq_rejected (stands : holder.standing thread = .rejected) :
    holder = .rejected thread := by
  cases holder <;> simp_all [standing] <;> split at stands <;> simp_all

/-- Whether the ownership is in the slot. -/
def inSlot : Holder ι → Bool
  | .granted _ | .rejected _ => true
  | _ => false

end Holder

/-- The shared state as one thread knows it. -/
structure View where
  word : WaitWord
  timed : Bool
  identity : Nat
  queued : Prop
  standing : Standing
  reserved : Prop
  fate : Option Fate

def Shared.view (shared : Shared ι) (thread : ι) : View where
  word := shared.word thread
  timed := shared.timed thread
  identity := shared.value.identity
  queued := thread ∈ shared.entries.map Entry.wait
  standing := shared.holder.standing thread
  reserved := thread ∈ shared.tickets
  fate := (shared.arrival thread).bind shared.fate

/-- How it stands with a ticket: still queued, given the ownership, or passed over. -/
inductive Status where
  | queued
  | granted
  | lost

namespace View

/-- The ticket of the thread has a status. -/
def Is (view : View) : Status → Prop
  | .queued => view.queued ∧ view.standing = .none ∧ view.fate = some .queued
  | .granted => ¬ view.queued ∧ view.standing = .granted ∧ view.fate = some .granted
  | .lost => ¬ view.queued ∧ view.standing = .none ∧ view.fate = some .abandoned

/-- The thread has no ticket, and the ownership stands to it as given. -/
def Away (view : View) (standing : Standing) : Prop :=
  view.word.phase = .idle ∧ ¬ view.queued ∧ view.standing = standing ∧ ¬ view.reserved

end View

/-- A recycled cell. -/
def Fresh (word : WaitWord) : Prop :=
  word.phase = .idle ∧ word.closed = false ∧ word.permit = false ∧ word.resource = none

/-- Causes for which a parked ticket returns an error. -/
def Denies (timed : Bool) (cause : WakeCause) : Prop :=
  cause = .inheritedCancelled ∨ cause = .timedOut ∧ timed = true

/-- The generation was claimed or selected for a cause. -/
def Ends (word : WaitWord) (cause : WakeCause) : Prop :=
  word.phase = .claim cause ∨ word.phase = .selected cause

/-- The word of a ticket whose wait has begun. -/
def Suspended (timed : Bool) (word : WaitWord) : Status → Prop
  | .queued => word.resource = none ∧ (word.phase = .active ∧ word.permit = false ∨
      ∃ cause, Denies timed cause ∧ Ends word cause)
  | .granted => word.resource = some .permit ∧ Ends word .ready
  | .lost => word.resource = none ∧ ∃ cause, Denies timed cause ∧ Ends word cause

/-- The word of a ticket that waits. -/
def Waits (timed : Bool) (word : WaitWord) : Parking → Status → Prop
  | .begin, .queued | .bind _, .queued => word.permit = false ∧ word.resource = none
  | .begin, .granted => word.permit = true ∧ word.resource = some .permit
  | .begin, .lost | .bind _, _ => False
  | .parked _, status | .rollback _ _, status => Suspended timed word status

/-- A retired ticket holds the resource exactly when the ownership was granted to it. -/
def Keeps (view : View) : Status → Prop
  | .granted => view.Is .granted ∧ view.word.resource = some .permit
  | status => view.Is status ∧ view.word.resource = none

/-- What a thread knows before its next step. -/
def Fits (view : View) : Pc ι → Prop
  | .rest _ | .enter | .publish _ _ _ => view.Away .none
  | .reserve => view.Away .none ∧ Fresh view.word
  | .subscribe => Fresh view.word ∧ ¬ view.queued ∧ view.standing = .none ∧ view.reserved
  | .acquired =>
      view.word.phase = .idle ∧ ¬ view.queued ∧ view.standing = .call ∧ view.reserved
  | .waiting stage => view.reserved ∧ view.word.closed = false ∧ stage.Fits view.word ∧
      ∃ status, view.Is status ∧ Waits view.timed view.word stage status
  | .resumed | .takeHandoff => view.reserved ∧ view.word.phase = .idle ∧ view.Is .granted
  | .complete ownership => view.reserved ∧ view.word.phase = .idle ∧ ¬ view.queued ∧
      view.standing = .call ∧ view.fate = some .granted ∧
      ownership.identity = view.identity
  | .claim ownership =>
      view.Away .call ∧ view.fate = some .granted ∧ ownership.identity = view.identity
  | .dropTicket selected _ => view.reserved ∧ view.word.phase = .idle ∧
      if selected then view.Is .granted
      else Keeps view .queued ∨ Keeps view .granted ∨ Keeps view .lost
  | .retire queued selected _ => view.reserved ∧ view.word.phase = .idle ∧
      if queued then view.Is .lost
      else if selected then view.Is .granted
      else Keeps view .granted ∨ Keeps view .lost
  | .takeResource _ => ¬ view.reserved ∧ view.word.phase = .idle ∧
      (Keeps view .granted ∨ Keeps view .lost)
  | .takeSelected _ => ¬ view.reserved ∧ view.word.phase = .idle ∧ view.Is .granted
  | .tryRelease => view.Away .call
  | .release ownership _ => view.Away .call ∧ ownership.identity = view.identity
  | .reclaim _ => view.Away .rejected
  | .panicked _ => False

/-- Who owes the publication of a claim: the cell still holds it, with the interest of its
owner at most. -/
def Owes (shared : Shared ι) (thread task : ι) (claimed : WaitWord) : Prop :=
  shared.publisher task = some thread ∧ claimed.isClaimed = true ∧ claimed.permit = false ∧
    (shared.word task = claimed ∨ shared.word task = claimed.withPermit true)

/-- What a thread owes. -/
def Owing (shared : Shared ι) (thread : ι) : Pc ι → Prop
  | .publish task claimed _ => Owes shared thread task claimed
  | _ => True

/-- The invariant of the shared state. -/
structure Shared.Inv (shared : Shared ι) : Prop where
  identity : 0 < shared.value.identity
  unlocked : shared.holder = .free → shared.value.state = 0
  locked : shared.holder ≠ .free →
    shared.value.state = LOCKED ∨ shared.value.state = LOCKED ||| HAS_WAITERS
  marked : shared.entries ≠ [] → shared.value.state = LOCKED ||| HAS_WAITERS
  handoff : shared.handoff.identity = if shared.holder.inSlot then shared.value.identity else 0
  guards : shared.guards = if shared.holder = .guard then 1 else 0
  line : Line shared.entries shared.arrivals shared.arrival shared.fate
  tickets : shared.tickets.Nodup
  outstanding : shared.outstanding = shared.tickets.length
  capacity : shared.outstanding ≤ shared.capacity
  active : ∀ thread, (shared.word thread).phase = .active → (shared.word thread).permit = false

end VThread.Mutex

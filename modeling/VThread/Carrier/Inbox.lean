import Mathlib.Data.BitVec

/-!
# The signal and the inbox of a carrier

What publishers and the owner carrier share besides the wake queue.  A locked section is
one operation; a signal's gate is kept apart, since the carrier holds it over several steps.
-/

namespace VThread.Carrier

/-- `u64` counters wrap. -/
abbrev Epoch := BitVec 64

/-- `Signal`, with whether the carrier holds its gate and whether it is blocked on the
condition variable, not yet notified. -/
structure Signal where
  epoch : Epoch
  waiters : Nat
  gate : Bool
  blocked : Bool
  deriving DecidableEq

def Signal.new : Signal := ⟨0, 0, false, false⟩

inductive TaskFailure where
  | scopeClosed
  | supervisorStopped
  | scopeStalled
  | runtimeStopped
  | carrierFailed
  | stackAllocation
  deriving DecidableEq, Repr

structure SpawnPacket where
  task : Nat
  scope : Nat
  deriving DecidableEq, Repr

/-- `InboxState`; the aborts are sorted by scope. -/
structure InboxState where
  starts : List SpawnPacket
  stopped : Bool
  abort : List (Nat × TaskFailure)
  deriving DecidableEq

structure Inbox where
  capacity : Nat
  state : InboxState
  pendingStarts : Nat
  stopped : Bool
  abortPending : Bool
  deriving DecidableEq

namespace Inbox

def new (capacity : Nat) : Inbox := ⟨capacity, ⟨[], false, []⟩, 0, false, false⟩

/-- Replace the queued starts and publish their depth. -/
def setStarts (inbox : Inbox) (starts : List SpawnPacket) : Inbox :=
  { inbox with state := { inbox.state with starts }, pendingStarts := starts.length }

/-- Replace the requested aborts and publish whether there are any. -/
def setAbort (inbox : Inbox) (abort : List (Nat × TaskFailure)) : Inbox :=
  { inbox with state := { inbox.state with abort }, abortPending := !abort.isEmpty }

/-- The locked section of `push`; also whether the inbox was empty, unless it rejects. -/
def push (inbox : Inbox) (packet : SpawnPacket) : Option (Inbox × Bool) :=
  if inbox.state.stopped ∨ inbox.capacity ≤ inbox.state.starts.length then none
  else some (inbox.setStarts (inbox.state.starts ++ [packet]), inbox.state.starts.isEmpty)

/-- The locked section of `drain_into`. -/
def drainInto (inbox : Inbox) (limit : Nat) : Inbox :=
  inbox.setStarts (inbox.state.starts.drop (min inbox.state.starts.length limit))

/-- The locked section of `pop_scope`. -/
def popScope (inbox : Inbox) (scope : Option Nat) : Inbox :=
  match inbox.state.starts.findIdx? (fun packet => scope.all (packet.scope == ·)) with
  | none => inbox
  | some index => inbox.setStarts (inbox.state.starts.eraseIdx index)

def hasQueuedStartsAtWaitBoundary (inbox : Inbox) : Bool := !inbox.state.starts.isEmpty

/-- The locked section of `stop`. -/
def stop (inbox : Inbox) : Inbox :=
  { inbox with state := { inbox.state with stopped := true } }

/-- Insert into the sorted aborts. -/
def insertAbort (scope : Nat) (reason : TaskFailure) :
    List (Nat × TaskFailure) → List (Nat × TaskFailure)
  | [] => [(scope, reason)]
  | (other, kept) :: rest =>
      if scope < other then (scope, reason) :: (other, kept) :: rest
      else if scope = other then (scope, reason) :: rest
      else (other, kept) :: insertAbort scope reason rest

/-- The locked section of `abort`. -/
def abort (inbox : Inbox) (scope : Nat) (reason : TaskFailure) : Inbox :=
  { inbox with
    state := { inbox.state with abort := insertAbort scope reason inbox.state.abort }
    abortPending := true }

def clearAbort (inbox : Inbox) (scope : Nat) : Inbox :=
  inbox.setAbort (inbox.state.abort.filter (fun entry => entry.1 ≠ scope))

/-- The locked section of `take_abort`. -/
def takeAbort (inbox : Inbox) : Inbox := inbox.setAbort inbox.state.abort.tail

end Inbox

end VThread.Carrier

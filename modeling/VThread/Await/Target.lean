import VThread.Carrier.Inbox
import VThread.Lib.Transition

/-!
# Waits of operating-system threads

Threads outside of the runtime wait until a task is done or a scope is drained, and carriers
complete the tasks in batches which they publish together.  No stall timeout is configured.

Every atomic operation is one step.  The lock around the scopes only excludes steps that the
model allows, and the subscribers of a completion have a model of their own.
-/

namespace VThread.Await

open VThread.Lib VThread.Carrier

abbrev TaskId := Nat
abbrev ScopeId := Nat

/-- `COMPLETION_BATCH`. -/
def completionBatch : Nat := 64

/-- `Signal`, with the number of its notifications and the threads that are blocked on the
condition variable, not yet notified. -/
structure Signal (ι : Type) where
  notified : Nat
  waiters : Nat
  gate : Option ι
  blocked : ι → Bool

/-- The version is a `u64` and wraps. -/
def epochAt (notified : Nat) : Epoch := .ofNat 64 notified

def Signal.version {ι : Type} (signal : Signal ι) : Epoch := epochAt signal.notified

/-- The arguments of `wait_until`. -/
structure Wait where
  scope : ScopeId
  target : Option TaskId
  timed : Bool
  deriving DecidableEq

/-- A task, with the carrier that owns it. -/
structure TaskRecord (ι : Type) where
  id : TaskId
  scope : ScopeId
  carrier : ι
  deriving DecidableEq

/-- `CompletionBatch`, which is never empty and has one scope. -/
structure CompletionBatch where
  scope : ScopeId
  tasks : List TaskId
  deriving DecidableEq

/-- What waiting threads are notified of. -/
inductive Change where
  | done (task : TaskId)
  | drained (scope : ScopeId)
  deriving DecidableEq

/-- What the parties share; `live` are the tasks that were admitted and not yet completed. -/
structure Shared (ι : Type) where
  signal : Signal ι
  targetWaiters : Nat
  done : TaskId → Bool
  admitted : ScopeId → Nat
  retired : ScopeId → Nat
  nextTask : TaskId
  live : List (TaskRecord ι)

/-! ## The parties -/

inductive Party (ι : Type) where
  | waiter (id : ι)
  | carrier (id : ι)
  /-- Whoever spawns tasks or notifies for other reasons. -/
  | client (id : ι)
  deriving DecidableEq

/-- The next step of a party.  A waiter keeps how many notifications there were when it read
the version; what a notification is owed for is kept with it. -/
inductive Pc (ι : Type) where
  /-- Between calls; a carrier keeps its completions. -/
  | idle (kept : Option CompletionBatch)
  -- `wait_until`
  | register (wait : Wait)
  | loadVersion (wait : Wait)
  | loadRetired (wait : Wait) (observed : Nat)
  | loadAdmitted (wait : Wait) (observed retired : Nat)
  | loadDone (wait : Wait) (observed active : Nat)
  | undone (wait : Wait) (observed : Nat)
  | unregister (wait : Wait)
  /-- "scope retired more tasks than it admitted". -/
  | panicked
  -- `Signal::wait`
  | lockGate (wait : Wait) (observed : Nat)
  | addWaiter (wait : Wait) (observed : Nat)
  | loadEpoch (wait : Wait) (observed : Nat)
  | sleep (wait : Wait) (observed : Nat)
  | blocked (wait : Wait) (observed : Nat)
  | removeWaiter (wait : Wait)
  | unlockGate (wait : Wait)
  -- `complete_task` and `queue_completion`
  | complete (scope : ScopeId) (earlier : List TaskId) (task : TaskId)
  | queue (scope : ScopeId) (earlier : List TaskId) (task : TaskId)
  | mayDefer (batch : CompletionBatch)
  -- `Shared::complete`
  | discarded (kept : Option CompletionBatch) (scope : ScopeId) (task : TaskId)
  -- `publish_completions`
  | retire (kept : Option CompletionBatch) (batch : CompletionBatch)
  | loadAdmission (kept : Option CompletionBatch) (batch : CompletionBatch) (retired : Nat)
  | loadTargets (kept : Option CompletionBatch) (batch : CompletionBatch)
  -- `submit_with` and `release_reservation`
  | reserved (task : TaskRecord ι)
  | release (task : TaskRecord ι)
  -- `Signal::notify`
  | addEpoch (kept : Option CompletionBatch) (owed : List Change)
  | loadWaiters (kept : Option CompletionBatch)
  | notifyGate (kept : Option CompletionBatch)
  deriving DecidableEq

/-- What a party decides, or the scheduler for it. -/
inductive Choice (ι : Type) where
  | wait (wait : Wait)
  /-- The deadline has passed. -/
  | expire
  /-- The condition variable returns without a notification. -/
  | spurious
  | complete (task : TaskId)
  | discard (task : TaskId)
  | flush
  | submit (scope : ScopeId) (carrier : ι)
  | accept
  | reject
  | notify
  | go
  deriving DecidableEq

variable {ι : Type} [DecidableEq ι]

/-! ## Waiting -/

namespace Wait

/-- How often a call counts in `target_waiters`. -/
def listens (wait : Wait) : Nat := if wait.target.isSome then 1 else 0

/-- `wait_until` returns if nothing is active or the target is done. -/
def checked (wait : Wait) (observed active : Nat) (done : Bool) : Pc ι :=
  if active = 0 ∨ done then .unregister wait else .undone wait observed

end Wait

/-- `wait_until`, and `Signal::wait` in it. -/
def waitStep (id : ι) : Choice ι → Shared ι → Pc ι → Option (Shared ι × Pc ι)
  | .wait wait, shared, .idle none => some (shared, .register wait)
  | .go, shared, .register wait =>
      some ({ shared with targetWaiters := shared.targetWaiters + wait.listens },
        .loadVersion wait)
  | .go, shared, .loadVersion wait =>
      some (shared, .loadRetired wait shared.signal.notified)
  | .go, shared, .loadRetired wait observed =>
      some (shared, .loadAdmitted wait observed (shared.retired wait.scope))
  | .go, shared, .loadAdmitted wait observed retired =>
      if retired ≤ shared.admitted wait.scope then
        match wait.target with
        | none => some (shared, wait.checked observed (shared.admitted wait.scope - retired) false)
        | some _ => some (shared, .loadDone wait observed (shared.admitted wait.scope - retired))
      else some (shared, .panicked)
  | .go, shared, .loadDone wait observed active =>
      some (shared, wait.checked observed active (wait.target.any shared.done))
  | .expire, shared, .undone wait _ => if wait.timed then some (shared, .unregister wait) else none
  | .go, shared, .undone wait observed => some (shared, .lockGate wait observed)
  | .go, shared, .lockGate wait observed =>
      if shared.signal.gate = none then
        some ({ shared with signal := { shared.signal with gate := some id } },
          .addWaiter wait observed)
      else none
  | .go, shared, .addWaiter wait observed =>
      some ({ shared with signal := { shared.signal with waiters := shared.signal.waiters + 1 } },
        .loadEpoch wait observed)
  | .go, shared, .loadEpoch wait observed =>
      some (shared, if shared.signal.version = epochAt observed then .sleep wait observed
        else .removeWaiter wait)
  | .expire, shared, .sleep wait _ => if wait.timed then some (shared, .removeWaiter wait) else none
  | .go, shared, .sleep wait observed =>
      -- the condition variable releases the gate and waits in one step
      some ({ shared with signal := { shared.signal with
        gate := none, blocked := Function.update shared.signal.blocked id true } },
        .blocked wait observed)
  | .go, shared, .blocked wait observed =>
      if shared.signal.blocked id = false ∧ shared.signal.gate = none then
        some ({ shared with signal := { shared.signal with gate := some id } },
          .loadEpoch wait observed)
      else none
  | .spurious, shared, .blocked wait observed =>
      if shared.signal.gate = none then
        some ({ shared with signal := { shared.signal with
          gate := some id, blocked := Function.update shared.signal.blocked id false } },
          .loadEpoch wait observed)
      else none
  | .go, shared, .removeWaiter wait =>
      some ({ shared with signal := { shared.signal with waiters := shared.signal.waiters - 1 } },
        .unlockGate wait)
  | .go, shared, .unlockGate wait =>
      some ({ shared with signal := { shared.signal with gate := none } }, .loadVersion wait)
  | .go, shared, .unregister wait =>
      some ({ shared with targetWaiters := shared.targetWaiters - wait.listens }, .idle none)
  | _, _, _ => none

/-! ## Notifications -/

/-- `Signal::notify`. -/
def notifyStep (shared : Shared ι) : Pc ι → Option (Shared ι × Pc ι)
  | .addEpoch kept _ =>
      some ({ shared with signal := { shared.signal with
        notified := shared.signal.notified + 1 } }, .loadWaiters kept)
  | .loadWaiters kept =>
      some (shared, if shared.signal.waiters = 0 then .idle kept else .notifyGate kept)
  | .notifyGate kept =>
      if shared.signal.gate = none then
        some ({ shared with signal := { shared.signal with blocked := fun _ => false } },
          .idle kept)
      else none
  | _ => none

/-! ## Completions -/

/-- The completions of a scope that a carrier has kept, unless those are of another scope. -/
def earlierTasks (scope : ScopeId) : Option CompletionBatch → Option (List TaskId)
  | none => some []
  | some batch => if batch.scope = scope then some batch.tasks else none

/-- A carrier takes one of its tasks, to complete or to discard it. -/
def takeTask (id : ι) (shared : Shared ι) (task : TaskId) : Option (Shared ι × TaskRecord ι) := do
  let record ← shared.live.find? (·.id = task)
  guard (record.carrier = id)
  pure ({ shared with live := shared.live.erase record }, record)

/-- `complete_task` with `queue_completion` and `flush_completions`, and `Shared::complete`. -/
def completeStep (id : ι) : Choice ι → Shared ι → Pc ι → Option (Shared ι × Pc ι)
  | .complete task, shared, .idle kept => do
      let (shared, record) ← takeTask id shared task
      -- `tick` flushes the completions of another scope before it runs the task
      let earlier ← earlierTasks record.scope kept
      pure (shared, .complete record.scope earlier record.id)
  | .discard task, shared, .idle kept => do
      let (shared, record) ← takeTask id shared task
      pure (shared, .discarded kept record.scope record.id)
  | .flush, shared, .idle (some batch) => some (shared, .retire none batch)
  | .go, shared, .complete scope earlier task =>
      some ({ shared with done := Function.update shared.done task true },
        .queue scope earlier task)
  | .go, shared, .queue scope earlier task =>
      some (shared, if earlier.length + 1 = completionBatch
        then .retire none ⟨scope, earlier ++ [task]⟩ else .mayDefer ⟨scope, earlier ++ [task]⟩)
  | .go, shared, .mayDefer batch =>
      some (shared, if shared.targetWaiters = 0 then .idle (some batch) else .retire none batch)
  | .go, shared, .discarded kept scope task =>
      some ({ shared with done := Function.update shared.done task true },
        .retire kept ⟨scope, [task]⟩)
  | .go, shared, .retire kept batch =>
      let retired := shared.retired batch.scope + batch.tasks.length
      some ({ shared with retired := Function.update shared.retired batch.scope retired },
        .loadAdmission kept batch retired)
  | .go, shared, .loadAdmission kept batch retired =>
      some (shared, if retired = shared.admitted batch.scope
        then .addEpoch kept (.drained batch.scope :: batch.tasks.map .done)
        else .loadTargets kept batch)
  | .go, shared, .loadTargets kept batch =>
      some (shared, if shared.targetWaiters = 0 then .idle kept
        else .addEpoch kept (batch.tasks.map .done))
  | .go, shared, pc => notifyStep shared pc
  | _, _, _ => none

/-! ## Admissions -/

/-- `submit_with` and `release_reservation`, and notifications for other reasons. -/
def clientStep : Choice ι → Shared ι → Pc ι → Option (Shared ι × Pc ι)
  | .submit scope carrier, shared, .idle none =>
      some ({ shared with
        admitted := Function.update shared.admitted scope (shared.admitted scope + 1)
        nextTask := shared.nextTask + 1 }, .reserved ⟨shared.nextTask, scope, carrier⟩)
  | .accept, shared, .reserved task =>
      some ({ shared with live := shared.live ++ [task] }, .idle none)
  | .reject, shared, .reserved task => some (shared, .release task)
  | .go, shared, .release task =>
      some ({ shared with
        admitted := Function.update shared.admitted task.scope (shared.admitted task.scope - 1) },
        .addEpoch none [.drained task.scope])
  | .notify, shared, .idle none => some (shared, .addEpoch none [])
  | .go, shared, pc => notifyStep shared pc
  | _, _, _ => none

/-! ## The program -/

def nextStep : Party ι → Choice ι → Shared ι → Pc ι → Option (Shared ι × Pc ι)
  | .waiter id => waitStep id
  | .carrier id => completeStep id
  | .client _ => clientStep

def Shared.new : Shared ι :=
  ⟨⟨0, 0, none, fun _ => false⟩, 0, fun _ => false, fun _ => 0, fun _ => 0, 1, []⟩

/-- Any number of waiting threads, carriers and clients. -/
def program (ι : Type) [DecidableEq ι] : Program (Party ι) (Shared ι) (Pc ι) where
  initial shared := shared = .new
  start := .idle none
  advance party shared pc shared' pc' :=
    ∃ choice, nextStep party choice shared pc = some (shared', pc')

end VThread.Await

import Mathlib.Algebra.Group.Nat.Defs
import VThread.Lib.Transition
import VThread.Progress.Reason

/-!
# Progress counters of a task

The carrier of a task counts the mounts that it has finished in cells of its own, and publishes the
counts in batches, at parks and at the end.  Every store that others can read is one step.
-/

namespace VThread.Counters

open VThread.Lib VThread.Progress

def counterBatch : UInt64 := 64

/-- The slot of a carrier: its mounted task, or 0. -/
structure CarrierProgress where
  slot : Nat
  deriving DecidableEq

def CarrierProgress.mounted (carrier : CarrierProgress) : Option TaskId :=
  if nonzero : carrier.slot ≠ 0 then some ⟨carrier.slot, nonzero⟩ else none

/-- `TaskProgress`: its counters and whether the last suspension was a yield. -/
structure TaskProgress where
  yielded : Bool
  mounts : UInt64
  yields : UInt64
  deriving DecidableEq

def TaskProgress.new : TaskProgress := ⟨false, 0, 0⟩

def TaskProgress.reset (progress : TaskProgress) : TaskProgress :=
  { progress with yielded := false, mounts := 0, yields := 0 }

structure TaskProgressWriter where
  nonYieldMounts : UInt64
  yields : UInt64
  yielded : Bool
  started : Bool
  deriving DecidableEq

structure TaskProgressUpdate where
  firstYield : Bool
  counters : Option (UInt64 × UInt64)
  deriving DecidableEq

/-- A store of the carrier that others can read. -/
inductive Store where
  | mounts (value : UInt64)
  | yields (value : UInt64)
  | yielded (flag : Bool)
  | mounted (slot : Nat)
  deriving DecidableEq

/-- `TaskProgress::publish`. -/
def publish (mounts yields : UInt64) : List Store := [.mounts mounts, .yields yields]

/-- `TaskProgress::apply`. -/
def TaskProgressUpdate.apply (update : TaskProgressUpdate) : List Store :=
  (match update.counters with
    | some (mounts, yields) => publish mounts yields
    | none => []) ++
  if update.firstYield then [.yielded true] else []

namespace TaskProgressWriter

def new : TaskProgressWriter := ⟨0, 0, false, false⟩

def reset (writer : TaskProgressWriter) : TaskProgressWriter :=
  { writer with nonYieldMounts := 0, yields := 0, yielded := false, started := false }

/-- Every finished mount either yields or takes one non-yield transition. -/
def mounts (writer : TaskProgressWriter) : UInt64 := writer.yields + writer.nonYieldMounts

def finishNonYieldMount (writer : TaskProgressWriter) : TaskProgressWriter :=
  { writer with nonYieldMounts := writer.nonYieldMounts + 1 }

/-- `mount`, with the slot of the carrier and whether it was the first. -/
def mount (writer : TaskProgressWriter) (task : TaskId) :
    TaskProgressWriter × CarrierProgress × Bool :=
  ({ writer with started := true }, ⟨task.get⟩, !writer.started)

/-- `yield_now`, with its stores. -/
def yieldNow (writer : TaskProgressWriter) : TaskProgressWriter × List Store :=
  let counted := { writer with yields := writer.yields + 1 }
  let counters :=
    if counted.yields % counterBatch = 0 then some (counted.mounts, counted.yields) else none
  let firstYield := !writer.yielded
  let update :=
    if firstYield || counters.isSome then (TaskProgressUpdate.mk firstYield counters).apply
    else []
  ({ counted with yielded := true }, update ++ [.mounted 0])

/-- `unmount`, with its stores. -/
def unmount (writer : TaskProgressWriter) (carrier : CarrierProgress) (task : TaskId) :
    TaskProgressWriter × List Store :=
  let counted :=
    if carrier.mounted = some task then writer.finishNonYieldMount else writer
  (counted, publish counted.mounts counted.yields ++ [.mounted 0])

/-- `park`, with its stores. -/
def park (writer : TaskProgressWriter) : TaskProgressWriter × List Store :=
  let counted := writer.finishNonYieldMount
  ({ counted with yielded := false },
    publish counted.mounts counted.yields ++
      (if counted.yielded then [.yielded false] else []) ++ [.mounted 0])

end TaskProgressWriter

/-! ## Mounts of one task -/

/-- How a mounted fiber gives its carrier back. -/
inductive FiberState where
  | yieldNow
  | park
  | complete
  deriving DecidableEq

/-- What a task is between mounts. -/
inductive Resting where
  | ready
  | parked
  | terminated
  deriving DecidableEq

/-- A task rests, is mounted, or its carrier still stores what a transition to rest publishes. -/
inductive Stage where
  | resting (rest : Resting)
  | mounted
  | storing (store : Store) (stores : List Store) (rest : Resting)
  deriving DecidableEq

def Stage.Rests (stage : Stage) : Prop :=
  stage = .resting .ready ∨ stage = .resting .parked ∨ stage = .resting .terminated

instance (stage : Stage) : Decidable stage.Rests :=
  inferInstanceAs (Decidable (_ ∨ _ ∨ _))

/-- A task, the slot of its carrier and both sides of its counters.  How many mounts it finished,
and how many of them yielded, is kept beside. -/
structure State where
  task : TaskId
  carrier : CarrierProgress
  progress : TaskProgress
  writer : TaskProgressWriter
  stage : Stage
  finished : Nat
  yielded : Nat
  deriving DecidableEq

def Store.apply (state : State) : Store → State
  | .mounts value => { state with progress := { state.progress with mounts := value } }
  | .yields value => { state with progress := { state.progress with yields := value } }
  | .yielded flag => { state with progress := { state.progress with yielded := flag } }
  | .mounted slot => { state with carrier := ⟨slot⟩ }

/-- The stage of a carrier with stores to make before a task rests. -/
def Stage.publishing (stores : List Store) (rest : Resting) : Stage :=
  match stores with
  | [] => .resting rest
  | store :: stores => .storing store stores rest

/-- What happens next: others mount and unmount on the carrier, the task is mounted, its fiber
gives back the carrier, is reclaimed, or woken, a store is made, or the cells go to another task,
each of them recycled or new, on a carrier with any slot. -/
inductive Choice where
  | others (slot : Nat)
  | mount
  | resume (fiber : FiberState) (interrupted : Bool)
  | discard
  | wake
  | store
  | next (task : TaskId) (recycled reused : Bool) (slot : Nat)
  deriving DecidableEq

namespace State

/-- The commit of a dispatch that took the carrier back. -/
def dispatched (state : State) (fiber : FiberState) : State :=
  match fiber with
  | .yieldNow =>
      let ended := state.writer.yieldNow
      { state with
        writer := ended.1
        stage := .publishing ended.2 .ready
        finished := state.finished + 1
        yielded := state.yielded + 1 }
  | .park =>
      let ended := state.writer.park
      { state with
        writer := ended.1
        stage := .publishing ended.2 .parked
        finished := state.finished + 1 }
  | .complete =>
      let ended := state.writer.unmount state.carrier state.task
      { state with
        writer := ended.1
        stage := .publishing ended.2 .terminated
        finished := state.finished + 1 }

/-- `discard_in_flight`, of a task that is mounted or rests. -/
def discarded (state : State) : State :=
  let ended := state.writer.unmount state.carrier state.task
  { state with
    writer := ended.1
    stage := .publishing ended.2 .terminated
    finished := if state.stage = .mounted then state.finished + 1 else state.finished }

/-- The next task of recycled or new cells. -/
def renewed (state : State) (task : TaskId) (recycled reused : Bool) (slot : Nat) : State where
  task := task
  carrier := ⟨slot⟩
  progress := if recycled then state.progress.reset else .new
  writer := if reused then state.writer.reset else .new
  stage := .resting .ready
  finished := 0
  yielded := 0

def next (choice : Choice) (state : State) : Option State :=
  match choice with
  | .others slot =>
      if state.stage.Rests ∧ slot ≠ state.task.get then some { state with carrier := ⟨slot⟩ }
      else none
  | .mount =>
      if state.stage = .resting .ready then
        let mounted := state.writer.mount state.task
        some { state with writer := mounted.1, carrier := mounted.2.1, stage := .mounted }
      else none
  | .resume fiber interrupted =>
      if state.stage = .mounted then
        -- An interrupted yield resumes at once.
        if fiber = .yieldNow ∧ interrupted then some state else some (state.dispatched fiber)
      else none
  | .discard =>
      if state.stage = .mounted ∨ state.stage = .resting .ready ∨
          state.stage = .resting .parked then
        some state.discarded
      else none
  | .wake =>
      if state.stage = .resting .parked then some { state with stage := .resting .ready }
      else none
  | .store =>
      match state.stage with
      | .storing store stores rest =>
          some { store.apply state with stage := .publishing stores rest }
      | _ => none
  | .next task recycled reused slot =>
      if state.stage = .resting .terminated ∧ slot ≠ task.get then
        some (state.renewed task recycled reused slot)
      else none

end State

/-- Runs of a task with new cells, and of the tasks that take them after it. -/
def machine : Machine State Choice where
  initial state := ∃ task slot, slot ≠ task.get ∧
    state = ⟨task, ⟨slot⟩, .new, .new, .resting .ready, 0, 0⟩
  next := State.next

end VThread.Counters

import Mathlib.Algebra.Group.Nat.Defs
import VThread.Lib.Checked

/-!
# Runtimes of the process table

What the process table reads of a runtime and writes to it: its shutdown phase, its retained
failures, the join of its coordinator and the resources that the coordinator has to drain.
-/

namespace VThread.Lifecycle

inductive ShutdownPhase where
  | notRequested
  | requested
  | joiningCarriers
  | joiningReadiness
  | joiningNative
  | complete
  | failed
  deriving DecidableEq, Repr

namespace ShutdownPhase

def rank : ShutdownPhase → Nat
  | notRequested => 0
  | requested => 1
  | joiningCarriers => 2
  | joiningReadiness => 3
  | joiningNative => 4
  | complete => 5
  | failed => 6

/-- `Ord::max`. -/
def max (phase other : ShutdownPhase) : ShutdownPhase :=
  if other.rank < phase.rank then phase else other

def terminal (phase : ShutdownPhase) : Bool := phase = .complete ∨ phase = .failed

theorem max_terminal {phase other : ShutdownPhase} (first : phase.terminal = false)
    (second : other.terminal = false) : (phase.max other).terminal = false := by
  unfold max
  split
  · exact first
  · exact second

end ShutdownPhase

inductive ThreadComponent where
  | carrier
  | lifecycleOwner
  | nativeWorker
  | readiness
  | coordinator
  deriving DecidableEq, Repr

inductive FailurePhase where
  | running
  | panicCleanup
  | join
  deriving DecidableEq, Repr

structure PanicReport where
  message : String
  truncated : Bool
  cleanupPanicked : Bool
  deriving DecidableEq, Repr

structure ThreadFailure where
  component : ThreadComponent
  name : String
  phase : FailurePhase
  shutdownPhase : ShutdownPhase
  panic : PanicReport
  cleanupComplete : Bool
  deriving DecidableEq, Repr

namespace ThreadFailure

/-- The names of the threads here are shorter than the limit at which a name is cut. -/
def new (component : ThreadComponent) (name : String) (phase : FailurePhase)
    (panic : PanicReport) : ThreadFailure :=
  ⟨component, name, phase, .notRequested, panic,
    phase = .join && !panic.cleanupPanicked⟩

/-- A failure was stored as this one: where it was stored decides its shutdown phase, and a
later join its cleanup. -/
def Same (failure stored : ThreadFailure) : Prop :=
  stored.component = failure.component ∧ stored.name = failure.name ∧
    stored.phase = failure.phase ∧ stored.panic = failure.panic

theorem Same.stamp (failure : ThreadFailure) (phase : ShutdownPhase) :
    failure.Same { failure with shutdownPhase := phase } :=
  ⟨rfl, rfl, rfl, rfl⟩

/-- `ThreadFailures::joined`, for one entry. -/
def joined (component : ThreadComponent) (name : String) (failure : ThreadFailure) :
    ThreadFailure :=
  if failure.component = component ∧ failure.name = name then
    { failure with cleanupComplete := !failure.panic.cleanupPanicked }
  else failure

theorem Same.joined {failure stored : ThreadFailure} (same : failure.Same stored)
    (component : ThreadComponent) (name : String) :
    failure.Same (stored.joined component name) := by
  unfold ThreadFailure.joined
  split
  · exact same
  · exact same

end ThreadFailure

/-- The first failures are retained, further ones are counted. -/
structure ThreadFailures where
  entries : List ThreadFailure
  additional : Nat
  deriving DecidableEq, Repr

namespace ThreadFailures

def limit : Nat := 8

/-- `u64::MAX`. -/
def most : Nat := 2 ^ 64 - 1

def empty : ThreadFailures := ⟨[], 0⟩

def push (failure : ThreadFailure) (failures : ThreadFailures) : ThreadFailures :=
  if failures.entries.length < limit then
    { failures with entries := failures.entries ++ [failure] }
  else { failures with additional := min (failures.additional + 1) most }

def joined (component : ThreadComponent) (name : String) (failures : ThreadFailures) :
    ThreadFailures :=
  { failures with entries := failures.entries.map (.joined component name) }

def isEmpty (failures : ThreadFailures) : Bool :=
  failures.entries.isEmpty && failures.additional == 0

/-- The failures retained of all that were recorded. -/
def of (recorded : List ThreadFailure) : ThreadFailures :=
  ⟨recorded.take limit, min (recorded.length - limit) most⟩

theorem of_push (recorded : List ThreadFailure) (failure : ThreadFailure) :
    (of recorded).push failure = of (recorded ++ [failure]) := by
  unfold push of
  by_cases room : recorded.length < limit
  · have short : (recorded.take limit).length < limit := by
      rw [List.length_take]
      omega
    rw [if_pos short, List.take_of_length_le (Nat.le_of_lt room),
      List.take_of_length_le (by simp; omega)]
    simp only [List.length_append, List.length_singleton]
    congr 2
    omega
  · have full : ¬ (recorded.take limit).length < limit := by
      rw [List.length_take]
      omega
    rw [if_neg full, List.take_append_of_le_length (Nat.le_of_not_lt room)]
    simp only [List.length_append, List.length_singleton]
    congr 1
    omega

theorem of_joined (recorded : List ThreadFailure) (component : ThreadComponent) (name : String) :
    (of recorded).joined component name = of (recorded.map (.joined component name)) := by
  simp [joined, of, List.map_take]

end ThreadFailures

/-- The `State` of a `JoinSlot`. -/
inductive JoinSlot where
  | retained
  | joining
  | joined
  deriving DecidableEq, Repr

def JoinSlot.isJoined (slot : JoinSlot) : Bool := slot = .joined

/-- Whether the cleanup of each service is complete. -/
structure Services where
  reactor : Bool
  blocking : Bool
  deriving DecidableEq, Repr

/-- `CoordinatorResources` of a runtime, with the parts of its `Shared` that belong to them. -/
structure CoordinatorResources where
  workers : List JoinSlot
  readiness : Option (List JoinSlot)
  native : Option (List JoinSlot)
  returned : Bool
  inboxes : List Bool
  services : Option Services
  deriving DecidableEq, Repr

namespace CoordinatorResources

def carriersReclaimed (resources : CoordinatorResources) : Bool :=
  resources.workers.all JoinSlot.isJoined && resources.inboxes.all id

def drained (resources : CoordinatorResources) (coordinatorJoined : Bool) : Bool :=
  coordinatorJoined && resources.returned && resources.carriersReclaimed &&
    resources.readiness.all (fun slots => slots.all JoinSlot.isJoined) &&
    resources.native.all (fun slots => slots.all JoinSlot.isJoined) &&
    resources.services.all fun services => services.reactor && services.blocking

theorem joined_of_drained {resources : CoordinatorResources} {coordinatorJoined : Bool}
    (drained : resources.drained coordinatorJoined = true) : coordinatorJoined = true := by
  simp only [CoordinatorResources.drained, Bool.and_eq_true] at drained
  exact drained.1.1.1.1.1

end CoordinatorResources

/-- How far the entry of a runtime has come: it is not in the table yet, in the table, in a
claim, dropped, or its slot has been released. -/
inductive Stage where
  | fresh
  | listed
  | claimed
  | dropped
  | released
  deriving DecidableEq, Repr

/-- A runtime: its `Shared`, its resources and its coordinator thread, which has ended as `exited`
tells.  Its stage, all failures that were recorded and the resources that were confirmed to be
drained are kept beside. -/
structure Runtime where
  shutdownPhase : ShutdownPhase
  failures : ThreadFailures
  abortRequested : Bool
  resources : CoordinatorResources
  worker : JoinSlot
  exited : Option (Option PanicReport)
  stage : Stage
  recorded : List ThreadFailure
  confirmed : Option CoordinatorResources
  deriving DecidableEq

namespace Runtime

def new : Runtime :=
  ⟨.notRequested, .empty, false, ⟨[], none, none, false, [], none⟩, .retained, none, .fresh, [],
    none⟩

/-- `JoinSlot::finished`. -/
def finished (runtime : Runtime) : Bool :=
  match runtime.worker with
  | .retained => runtime.exited.isSome
  | .joined => true
  | .joining => false

/-- The second half of `Shared::record_failure`. -/
def pushFailure (stamped : ThreadFailure) (runtime : Runtime) : Runtime :=
  { runtime with
    failures := runtime.failures.push stamped
    recorded := runtime.recorded ++ [stamped] }

/-- `ThreadFailures::joined`. -/
def joinedCleanly (component : ThreadComponent) (name : String) (runtime : Runtime) : Runtime :=
  { runtime with
    failures := runtime.failures.joined component name
    recorded := runtime.recorded.map (.joined component name) }

/-- The part of `Shared::request_stop` under the state lock. -/
def requestStop (runtime : Runtime) : Runtime :=
  { runtime with
    shutdownPhase := runtime.shutdownPhase.max .requested
    abortRequested := true }

/-- `Shared::advance_shutdown`. -/
def advanceShutdown (phase : ShutdownPhase) (runtime : Runtime) : Runtime :=
  { runtime with shutdownPhase := runtime.shutdownPhase.max phase }

end Runtime

end VThread.Lifecycle

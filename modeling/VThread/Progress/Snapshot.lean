import VThread.Lib.Transition
import VThread.Progress.Reason

/-!
# Progress of one task

One writer suspends and wakes a task while any number of readers take its status and its
last suspension.  Every atomic load and store is one step.

The history lists the reasons of all suspensions that have begun.  No step reads it.
-/

namespace VThread.Progress

open VThread.Lib

inductive TaskStatus where
  | queued
  | ready
  | running
  | suspended (reason : SuspensionReason)
  | completed
  | panicked
  | aborted
  deriving DecidableEq

def TaskStatus.isTerminal : TaskStatus → Bool
  | .completed | .panicked | .aborted => true
  | _ => false

/-- `TaskProgress`, without the counters of mounts and yields, and its history. -/
structure TaskProgress where
  yielded : Bool
  state : Nat
  lastSuspension : Nat
  suspensionTask : Nat
  lastWake : Nat
  parks : Nat
  published : List SuspensionReason

def TaskProgress.new : TaskProgress := ⟨false, recordCode, recordCode, 0, 0, 0, []⟩

/-- What a reader returns, next to what it was given. -/
inductive Report where
  | status (retained : TaskStatus) (result : TaskStatus)
  | lastSuspension (retained result : Option SuspensionReason)
  deriving DecidableEq

inductive SuspendStage where
  | task
  | last
  | loadParks
  | storeParks (parks : Nat)
  | state
  deriving DecidableEq

inductive WakeStage where
  | wake
  | state
  deriving DecidableEq

inductive StatusStage where
  | state
  | task (code : Nat)
  deriving DecidableEq

inductive LastStage where
  | yielded
  | code
  | task (code : Nat)
  deriving DecidableEq

/-- A thread rests after its last report or runs a call. -/
inductive Pc where
  | rest (last : Option Report)
  | suspending (reason : SuspensionReason) (stage : SuspendStage)
  | waking (reason : WakeReason) (stage : WakeStage)
  | status (retained : TaskStatus) (running : Bool) (stage : StatusStage)
  | lastSuspension (retained : Option SuspensionReason) (stage : LastStage)
  | panicked (message : String)
  deriving DecidableEq

/-- The call a resting thread makes. -/
inductive Request where
  | suspend (reason : SuspensionReason)
  | wake (reason : WakeReason)
  | status (retained : TaskStatus) (running : Bool)
  | lastSuspension (retained : Option SuspensionReason)

/-- A step of `suspend`. -/
def suspendStep (progress : TaskProgress) (reason : SuspensionReason) :
    SuspendStage → TaskProgress × Pc
  | .task => ({ progress with suspensionTask := (encodeReason reason).2 },
      .suspending reason .last)
  | .last => ({ progress with lastSuspension := (encodeReason reason).1 },
      .suspending reason .loadParks)
  | .loadParks => (progress, .suspending reason (.storeParks (progress.parks + 1)))
  | .storeParks parks => ({ progress with parks }, .suspending reason .state)
  | .state => ({ progress with state := (encodeReason reason).1 }, .rest none)

/-- A step of `wake`. -/
def wakeStep (progress : TaskProgress) (reason : WakeReason) : WakeStage → TaskProgress × Pc
  | .wake => ({ progress with lastWake := encodeWake reason }, .waking reason .state)
  | .state => ({ progress with state := readyCode }, .rest none)

/-- The status of a task that has not been suspended since its record was written. -/
def retainedStatus (retained : TaskStatus) (running : Bool) : TaskStatus :=
  match retained with
  | .ready | .running => if running then .running else .ready
  | retained => retained

/-- A step of `status`, after the checks of the retained status. -/
def statusStep (progress : TaskProgress) (retained : TaskStatus) (running : Bool) :
    StatusStage → Pc
  | .state =>
      if progress.state = readyCode then
        .rest (some (.status retained (if running then .running else .ready)))
      else if progress.state = recordCode then
        .rest (some (.status retained (retainedStatus retained running)))
      else .status retained running (.task progress.state)
  | .task code =>
      match decodeReason code progress.suspensionTask with
      | .error message => .panicked message
      | .ok none => .panicked "published task suspension reason"
      | .ok (some reason) => .rest (some (.status retained (.suspended reason)))

/-- A step of `last_suspension`. -/
def lastStep (progress : TaskProgress) (retained : Option SuspensionReason) :
    LastStage → Pc
  | .yielded =>
      if progress.yielded then .rest (some (.lastSuspension retained (some .yieldNow)))
      else .lastSuspension retained .code
  | .code => .lastSuspension retained (.task progress.lastSuspension)
  | .task code =>
      match decodeReason code progress.suspensionTask with
      | .error message => .panicked message
      | .ok reason => .rest (some (.lastSuspension retained (reason.or retained)))

/-- A resting thread makes a call; only the writer suspends and wakes. -/
def callStep {ι : Type} [DecidableEq ι] (writer thread : ι) (progress : TaskProgress) :
    Request → Option (TaskProgress × Pc)
  | .suspend reason =>
      if thread = writer then
        some ({ progress with published := reason :: progress.published },
          .suspending reason .task)
      else none
  | .wake reason => if thread = writer then some (progress, .waking reason .wake) else none
  | .status retained running =>
      if retained.isTerminal ∨ retained = .queued then
        some (progress, .rest (some (.status retained retained)))
      else some (progress, .status retained running .state)
  | .lastSuspension retained => some (progress, .lastSuspension retained .yielded)

/-- One step of a thread. -/
def nextStep {ι : Type} [DecidableEq ι] (writer thread : ι) (request : Request)
    (progress : TaskProgress) : Pc → Option (TaskProgress × Pc)
  | .rest _ => callStep writer thread progress request
  | .suspending reason stage => some (suspendStep progress reason stage)
  | .waking reason stage => some (wakeStep progress reason stage)
  | .status retained running stage => some (progress, statusStep progress retained running stage)
  | .lastSuspension retained stage => some (progress, lastStep progress retained stage)
  | .panicked _ => none

/-- One writer and its readers. -/
def program {ι : Type} [DecidableEq ι] (writer : ι) : Program ι TaskProgress Pc where
  initial progress := progress = .new
  start := .rest none
  advance thread progress pc progress' pc' :=
    ∃ request, nextStep writer thread request progress pc = some (progress', pc')

def scheduler {ι : Type} [DecidableEq ι] (writer : ι) :
    (program writer).Scheduler Request where
  next := nextStep writer
  sound := fun _ request _ _ _ taken => ⟨request, taken⟩

end VThread.Progress

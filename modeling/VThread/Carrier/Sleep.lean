import VThread.Carrier.Inbox
import VThread.Wake.Delivery

/-!
# The sleep protocol of a carrier

The owner carrier drives its loop and waits for work; publishers push wake notices and start
packets, and request stops and aborts.  Calls of the wake queue take the atomic steps they
take there.
-/

namespace VThread.Carrier

open VThread.Lib VThread.Wait VThread.Wake

/-- What a publisher makes visible to the carrier. -/
inductive Change where
  | wake (notice : Notice)
  | start (packet : SpawnPacket)
  | epoch
  deriving DecidableEq

/-- What `wait_for_work` works with: the observed epoch, whether a timer is armed, and the
carrier's own queued wakes. -/
structure Idle where
  observed : Epoch
  timed : Bool
  localWakes : Nat
  deriving DecidableEq

/-- Where `wait_for_work` stands, before its next atomic step.  A probe of the idle queues
knows how many follow it, unless it is the first look. -/
inductive IdleStage where
  | observeInbox (probes : Option Nat)
  | observeConsumer (probes : Option Nat)
  | observeHead (probes : Option Nat)
  | probeEpoch (left : Nat)
  -- `wait_while`
  | lockGate
  | register
  | loadEpoch
  | armWait
  | checkStarts
  | sleep
  | blocked
  | unregister
  | unlockGate
  | disarmWait
  deriving DecidableEq

inductive Stage where
  /-- A publisher between calls, the carrier at the head of its loop. -/
  | rest
  -- the carrier
  | drive (observed : Epoch)
  | popWake (observed : Epoch)
  | drain (observed : Epoch) (limit : Nat)
  | popScope (observed : Epoch) (scope : Option Nat)
  | takeAbort (observed : Epoch)
  | idle (episode : Idle) (stage : IdleStage)
  -- publishers
  | enqueue (notice : Notice)
  | push (packet : SpawnPacket)
  | stop
  | storeStopped
  | abort (scope : Nat) (reason : TaskFailure)
  | clearAbort (scope : Nat)
  -- `notify` and `notify_if_waiting`, with the changes the publisher has made visible
  | addEpoch (owed : List Change)
  | loadWaiters (owed : List Change)
  | notifyGate (owed : List Change)
  deriving DecidableEq

/-- A call of a publisher. -/
inductive Call where
  | enqueue (notice : Notice)
  | push (packet : SpawnPacket)
  | notify
  | stop
  | abort (scope : Nat) (reason : TaskFailure)
  | clearAbort (scope : Nat)
  deriving DecidableEq

/-- What the carrier does next while it drives. -/
inductive Task where
  | popWake
  | drain (limit : Nat)
  | popScope (scope : Option Nat)
  | takeAbort
  | again
  | waitForWork (timed : Bool) (localWakes : Nat)
  deriving DecidableEq

/-- Free choices of a step: the next call or task, whether a weak compare-exchange fails or
a wait returns without cause, and whether the deadline has passed. -/
structure Choice where
  call : Call
  task : Task
  spurious : Bool
  expired : Bool
  deriving DecidableEq

/-- What publishers and the carrier share besides the wake queue. -/
structure Control where
  signal : Signal
  inbox : Inbox
  deriving DecidableEq

structure Shared (ι : Type) where
  hub : Wake.Shared ι
  control : Control

/-- A party: its place in a call of the wake queue and its place around it. -/
structure Local where
  hub : Wake.Pc
  stage : Stage
  deriving DecidableEq

variable {ι : Type}

/-! ## Steps of the wake queue -/

/-- The call of the wake queue a stage makes. -/
def Stage.hubCall : Stage → Option Wake.Call
  | .popWake _ => some .pop
  | .idle _ .armWait => some .armWait
  | .idle _ .disarmWait => some .disarmWait
  | .enqueue notice => some (.push notice)
  | _ => none

/-- The stage after a step of the wake queue that leads to `pc`. -/
def Stage.afterHub (stage : Stage) (pc : Wake.Pc) : Stage :=
  match stage, pc with
  | .popWake observed, .rest _ => .drive observed
  | .idle episode .armWait, .rest (some (.armWait, .ready true)) => .idle episode .unregister
  | .idle episode .armWait, .rest (some (.armWait, .ready false)) => .idle episode .checkStarts
  | .idle _ .disarmWait, .rest _ => .rest
  | .enqueue _, .rest (some (.push notice, .pushed true)) =>
      .loadWaiters [.wake notice]
  | .enqueue _, .rest _ => .rest
  | stage, _ => stage

/-! ## Other steps of the carrier -/

/-- `IDLE_SIGNAL_PROBES`. -/
def idleSignalProbes : Nat := 640

/-- Nothing was seen: on to the next probe, or to sleep. -/
def afterObservation (carriers : Nat) (episode : Idle) : Option Nat → IdleStage
  | none =>
      if episode.timed = false ∧ 1 < carriers then .observeInbox (some (idleSignalProbes - 1))
      else .lockGate
  | some left => .probeEpoch left

/-- The atomic steps of `wait_for_work`. -/
def idleStep (carriers : Nat) (choice : Choice) (queue : WakeQueue) (control : Control)
    (episode : Idle) : IdleStage → Option (Control × Stage)
  | .observeInbox probes =>
      if control.inbox.pendingStarts ≠ 0 ∨ episode.localWakes ≠ 0 then some (control, .rest)
      else some (control, .idle episode (.observeConsumer probes))
  | .observeConsumer probes =>
      if queue.consumer ≠ 0 then some (control, .rest)
      else some (control, .idle episode (.observeHead probes))
  | .observeHead probes =>
      if queue.head.index ≠ 0 then some (control, .rest)
      else some (control, .idle episode (afterObservation carriers episode probes))
  | .probeEpoch left =>
      if control.signal.epoch ≠ episode.observed then some (control, .rest)
      else match left with
        | 0 => some (control, .idle episode .lockGate)
        | left + 1 => some (control, .idle episode (.observeInbox (some left)))
  | .lockGate =>
      some ({ control with signal.gate := true }, .idle episode .register)
  | .register =>
      some ({ control with signal.waiters := control.signal.waiters + 1 },
        .idle episode .loadEpoch)
  | .loadEpoch =>
      if control.signal.epoch = episode.observed then some (control, .idle episode .armWait)
      else some (control, .idle episode .unregister)
  | .checkStarts =>
      if control.inbox.hasQueuedStartsAtWaitBoundary then
        some (control, .idle episode .unregister)
      else some (control, .idle episode .sleep)
  | .sleep =>
      if episode.timed ∧ choice.expired then some (control, .idle episode .unregister)
      -- the condition variable releases the gate and waits in one step
      else some ({ control with signal.gate := false, signal.blocked := true },
        .idle episode .blocked)
  | .blocked =>
      if control.signal.blocked ∧ ¬ choice.spurious then none
      else some ({ control with signal.gate := true, signal.blocked := false },
        .idle episode .loadEpoch)
  | .unregister =>
      some ({ control with signal.waiters := control.signal.waiters - 1 },
        .idle episode .unlockGate)
  | .unlockGate =>
      some ({ control with signal.gate := false }, .idle episode .disarmWait)
  | .armWait | .disarmWait => none

/-- The atomic steps of the drive loop, and those of `wait_for_work`. -/
def carrierStep (carriers : Nat) (choice : Choice) (queue : WakeQueue) (control : Control) :
    Stage → Option (Control × Stage)
  | .rest => some (control, .drive control.signal.epoch)
  | .drive observed =>
      match choice.task with
      | .popWake => some (control, .popWake observed)
      | .drain limit =>
          if limit = 0 ∨ control.inbox.pendingStarts = 0 then some (control, .drive observed)
          else some (control, .drain observed limit)
      | .popScope scope =>
          if control.inbox.pendingStarts = 0 then some (control, .drive observed)
          else some (control, .popScope observed scope)
      | .takeAbort =>
          if control.inbox.abortPending then some (control, .takeAbort observed)
          else some (control, .drive observed)
      | .again => some (control, .rest)
      | .waitForWork timed localWakes =>
          some (control, .idle ⟨observed, timed, localWakes⟩ (.observeInbox none))
  | .drain observed limit =>
      some ({ control with inbox := control.inbox.drainInto limit }, .drive observed)
  | .popScope observed scope =>
      some ({ control with inbox := control.inbox.popScope scope }, .drive observed)
  | .takeAbort observed =>
      some ({ control with inbox := control.inbox.takeAbort }, .drive observed)
  | .idle episode stage => idleStep carriers choice queue control episode stage
  | _ => none

/-! ## Other steps of a publisher -/

/-- The start of a call. -/
def Call.stage : Call → Stage
  | .enqueue notice => .enqueue notice
  | .push packet => .push packet
  | .notify => .addEpoch []
  | .stop => .stop
  | .abort scope reason => .abort scope reason
  | .clearAbort scope => .clearAbort scope

def publisherStep (choice : Choice) (control : Control) : Stage → Option (Control × Stage)
  | .rest => some (control, choice.call.stage)
  | .push packet =>
      match control.inbox.push packet with
      | none => some (control, .rest)
      | some (inbox, wasEmpty) =>
          some ({ control with inbox },
            if wasEmpty then .addEpoch [.start packet] else .loadWaiters [.start packet])
  | .stop => some ({ control with inbox := control.inbox.stop }, .storeStopped)
  | .storeStopped => some ({ control with inbox.stopped := true }, .addEpoch [])
  | .abort scope reason =>
      some ({ control with inbox := control.inbox.abort scope reason }, .addEpoch [])
  | .clearAbort scope =>
      some ({ control with inbox := control.inbox.clearAbort scope }, .rest)
  | .addEpoch owed =>
      some ({ control with signal.epoch := control.signal.epoch + 1 },
        .loadWaiters (.epoch :: owed))
  | .loadWaiters owed =>
      if control.signal.waiters ≠ 0 then some (control, .notifyGate owed)
      else some (control, .rest)
  | .notifyGate _ =>
      -- one carrier at most is blocked, so `notify_one` and `notify_all` agree
      if control.signal.gate then none
      else some ({ control with signal.blocked := false }, .rest)
  | _ => none

/-! ## The program -/

/-- A step outside the wake queue. -/
def controlStep (carriers : Nat) (party : Party ι) (choice : Choice) (shared : Shared ι)
    (stage : Stage) : Option (Control × Stage) :=
  match party with
  | .consumer => carrierStep carriers choice shared.hub.queue shared.control stage
  | .producer _ => publisherStep choice shared.control stage

/-- The step of a party for a choice. -/
def nextStep (carriers : Nat) (party : Party ι) (choice : Choice) (shared : Shared ι)
    (pc : Local) : Option (Shared ι × Local) :=
  match pc.stage.hubCall with
  | some call =>
      (Wake.nextStep party ⟨call, choice.spurious⟩ shared.hub pc.hub).map fun result =>
        ({ shared with hub := result.1 }, ⟨result.2, pc.stage.afterHub result.2⟩)
  | none =>
      (controlStep carriers party choice shared pc.stage).map fun result =>
        ({ shared with control := result.1 }, ⟨pc.hub, result.2⟩)

/-- One carrier, of the given number, and its publishers. -/
def program (ι : Type) (carriers : Nat) : Program (Party ι) (Shared ι) Local where
  initial shared := (∃ capacity, shared.control = ⟨.new, .new capacity⟩) ∧
    (Wake.program (ι := ι)).initial shared.hub
  start := ⟨.rest none, .rest⟩
  advance party shared pc shared' pc' :=
    ∃ choice, nextStep carriers party choice shared pc = some (shared', pc')

end VThread.Carrier

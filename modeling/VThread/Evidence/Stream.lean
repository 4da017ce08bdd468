import Mathlib.Algebra.Group.Nat.Defs
import Mathlib.Data.List.Sort
import VThread.Lib.Transition

/-!
# The bounded stream of runtime evidence

Any number of recorders send sequenced events into a bounded channel; one consumer takes
them out in batches.  Every atomic operation and every operation of the channel is one step.
The counters wrap as the machine integers do.
-/

namespace VThread.Evidence

open VThread.Lib

/-- `u64::MAX`, which is also `usize::MAX`. -/
def maxWord : Nat := 2 ^ 64 - 1

/-- `NO_DROPPED_SEQUENCE`. -/
def noDroppedSequence : Nat := maxWord

inductive ShutdownPhase where
  | notRequested
  | requested
  | joiningCarriers
  | joiningReadiness
  | joiningNative
  | complete
  | failed
  deriving DecidableEq, Repr

/-- What an event reports; only a change of the shutdown phase matters to the stream. -/
inductive RuntimeEventKind where
  | shutdownAdvanced (phase : ShutdownPhase)
  | other (code : Nat)
  deriving DecidableEq, Repr

structure RuntimeEvent where
  sequence : Nat
  runtime : Nat
  kind : RuntimeEventKind
  deriving DecidableEq, Repr

/-- Whether an event ends the evidence of its runtime. -/
def RuntimeEventKind.terminal : RuntimeEventKind → Bool
  | .shutdownAdvanced .complete => true
  | .shutdownAdvanced .failed => true
  | _ => false

def fetchAdd (counter amount : Nat) : Nat := (counter + amount) % 2 ^ 64

def fetchSub (counter amount : Nat) : Nat :=
  if amount ≤ counter then counter - amount else counter + 2 ^ 64 - amount

/-- `value.checked_add(1)`. -/
def checkedNext (value : Nat) : Option Nat :=
  if value < maxWord then some (value + 1) else none

/-- `Status`. -/
structure Status where
  capacity : Nat
  nextSequence : Nat
  pending : Nat
  recorded : Nat
  dropped : Nat
  firstDropped : Nat
  runtimeTerminal : Bool
  deriving DecidableEq

def Status.new (capacity : Nat) : Status :=
  ⟨capacity, 0, 0, 0, 0, noDroppedSequence, false⟩

/-- The status, the channel, and what happened so far: the record calls that took a number,
the events whose send succeeded and the batches that were returned. -/
structure Stream (ι : Type) where
  status : Status
  channel : List RuntimeEvent
  receiving : Bool
  calls : List (ι × RuntimeEvent)
  sent : List RuntimeEvent
  batches : List (List RuntimeEvent)

variable {ι : Type}

/-- `bounded`. -/
def bounded (capacity : Nat) : Stream ι := ⟨.new capacity, [], false, [], [], []⟩

namespace Stream

/-- Room for one more event.  A channel without buffer passes an event to a waiting receiver. -/
def hasRoom (stream : Stream ι) : Bool :=
  stream.channel.length < stream.status.capacity ||
    stream.status.capacity = 0 && stream.receiving && stream.channel.isEmpty

/-- The receiver may give up waiting, unless an event was passed to it. -/
def mayTimeOut (stream : Stream ι) : Bool :=
  stream.status.capacity ≠ 0 || stream.channel.isEmpty

end Stream

/-! ## The parties -/

inductive Party (ι : Type) where
  | recorder (id : ι)
  | consumer
  deriving DecidableEq

/-- The next step of a party. -/
inductive Pc where
  | idle
  /-- `record`: raise `pending`. -/
  | numbered (event : RuntimeEvent)
  /-- `record`: `try_send`. -/
  | raised (event : RuntimeEvent)
  /-- `record`: count the event. -/
  | accepted (event : RuntimeEvent)
  /-- `record`: publish the end of the runtime. -/
  | finishing
  /-- `record`: lower `pending`. -/
  | refused (sequence : Nat)
  /-- `record_drop`: count the drop. -/
  | dropping (sequence : Nat)
  /-- `record_drop`: keep the first dropped sequence. -/
  | noting (sequence : Nat)
  /-- `record`: "runtime evidence sequence exhausted". -/
  | exhausted
  /-- `recv_batch_timeout`: wait for the first event. -/
  | receiving
  /-- `collect_batch`: take one more event. -/
  | collecting (events : List RuntimeEvent)
  /-- `collect_batch`: lower `pending`. -/
  | collected (events : List RuntimeEvent)
  deriving DecidableEq

/-- What a party decides, or the scheduler for it. -/
inductive Choice where
  | record (runtime : Nat) (kind : RuntimeEventKind)
  | drain
  | recvBatchTimeout
  | timeOut
  | go
  deriving DecidableEq

/-- `record`. -/
def recordStep (id : ι) : Choice → Stream ι → Pc → Option (Stream ι × Pc)
  | .record runtime kind, stream, .idle =>
      match checkedNext stream.status.nextSequence with
      | none => some (stream, .exhausted)
      | some next =>
          let event : RuntimeEvent := ⟨stream.status.nextSequence, runtime, kind⟩
          some ({ stream with
            status := { stream.status with nextSequence := next }
            calls := stream.calls ++ [(id, event)] }, .numbered event)
  | .go, stream, .numbered event =>
      some ({ stream with
        status := { stream.status with pending := fetchAdd stream.status.pending 1 } },
        .raised event)
  | .go, stream, .raised event =>
      if stream.hasRoom then
        some ({ stream with
          channel := stream.channel ++ [event], sent := stream.sent ++ [event] },
          .accepted event)
      else some (stream, .refused event.sequence)
  | .go, stream, .accepted event =>
      some ({ stream with
        status := { stream.status with recorded := fetchAdd stream.status.recorded 1 } },
        if event.kind.terminal then .finishing else .idle)
  | .go, stream, .finishing =>
      some ({ stream with status := { stream.status with runtimeTerminal := true } }, .idle)
  | .go, stream, .refused sequence =>
      some ({ stream with
        status := { stream.status with pending := fetchSub stream.status.pending 1 } },
        .dropping sequence)
  | .go, stream, .dropping sequence =>
      some ({ stream with
        status := { stream.status with dropped := fetchAdd stream.status.dropped 1 } },
        .noting sequence)
  | .go, stream, .noting sequence =>
      some ({ stream with status := { stream.status with
        firstDropped :=
          if stream.status.firstDropped = noDroppedSequence then sequence
          else stream.status.firstDropped } }, .idle)
  | _, _, _ => none

/-- `sort_unstable_by_key` on distinct sequences. -/
def sortBySequence (events : List RuntimeEvent) : List RuntimeEvent :=
  events.insertionSort fun first second => first.sequence ≤ second.sequence

/-- `drain`, `recv_batch_timeout` and `collect_batch`. -/
def consumeStep : Choice → Stream ι → Pc → Option (Stream ι × Pc)
  | .drain, stream, .idle => some (stream, .collecting [])
  | .recvBatchTimeout, stream, .idle => some ({ stream with receiving := true }, .receiving)
  | .timeOut, stream, .receiving =>
      if stream.mayTimeOut then some ({ stream with receiving := false }, .idle) else none
  | .go, stream, .receiving =>
      match stream.channel with
      | [] => none
      | event :: rest =>
          some ({ stream with channel := rest, receiving := false }, .collecting [event])
  | .go, stream, .collecting events =>
      if events.length < stream.status.capacity then
        match stream.channel with
        | [] => some (stream, .collected events)
        | event :: rest => some ({ stream with channel := rest }, .collecting (events ++ [event]))
      else some (stream, .collected events)
  | .go, stream, .collected events =>
      some ({ stream with
        status :=
          { stream.status with pending := fetchSub stream.status.pending events.length }
        batches := stream.batches ++ [sortBySequence events] }, .idle)
  | _, _, _ => none

def nextStep : Party ι → Choice → Stream ι → Pc → Option (Stream ι × Pc)
  | .recorder id, choice, stream, pc => recordStep id choice stream pc
  | .consumer, choice, stream, pc => consumeStep choice stream pc

def program (ι : Type) (capacity : Nat) : Program (Party ι) (Stream ι) Pc where
  initial stream := stream = bounded capacity
  start := .idle
  advance party stream pc stream' pc' :=
    ∃ choice, nextStep party choice stream pc = some (stream', pc')

def scheduler (ι : Type) [DecidableEq ι] (capacity : Nat) :
    (program ι capacity).Scheduler Choice where
  next party choice stream pc := nextStep party choice stream pc
  sound _ choice _ _ _ taken := ⟨choice, taken⟩

end VThread.Evidence

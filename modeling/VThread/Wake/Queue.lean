import VThread.Lib.Chain
import VThread.Lib.Mailbox
import VThread.Lib.Transition
import VThread.Wake.Selection

/-!
# The wake queue

The concurrent operations of one wake queue: producers push, the consumer pops, arms and
disarms.  Every atomic load, store, exchange and compare-exchange is one step.

Next to the memory of the queue, the model keeps the notices that are queued, who is
pushing for which slot, and the events its callers saw.  No step reads them.
-/

namespace VThread.Wake

open VThread.Lib VThread.Wait

structure Slot where
  next : Nat
  task : Nat
  wait : Nat
  selection : Nat
  deriving DecidableEq, Repr

def Slot.new : Slot := ⟨0, 0, 0, 0⟩

/-- `WakeQueue`. -/
structure WakeQueue where
  count : Nat
  slots : Nat → Slot
  head : Head
  consumer : Nat

/-- `WakeQueue::new`. -/
def WakeQueue.new (capacity : Nat) : Checked WakeQueue := do
  ensure (capacity * 2 + 2 < 2 ^ 64) "wake queue capacity exhausted"
  ensure (capacity * 2 + 2 < Head.sleepingBit) "wake queue capacity exhausted"
  pure ⟨capacity * 2 + 2, fun _ => .new, ⟨0, false⟩, 0⟩

inductive Call where
  | push (notice : Notice)
  | pop
  | armWait
  | disarmWait
  deriving DecidableEq

/-- What a call returns; a push tells whether the consumer slept. -/
inductive Outcome where
  | pushed (sleeping : Bool)
  | rejected (notice : Notice)
  | popped (notice : Option Notice)
  | ready (value : Bool)
  | disarmed
  deriving DecidableEq

/-- Where a running call stands, before its next atomic step. -/
inductive Stage where
  | loadTask
  | storeTask
  | storeWait
  | storeSelection
  | loadHead
  | storeNext (head : Head)
  | exchangeHead (head : Head)
  | loadConsumer
  | peekHead
  | swapHead
  | firstNext (index : Nat)
  | reverseLoad (head reversed : Nat)
  | reverseStore (head next reversed : Nat)
  | loadNext (index : Nat)
  | storeConsumer (index next : Nat)
  | loadSelection (index : Nat)
  | loadWait (index generation : Nat) (cause : WakeCause)
  | loadTaskId (index : Nat) (token : ParkToken) (cause : WakeCause)
  | release (index : Nat) (notice : Notice)
  | armConsumer
  | armHead
  | armExchange (head : Head)
  | disarm
  deriving DecidableEq

inductive Pc where
  | rest (last : Option (Call × Outcome))
  | run (call : Call) (stage : Stage)
  | panicked (message : String)
  deriving DecidableEq

/-- Producers and the one consumer. -/
inductive Party (ι : Type) where
  | consumer
  | producer (id : ι)
  deriving DecidableEq

/-- The queue with what is in it: the notices reached from the head, newest first, and
those captured by the consumer, oldest first. -/
structure Shared (ι : Type) where
  queue : WakeQueue
  stack : List Notice
  batch : List Notice
  pushing : Nat → Option ι
  trace : List (MailboxEvent Notice)

variable {ι : Type}

/-! ## Steps -/

/-- Free choices of a step: the call to make, and whether a weak compare-exchange fails
without cause. -/
structure Choice where
  call : Call
  spurious : Bool

namespace Shared

/-- Write one slot. -/
def setSlot (shared : Shared ι) (index : Nat) (slot : Slot) : Shared ι :=
  { shared with queue := { shared.queue with
      slots := Function.update shared.queue.slots index slot } }

def setHead (shared : Shared ι) (head : Head) : Shared ι :=
  { shared with queue := { shared.queue with head } }

def event (shared : Shared ι) (event : MailboxEvent Notice) : Shared ι :=
  { shared with trace := shared.trace ++ [event] }

/-- The push for a slot ends. -/
def leave (shared : Shared ι) (index : Nat) : Shared ι :=
  { shared with pushing := Function.update shared.pushing index none }

/-- All queued notices, oldest first. -/
def pending (shared : Shared ι) : List Notice := shared.batch ++ shared.stack.reverse

end Shared

/-- The loop of `reverse`, on its way out when the list is exhausted. -/
def afterReverse (head reversed : Nat) : Stage :=
  if head ≠ 0 then .reverseLoad head reversed else .loadNext reversed

/-- A step that indexes the slots. -/
def WakeQueue.withSlot (queue : WakeQueue) (index : Nat) (next : Slot → Shared ι × Pc)
    (shared : Shared ι) : Shared ι × Pc :=
  if index < queue.count then next (queue.slots index)
  else (shared, .panicked "index out of bounds")

/-- The atomic steps of `push`. -/
def pushStep (spurious : Bool) (shared : Shared ι) (notice : Notice) : Stage → Shared ι × Pc
  | .loadTask =>
      if (shared.queue.slots notice.route.encoded).task ≠ 0 then
        (shared.leave notice.route.encoded, .rest (some (.push notice, .rejected notice)))
      else (shared, .run (.push notice) .storeTask)
  | .storeTask =>
      (shared.setSlot notice.route.encoded
        { shared.queue.slots notice.route.encoded with task := notice.task },
        .run (.push notice) .storeWait)
  | .storeWait =>
      (shared.setSlot notice.route.encoded
        { shared.queue.slots notice.route.encoded with wait := notice.token.wait },
        .run (.push notice) .storeSelection)
  | .storeSelection =>
      match encodeSelection notice.token.generation notice.cause with
      | .error message => (shared, .panicked message)
      | .ok selection =>
          (shared.setSlot notice.route.encoded
            { shared.queue.slots notice.route.encoded with selection },
            .run (.push notice) .loadHead)
  | .loadHead => (shared, .run (.push notice) (.storeNext shared.queue.head))
  | .storeNext head =>
      (shared.setSlot notice.route.encoded
        { shared.queue.slots notice.route.encoded with next := head.index },
        .run (.push notice) (.exchangeHead head))
  | .exchangeHead head =>
      if shared.queue.head = head ∧ ¬ spurious then
        ((({ shared with stack := notice :: shared.stack }.setHead
          ⟨notice.route.encoded, false⟩).leave notice.route.encoded).event
            (.link notice head.sleeping),
          .rest (some (.push notice, .pushed head.sleeping)))
      else (shared, .run (.push notice) (.storeNext shared.queue.head))
  | _ => (shared, .panicked "not a stage of push")

/-- The atomic steps of `pop`. -/
def popStep (shared : Shared ι) : Stage → Shared ι × Pc
  | .loadConsumer =>
      if shared.queue.consumer = 0 then (shared, .run .pop .peekHead)
      else (shared, .run .pop (.loadNext shared.queue.consumer))
  | .peekHead =>
      if shared.queue.head.index = 0 then
        (shared.event .empty, .rest (some (.pop, .popped none)))
      else (shared, .run .pop .swapHead)
  | .swapHead =>
      let index := shared.queue.head.index
      let swapped := { shared with
        batch := shared.batch ++ shared.stack.reverse, stack := [] }.setHead ⟨0, false⟩
      if index = 0 then (swapped.event .empty, .rest (some (.pop, .popped none)))
      else (swapped, .run .pop (.firstNext index))
  | .firstNext index =>
      shared.queue.withSlot index (fun slot =>
        (shared, .run .pop (if slot.next ≠ 0 then afterReverse index 0 else .loadNext index)))
        shared
  -- `reverse`
  | .reverseLoad head reversed =>
      shared.queue.withSlot head (fun slot =>
        (shared, .run .pop (.reverseStore head slot.next reversed))) shared
  | .reverseStore head next reversed =>
      (shared.setSlot head { shared.queue.slots head with next := reversed },
        .run .pop (afterReverse next head))
  | .loadNext index =>
      shared.queue.withSlot index (fun slot =>
        (shared, .run .pop (.storeConsumer index slot.next))) shared
  | .storeConsumer index next =>
      ({ shared with queue := { shared.queue with consumer := next } },
        .run .pop (.loadSelection index))
  | .loadSelection index =>
      match decodeSelection (shared.queue.slots index).selection with
      | .error message => (shared, .panicked message)
      | .ok (generation, cause) => (shared, .run .pop (.loadWait index generation cause))
  | .loadWait index generation cause =>
      (shared, .run .pop
        (.loadTaskId index ⟨(shared.queue.slots index).wait, generation⟩ cause))
  | .loadTaskId index token cause =>
      let task := (shared.queue.slots index).task
      if task = 0 then (shared, .panicked "task identity zero is reserved")
      else if nonzero : index ≠ 0 then
        (shared, .run .pop (.release index ⟨token, task, ⟨index, nonzero⟩, cause⟩))
      else (shared, .panicked "encoded task key is nonzero")
  | .release index notice =>
      (({ shared with batch := shared.batch.tail }.setSlot index
        { shared.queue.slots index with task := 0 }).event (.pop notice),
        .rest (some (.pop, .popped (some notice))))
  | _ => (shared, .panicked "not a stage of pop")

/-- The atomic steps of `arm_wait`. -/
def armStep (spurious : Bool) (shared : Shared ι) : Stage → Shared ι × Pc
  | .armConsumer =>
      if shared.queue.consumer ≠ 0 then
        (shared.event (.arm true), .rest (some (.armWait, .ready true)))
      else (shared, .run .armWait .armHead)
  | .armHead => armAfter shared
  | .armExchange head =>
      if shared.queue.head = head ∧ ¬ spurious then
        ((shared.setHead ⟨0, true⟩).event (.arm false),
          .rest (some (.armWait, .ready false)))
      else armAfter shared
  | _ => (shared, .panicked "not a stage of arm_wait")
where
  /-- The loop of `arm_wait` on the head it has observed. -/
  armAfter (shared : Shared ι) : Shared ι × Pc :=
    if shared.queue.head.index ≠ 0 then
      (shared.event (.arm true), .rest (some (.armWait, .ready true)))
    else if shared.queue.head.sleeping then
      (shared.event (.arm false), .rest (some (.armWait, .ready false)))
    else (shared, .run .armWait (.armExchange shared.queue.head))

/-- The atomic step of `disarm_wait`. -/
def disarmStep (shared : Shared ι) : Stage → Shared ι × Pc
  | .disarm =>
      ((shared.setHead ⟨shared.queue.head.index, false⟩).event .disarm,
        .rest (some (.disarmWait, .disarmed)))
  | _ => (shared, .panicked "not a stage of disarm_wait")

/-- One atomic step of a running call. -/
def advanceStage (choice : Choice) (shared : Shared ι) : Call → Stage → Shared ι × Pc
  | .push notice, stage => pushStep choice.spurious shared notice stage
  | .pop, stage => popStep shared stage
  | .armWait, stage => armStep choice.spurious shared stage
  | .disarmWait, stage => disarmStep shared stage

/-- What wait selection guarantees about a call: one push at a time for each route, with
a task and a generation that can be queued; one consumer. -/
def Shared.Allows (shared : Shared ι) : Party ι → Call → Prop
  | .producer _, .push notice =>
      shared.pushing notice.route.encoded = none ∧ notice.task ≠ 0 ∧
        notice.token.generation ≤ maxQueued
  | .consumer, .pop | .consumer, .armWait | .consumer, .disarmWait => True
  | _, _ => False

/-- The start of a call. -/
def startCall (shared : Shared ι) : Party ι → Call → Shared ι × Pc
  | .producer id, .push notice =>
      if notice.route.encoded < shared.queue.count then
        ({ shared with
          pushing := Function.update shared.pushing notice.route.encoded (some id) },
          .run (.push notice) .loadTask)
      else (shared, .rest (some (.push notice, .rejected notice)))
  | .consumer, .pop => (shared, .run .pop .loadConsumer)
  | .consumer, .armWait => (shared, .run .armWait .armConsumer)
  | .consumer, .disarmWait => (shared, .run .disarmWait .disarm)
  | _, _ => (shared, .panicked "not a call of this party")

/-- An atomic step of a party. -/
def Advance (party : Party ι) (shared : Shared ι) (pc : Pc) (shared' : Shared ι) (pc' : Pc) :
    Prop :=
  ∃ choice : Choice, match pc with
    | .rest _ => shared.Allows party choice.call ∧
        (shared', pc') = startCall shared party choice.call
    | .run call stage => (shared', pc') = advanceStage choice shared call stage
    | .panicked _ => False

/-- All parties over one queue. -/
def program : Program (Party ι) (Shared ι) Pc where
  initial shared := ∃ capacity queue, WakeQueue.new capacity = .ok queue ∧
    shared = ⟨queue, [], [], fun _ => none, []⟩
  start := .rest none
  advance := Advance

end VThread.Wake

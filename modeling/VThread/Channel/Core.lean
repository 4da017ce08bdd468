import Mathlib.Logic.Function.Basic
import VThread.Lib.Fifo
import VThread.Lib.Transition
import VThread.Wait.Parking

/-!
# Bounded channels

Any number of threads send to one channel, receive from it, close it and clone or drop its
endpoints.  A section under the lock of the channel is one step up to its notifications; every
notification of a cell and every publication of a claim is a step of its own, and the lock is
released by the step after the last one.  A thread waits on its resident cell; deadlines and
cancellations select those cells at any time, and carriers query them.

Next to the channel, the model numbers the queued tickets in order of arrival, notes who owes
the publication of a claimed cell, and keeps the inputs of the calls to `send`, the results of
all calls and the values that were destroyed with the last receiver.  No step reads these
notes.
-/

namespace VThread.Channel

open VThread.Lib VThread.Wait

inductive Direction where
  | send
  | recv
  deriving DecidableEq, Repr

/-- An entry of a wait queue, with the number of its ticket. -/
structure Entry (ι : Type) where
  wait : ι
  arrival : Nat
  deriving DecidableEq

/-- `Ticket`; a cell is known by the thread it belongs to. -/
structure Ticket (ι : Type) where
  direction : Direction
  wait : Option ι
  queued : Bool
  deriving DecidableEq

/-- What a call returned. -/
inductive Result (α : Type) where
  | sent (value : α)
  | unsent (error : Error) (value : α)
  | received (value : α)
  | failed (error : Error)
  deriving DecidableEq

/-- `Core` and `State`, and the resident cells of all threads.  `waits` are `send_waits` and
`recv_waits`, `lock` is the holder of the lock, and `pending` are the cells that it has still to
notify. -/
structure Shared (ι α : Type) where
  capacity : Nat
  waitCapacity : Nat
  values : List α
  senders : Nat
  receivers : Nat
  closed : Bool
  waits : Direction → List (Entry ι)
  lock : Option ι
  pending : List ι
  word : ι → WaitWord
  timed : ι → Bool
  publisher : ι → Option ι
  arrivals : Nat
  inputs : List (ι × α)
  results : List (ι × Result α)
  destroyed : List α

/-- What a call is about.  A value stays with its call until it is buffered or given back. -/
inductive Op (α : Type) where
  | send (value : α)
  | recv
  deriving DecidableEq

def Op.direction {α : Type} : Op α → Direction
  | send _ => .send
  | recv => .recv

/-- What a failed call returns. -/
def Op.fail {α : Type} (error : Error) : Op α → Result α
  | send value => .unsent error value
  | recv => .failed error

/-- A running call; `entered` tells whether it has its `wait`. -/
structure Run (ι α : Type) where
  op : Op α
  blocking : Bool
  entered : Bool
  ticket : Ticket ι
  deriving DecidableEq

/-- Where a call goes on once the lock is released. -/
inductive Resume (ι α : Type) where
  | rest
  | enter (run : Run ι α)
  | park (run : Run ι α)
  | drop (run : Run ι α) (error : Error)

/-- Where a thread stands, before its next step: at the sections of `send`, `recv` and
`Ticket::drop`, at `Wait::enter_after_check`, in `park_notification`, or at the check after
it.  A selection is published by the thread that made it, with the lock when it comes from a
notification. -/
inductive Pc (ι α : Type) where
  | rest
  | section (run : Run ι α)
  | enter (run : Run ι α)
  | parking (run : Run ι α) (stage : Parking)
  | check (run : Run ι α)
  | drop (run : Run ι α) (error : Error)
  | unlock (next : Resume ι α)
  | publish (task : ι) (claimed : WaitWord) (next : Option (Resume ι α))
  | panicked (message : String)

def Resume.pc {ι α : Type} : Resume ι α → Pc ι α
  | rest => .rest
  | enter run => .enter run
  | park run => .parking run .begin
  | drop run error => .drop run error

/-- What a resting thread can do.  `elsewhere` stands for its other waits, which use the same
resident cell and leave it idle and open; `select` is a deadline or an inherited cancellation
that selects the cell of a task, and `query` the publication query of a carrier. -/
inductive Call (ι α : Type) where
  | send (value : α)
  | trySend (value : α)
  | recv
  | tryRecv
  | close
  | cloneSender
  | cloneReceiver
  | dropSender
  | dropReceiver
  | elsewhere (word : WaitWord)
  | select (task : ι) (cause : WakeCause)
  | query (task : ι)

/-- The free choices of a step: the call to make, a check that fails, and whether the park
request has a deadline. -/
structure Choice (ι α : Type) where
  call : Call ι α
  failure : Option Error
  timed : Bool
  park : ParkChoice

/-- The largest number of endpoints of a kind. -/
def endpointLimit : Nat := 2 ^ 64 - 1

def remainedActive : Error := .fault "cached synchronization wait remained active"

/-! ## Tickets -/

namespace Ticket

variable {ι : Type} [DecidableEq ι]

/-- `attach`. -/
def attach (ticket : Ticket ι) (wait : ι) : Checked (Ticket ι) := do
  ensure (ticket.wait = none) "channel wait attached twice"
  pure { ticket with wait := some wait }

/-- `take_turn`; nothing, unless it is the turn of the ticket. -/
def takeTurn (ticket : Ticket ι) : List (Entry ι) → Checked (Option (Ticket ι × List (Entry ι)))
  | [] => do
      ensure (ticket.queued = false) "queued channel ticket disappeared"
      pure (some (ticket, []))
  | front :: rest =>
      if ticket.queued = false then pure none
      else do
        let wait ← expect ticket.wait "attached channel wait"
        if front.wait = wait then pure (some ({ ticket with wait := none, queued := false }, rest))
        else pure none

/-- `enqueue`, with the cell of the calling thread. -/
def enqueue (ticket : Ticket ι) (wait : ι) (waitCapacity arrival : Nat) (waits : List (Entry ι)) :
    Checked (Except Error (Ticket ι × List (Entry ι))) :=
  if ticket.queued then pure (.ok (ticket, waits))
  else do
    let attached ← expect ticket.wait "attached channel wait"
    ensure (wait = attached) "channel wait changed"
    if waits.length = waitCapacity then pure (.error (.capacity waitCapacity))
    else pure (.ok ({ ticket with queued := true }, waits ++ [⟨wait, arrival⟩]))

/-- `remove`. -/
def remove (ticket : Ticket ι) (waits : List (Entry ι)) : Checked (List (Entry ι)) :=
  if ticket.queued = false then pure waits
  else do
    let wait ← expect ticket.wait
      (if waits = [] then "queued channel ticket" else "attached channel wait")
    pure (waits.eraseP fun entry => entry.wait = wait)

end Ticket

namespace Shared

variable {ι α : Type} [DecidableEq ι]

/-! ## Updates -/

def setWord (shared : Shared ι α) (thread : ι) (word : WaitWord) : Shared ι α :=
  { shared with word := Function.update shared.word thread word }

/-- A claim on the cell of `task`, which `thread` has to publish. -/
def claim (shared : Shared ι α) (thread task : ι) (claimed : WaitWord) : Shared ι α :=
  { shared.setWord task claimed with
    publisher := Function.update shared.publisher task (some thread) }

/-- Note the result of a call. -/
def finish (shared : Shared ι α) (thread : ι) (result : Result α) : Shared ι α :=
  { shared with results := shared.results ++ [(thread, result)] }

def setWaits (shared : Shared ι α) (direction : Direction) (waits : List (Entry ι)) :
    Shared ι α :=
  { shared with waits := Function.update shared.waits direction waits }

/-! ## Sections -/

/-- `wake_fronts`. -/
def wakeFronts (shared : Shared ι α) : Shared ι α :=
  { shared with
    pending := (shared.waits .send).head?.toList.map Entry.wait ++
      (shared.waits .recv).head?.toList.map Entry.wait }

/-- `wake_all`. -/
def wakeAll (shared : Shared ι α) : Shared ι α :=
  { shared with pending := (shared.waits .send ++ shared.waits .recv).map Entry.wait }

/-- `return Err(error)` of a call, before its ticket is dropped. -/
def fails (shared : Shared ι α) (thread : ι) (run : Run ι α) (error : Error) :
    Shared ι α × Resume ι α :=
  if run.ticket.queued then (shared, .drop run error)
  else (shared.finish thread (run.op.fail error), .rest)

/-- The end of the section of `send_inner` and `recv`, when the call cannot be completed. -/
def await (shared : Shared ι α) (thread : ι) (run : Run ι α) (timed : Bool) :
    Checked (Shared ι α × Resume ι α) :=
  if run.blocking = false then pure (shared.fails thread run .wouldBlock)
  else if run.entered = false then pure (shared, .enter run)
  else do
    let enqueued ← run.ticket.enqueue thread shared.waitCapacity shared.arrivals
      (shared.waits run.ticket.direction)
    match enqueued with
    | .error error => pure (shared.fails thread run error)
    | .ok (ticket, waits) =>
        pure ({ shared.setWaits run.ticket.direction waits with
          arrivals := shared.arrivals + 1
          timed := Function.update shared.timed thread timed }, .park { run with ticket })

/-- The section of `send_inner`. -/
def send (shared : Shared ι α) (thread : ι) (run : Run ι α) (timed : Bool) (value : α) :
    Checked (Shared ι α × Resume ι α) :=
  if shared.closed ∨ shared.receivers = 0 then pure (shared.fails thread run .closed)
  else do
    let turn ← if shared.values.length < shared.capacity then
        run.ticket.takeTurn (shared.waits run.ticket.direction)
      else pure none
    match turn with
    | some (_, waits) =>
        pure (({ shared.setWaits run.ticket.direction waits with
          values := shared.values ++ [value] }.wakeFronts).finish thread (.sent value), .rest)
    | none => shared.await thread run timed

/-- The section of `recv`. -/
def recv (shared : Shared ι α) (thread : ι) (run : Run ι α) (timed : Bool) :
    Checked (Shared ι α × Resume ι α) := do
  let turn ← if shared.values.isEmpty then pure none
    else run.ticket.takeTurn (shared.waits run.ticket.direction)
  match turn with
  | some (_, waits) => do
      let value ← expect shared.values.head? "nonempty channel"
      pure (({ shared.setWaits run.ticket.direction waits with
        values := shared.values.tail }.wakeFronts).finish thread (.received value), .rest)
  | none =>
      if shared.values.isEmpty ∧ (shared.closed ∨ shared.senders = 0) then
        pure (shared.fails thread run .closed)
      else shared.await thread run timed

/-- The section of a call. -/
def enterSection (shared : Shared ι α) (thread : ι) (run : Run ι α) (timed : Bool) :
    Checked (Shared ι α × Resume ι α) :=
  match run.op with
  | .send value => shared.send thread run timed value
  | .recv => shared.recv thread run timed

/-- The section of `Ticket::drop`. -/
def dropTicket (shared : Shared ι α) (thread : ι) (run : Run ι α) (error : Error) :
    Checked (Shared ι α × Resume ι α) := do
  let waits ← run.ticket.remove (shared.waits run.ticket.direction)
  pure (((shared.setWaits run.ticket.direction waits).wakeFronts).finish thread
    (run.op.fail error), .rest)

/-- The section of `close`. -/
def close (shared : Shared ι α) : Shared ι α := { shared with closed := true }.wakeAll

/-- The section of the drop of a sender. -/
def dropSender (shared : Shared ι α) : Shared ι α :=
  let dropped := { shared with senders := shared.senders - 1 }
  if dropped.senders = 0 then dropped.wakeAll else dropped

/-- The section of the drop of a receiver; the last one takes the values along. -/
def dropReceiver (shared : Shared ι α) : Shared ι α :=
  let dropped := { shared with receivers := shared.receivers - 1 }
  if dropped.receivers = 0 then
    { dropped.wakeAll with values := [], destroyed := dropped.values ++ dropped.destroyed }
  else dropped

/-- `publish_claim`, by the thread that claimed the cell of `task`. -/
def publishClaim (shared : Shared ι α) (task : ι) (claimed : WaitWord) : Checked (Shared ι α) := do
  let published ← claimed.publishObserved (shared.word task)
  pure { shared.setWord task published with
    publisher := Function.update shared.publisher task none }

/-- A deadline fires only for a park request that has one. -/
def mayFire (shared : Shared ι α) (task : ι) (cause : WakeCause) : Bool :=
  cause = .inheritedCancelled || (cause = .timedOut && shared.timed task)

end Shared

section Step

variable {ι α : Type} [DecidableEq ι]

open Shared

/-- Continue with a checked result. -/
def checked {β : Type} (shared : Shared ι α) (result : Checked β)
    (next : β → Shared ι α × Pc ι α) : Shared ι α × Pc ι α :=
  match result with
  | .ok value => next value
  | .error message => (shared, .panicked message)

/-- A section with the lock, which is free before. -/
def locked (thread : ι) (shared : Shared ι α) (result : Checked (Shared ι α × Resume ι α)) :
    Option (Shared ι α × Pc ι α) :=
  if shared.lock = none then
    some (checked shared result fun (after, next) => ({ after with lock := some thread },
      .unlock next))
  else none

/-- A call of `send` or `recv` starts. -/
def startCall (op : Op α) (blocking : Bool) (thread : ι) (choice : Choice ι α)
    (shared : Shared ι α) : Shared ι α × Pc ι α :=
  match if blocking then choice.failure else none with
  | some error => (shared.finish thread (op.fail error), .rest)
  | none => (shared, .section ⟨op, blocking, false, ⟨op.direction, none, false⟩⟩)

/-- Note the input of a call. -/
def takeInput (thread : ι) (value : α) (shared : Shared ι α) : Shared ι α :=
  { shared with inputs := shared.inputs ++ [(thread, value)] }

/-- A call starts.  It is made through an endpoint that is there. -/
def Call.start (thread : ι) (choice : Choice ι α) (shared : Shared ι α) :
    Call ι α → Option (Shared ι α × Pc ι α)
  | .send value =>
      if shared.senders = 0 then none
      else some (startCall (.send value) true thread choice (takeInput thread value shared))
  | .trySend value =>
      if shared.senders = 0 then none
      else some (startCall (.send value) false thread choice (takeInput thread value shared))
  | .recv =>
      if shared.receivers = 0 then none else some (startCall .recv true thread choice shared)
  | .tryRecv =>
      if shared.receivers = 0 then none else some (startCall .recv false thread choice shared)
  | .close => locked thread shared (.ok (shared.close, .rest))
  | .cloneSender =>
      if shared.senders = 0 then none
      else locked thread shared do
        ensure (shared.senders + 1 ≤ endpointLimit) "sender count exhausted"
        pure ({ shared with senders := shared.senders + 1 }, .rest)
  | .cloneReceiver =>
      if shared.receivers = 0 then none
      else locked thread shared do
        ensure (shared.receivers + 1 ≤ endpointLimit) "receiver count exhausted"
        pure ({ shared with receivers := shared.receivers + 1 }, .rest)
  | .dropSender =>
      if shared.senders = 0 then none else locked thread shared (.ok (shared.dropSender, .rest))
  | .dropReceiver =>
      if shared.receivers = 0 then none
      else locked thread shared (.ok (shared.dropReceiver, .rest))
  | .elsewhere word =>
      if word.phase = .idle ∧ word.closed = false then some (shared.setWord thread word, .rest)
      else none
  | .select task cause =>
      if shared.mayFire task cause then
        match (selectGeneration ⟨0, (shared.word task).generation⟩ cause (shared.word task) :
            Decision) with
        | .exchange claimed _ =>
            some (shared.claim thread task claimed, .publish task claimed none)
        | _ => none
      else none
  | .query task =>
      match (publication ⟨0, (shared.word task).generation⟩ (shared.word task) : Decision) with
      | .exchange next _ => some (shared.setWord task next, .rest)
      | _ => none

/-- The holder of the lock notifies the next cell, or releases the lock. -/
def stepUnlock (thread : ι) (shared : Shared ι α) (next : Resume ι α) :
    Option (Shared ι α × Pc ι α) :=
  match shared.pending with
  | [] => some ({ shared with lock := none }, next.pc)
  | task :: pending =>
      match (notify (shared.word task) : Decision) with
      | .give _ => some ({ shared with pending }, .unlock next)
      | .exchange claimed (.claim ..) =>
          some ({ shared.claim thread task claimed with pending },
            .publish task claimed (some next))
      | .exchange word _ => some ({ shared.setWord task word with pending }, .unlock next)
      | _ => none

/-- `park_notification`; whatever it is woken for, the call checks again. -/
def afterPark (run : Run ι α) : ParkNext → Pc ι α
  | .stay stage => .parking run stage
  | .returns (.ok _) => .check run
  | .returns (.error error) => .drop run error
  | .panics message => .panicked message

/-- One step of a thread. -/
def step (thread : ι) (choice : Choice ι α) (shared : Shared ι α) :
    Pc ι α → Option (Shared ι α × Pc ι α)
  | .rest => choice.call.start thread choice shared
  | .section run => locked thread shared (shared.enterSection thread run choice.timed)
  | .enter run => some <|
      match choice.failure with
      | some error => (shared.finish thread (run.op.fail error), .rest)
      | none =>
          match (recycle (shared.word thread) : Decision) with
          | .exchange next _ => checked shared (run.ticket.attach thread) fun ticket =>
              (shared.setWord thread next, .section { run with entered := true, ticket })
          | .give (.flag true) => checked shared (run.ticket.attach thread) fun ticket =>
              (shared, .section { run with entered := true, ticket })
          | _ => (shared.finish thread (run.op.fail remainedActive), .rest)
  | .parking run stage =>
      (stage.step false (shared.timed thread) choice.park (shared.word thread)).map
        fun (word, next) => (shared.setWord thread word, afterPark run next)
  | .check run => some (shared,
      match choice.failure with
      | some error => .drop run error
      | none => .section run)
  | .drop run error => locked thread shared (shared.dropTicket thread run error)
  | .unlock next => stepUnlock thread shared next
  | .publish task claimed next => some <|
      checked shared (shared.publishClaim task claimed) fun published =>
        (published, match next with
          | some next => .unlock next
          | none => .rest)
  | .panicked _ => none

/-- A new channel. -/
def Shared.new (capacity waitCapacity : Nat) : Shared ι α where
  capacity := capacity
  waitCapacity := waitCapacity
  values := []
  senders := 1
  receivers := 1
  closed := false
  waits _ := []
  lock := none
  pending := []
  word _ := .initial
  timed _ := false
  publisher _ := none
  arrivals := 0
  inputs := []
  results := []
  destroyed := []

/-- All threads over one channel of any positive capacities. -/
def program : Program ι (Shared ι α) (Pc ι α) where
  initial shared := ∃ capacity waitCapacity, 0 < capacity ∧ 0 < waitCapacity ∧
    shared = .new capacity waitCapacity
  start := .rest
  advance thread shared pc shared' pc' :=
    ∃ choice, step thread choice shared pc = some (shared', pc')

end Step

end VThread.Channel

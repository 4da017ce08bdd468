import Mathlib.Logic.Function.Basic
import VThread.Lib.Transition
import VThread.Mutex.Exclusive
import VThread.Wait.Parking

/-!
# The virtual mutex

Any number of threads lock, try to lock and unlock one mutex.  Every atomic operation and
every section under the entries lock is one step.  A thread waits on its resident cell;
deadlines and cancellations select those cells at any time, and carriers query them.

A live guard belongs to nobody in particular, and any thread may drop it.

Next to the mutex, the model numbers the queued tickets in order of arrival and notes what
became of each, where the ownership is, which threads hold a reservation, and who owes the
publication of a claimed cell.  No step reads these notes.
-/

namespace VThread.Mutex

open VThread.Lib VThread.Wait

/-- An entry of the queue, with the number of its ticket. -/
structure Entry (ι : Type) where
  wait : ι
  arrival : Nat
  deriving DecidableEq

/-- What became of a queued ticket: still queued, given the ownership, or left without it. -/
inductive Fate where
  | queued
  | granted
  | abandoned
  deriving DecidableEq, Repr

/-- Where the ownership is: a guard, a running call, or the slot, where it waits for the
ticket it was granted to or for the thread whose offer of it was rejected. -/
inductive Holder (ι : Type) where
  | free
  | guard
  | call (thread : ι)
  | granted (thread : ι)
  | rejected (thread : ι)
  deriving DecidableEq

/-- `Mutex` with its `MutexQueue`, the resident cells of all threads, whether the current
park request of a cell has a deadline, and the live guards. -/
structure Shared (ι : Type) where
  value : ExclusiveCell
  outstanding : Nat
  capacity : Nat
  entries : List (Entry ι)
  handoff : OwnershipSlot
  word : ι → WaitWord
  timed : ι → Bool
  guards : Nat
  holder : Holder ι
  tickets : List ι
  arrivals : Nat
  arrival : ι → Option Nat
  fate : Nat → Option Fate
  publisher : ι → Option ι

/-- What a call returned last. -/
abbrev Last := Except Error Unit

/-- Where a thread stands, before its next step.

`enter` to `acquired` belong to `lock`, `waiting` to `claim` to `Ticket::wait`, `dropTicket`
to `takeSelected` to the drop of a ticket, and `release`, `publish` and `reclaim` to
`release_ownership`.  The last arguments say what the call returns in the end. -/
inductive Pc (ι : Type) where
  | rest (last : Last)
  | enter
  | reserve
  | subscribe
  | acquired
  | waiting (stage : Parking)
  | resumed
  | takeHandoff
  | complete (ownership : Ownership)
  | claim (ownership : Ownership)
  | dropTicket (selected : Bool) (error : Error)
  | retire (queued selected : Bool) (error : Error)
  | takeResource (error : Error)
  | takeSelected (error : Error)
  | tryRelease
  | release (ownership : Ownership) (last : Last)
  | publish (recipient : ι) (claimed : WaitWord) (last : Last)
  | reclaim (last : Last)
  | panicked (message : String)

/-- What a resting thread can do.  `elsewhere` stands for its other waits, which use the
same resident cell and leave it idle; `select` is a deadline or an inherited cancellation
that selects the cell of a task, and `query` the publication query of a carrier. -/
inductive Call (ι : Type) where
  | tryLock
  | lock
  | drop
  | elsewhere (word : WaitWord)
  | select (task : ι) (cause : WakeCause)
  | query (task : ι)
  deriving DecidableEq

/-- The free choices of a step. -/
structure Choice (ι : Type) where
  call : Call ι
  failure : Option Error
  timed : Bool
  park : ParkChoice

def ownershipFault : Error := .fault "resumed mutex ticket does not own the handoff"

def lostOwnership : Error := .fault "selected mutex ticket lost ownership"

namespace Shared

variable {ι : Type} [DecidableEq ι]

/-! ## Updates -/

def setWord (shared : Shared ι) (thread : ι) (word : WaitWord) : Shared ι :=
  { shared with word := Function.update shared.word thread word }

@[simp] theorem setWord_word_self (shared : Shared ι) (thread : ι) (word : WaitWord) :
    (shared.setWord thread word).word thread = word := Function.update_self ..

theorem setWord_word {thread other : ι} (differ : other ≠ thread) (shared : Shared ι)
    (word : WaitWord) : (shared.setWord thread word).word other = shared.word other :=
  Function.update_of_ne differ ..

/-- Note what became of a ticket. -/
def settle (shared : Shared ι) (arrival : Nat) (fate : Fate) : Shared ι :=
  { shared with fate := Function.update shared.fate arrival (some fate) }

/-- A claim on the cell of `task`, which `thread` has to publish. -/
def claim (shared : Shared ι) (thread task : ι) (claimed : WaitWord) : Shared ι :=
  { shared.setWord task claimed with
    publisher := Function.update shared.publisher task (some thread) }

/-! ## Operations -/

/-- Exclusive access without waiting. -/
def tryLock (shared : Shared ι) : Option (Shared ι) :=
  shared.value.tryLock.map fun value =>
    { shared with value, guards := shared.guards + 1, holder := .guard }

/-- `MutexQueue::reserve`. -/
def reserve (shared : Shared ι) (thread : ι) : Except Error (Shared ι) :=
  if shared.outstanding < shared.capacity then
    .ok { shared with
      outstanding := shared.outstanding + 1, tickets := thread :: shared.tickets }
  else .error (.capacity shared.capacity)

/-- `MutexQueue::retire`. -/
def retire (shared : Shared ι) (thread : ι) : Checked (Shared ι) :=
  if shared.outstanding = 0 then .error "mutex ticket released twice"
  else .ok { shared with
    outstanding := shared.outstanding - 1, tickets := shared.tickets.erase thread }

/-- The section of `subscribe`. -/
def subscribe (shared : Shared ι) (thread : ι) (timed : Bool) :
    Checked (Shared ι × QueueDecision) := do
  let (value, decision) ← shared.value.queueOrLock
  match decision with
  | .acquired =>
      ensure shared.entries.isEmpty "unlocked mutex retained waiters"
      let (handoff, retained) := shared.handoff.take
      ensure retained.isNone "unlocked mutex retained ownership"
      pure ({ shared with value, handoff, holder := .call thread }, .acquired)
  | .queued =>
      pure ({ shared with
        value
        entries := shared.entries ++ [⟨thread, shared.arrivals⟩]
        timed := Function.update shared.timed thread timed
        arrivals := shared.arrivals + 1
        arrival := Function.update shared.arrival thread (some shared.arrivals)
        fate := Function.update shared.fate shared.arrivals (some .queued) }, .queued)

/-- How the section of `release_ownership` ends. -/
inductive Released (ι : Type) where
  | unlocked
  | stored
  | claimed (recipient : ι) (word : WaitWord)
  | rejected

/-- The section of `release_ownership`; it does not end while the cell of the front entry
is being bound. -/
def releaseOwnership (shared : Shared ι) (thread : ι) (ownership : Ownership) :
    Option (Checked (Shared ι × Released ι)) :=
  match shared.entries with
  | [] => some do
      let (handoff, retained) := shared.handoff.take
      ensure retained.isNone "mutex retained two selected owners"
      let value ← expect (shared.value.unlock ownership) "mutex ownership mismatch"
      pure ({ shared with value, handoff, holder := .free }, .unlocked)
  | entry :: entries =>
      match (claimResource .permit (shared.word entry.wait) : Decision) with
      | .reload => none
      | offered => some do
          let value ← expect (shared.value.setWaiters ownership (!entries.isEmpty))
            "mutex ownership mismatch"
          let handoff ← expect (shared.handoff.publish ownership)
            "mutex retained two selected owners"
          let popped := { shared with value, handoff, entries }
          match offered with
          | .exchange next (.claim _ _ _) =>
              pure ({ (popped.claim thread entry.wait next).settle entry.arrival .granted with
                holder := .granted entry.wait }, .claimed entry.wait next)
          | .exchange next _ =>
              pure ({ (popped.setWord entry.wait next).settle entry.arrival .granted with
                holder := .granted entry.wait }, .stored)
          | _ => pure ({ popped.settle entry.arrival .abandoned with
              holder := .rejected thread }, .rejected)

/-- The section of a dropped ticket, and whether the ticket was still queued. -/
def remove (shared : Shared ι) (thread : ι) : Shared ι × Bool :=
  match shared.entries.find? fun entry => entry.wait = thread with
  | some entry =>
      ({ shared.settle entry.arrival .abandoned with
        entries := shared.entries.eraseP fun entry => entry.wait = thread }, true)
  | none => (shared, false)

/-- `OwnershipSlot::take` by a running call. -/
def takeHandoff (shared : Shared ι) (thread : ι) : Shared ι × Option Ownership :=
  match shared.handoff.take with
  | (handoff, some ownership) =>
      ({ shared with handoff, holder := .call thread }, some ownership)
  | (handoff, none) => ({ shared with handoff }, none)

/-- `publish_claim`, by the thread that claimed the cell of `task`. -/
def publishClaim (shared : Shared ι) (task : ι) (claimed : WaitWord) : Checked (Shared ι) := do
  let published ← claimed.publishObserved (shared.word task)
  pure { shared.setWord task published with
    publisher := Function.update shared.publisher task none }

/-- A deadline fires only for a park request that has one. -/
def mayFire (shared : Shared ι) (task : ι) (cause : WakeCause) : Bool :=
  cause = .inheritedCancelled || (cause = .timedOut && shared.timed task)

end Shared

section Step

variable {ι : Type} [DecidableEq ι]

open Shared

/-- Continue with a checked result. -/
def checked {α : Type} (shared : Shared ι) (result : Checked α)
    (next : α → Shared ι × Pc ι) : Shared ι × Pc ι :=
  match result with
  | .ok value => next value
  | .error message => (shared, .panicked message)

/-- A call starts. -/
def Call.start (thread : ι) (choice : Choice ι) (shared : Shared ι) :
    Call ι → Option (Shared ι × Pc ι)
  | .tryLock => some <|
      match shared.tryLock with
      | some locked => (locked, .rest (.ok ()))
      | none => (shared, .rest (.error .wouldBlock))
  | .lock => some <|
      match choice.failure with
      | some error => (shared, .rest (.error error))
      | none =>
          match shared.tryLock with
          | some locked => (locked, .rest (.ok ()))
          | none => (shared, .enter)
  | .drop =>
      if shared.guards = 0 then none
      else some ({ shared with guards := shared.guards - 1, holder := .call thread },
        .tryRelease)
  | .elsewhere word =>
      if word.phase = .idle then some (shared.setWord thread word, .rest (.ok ())) else none
  | .select task cause =>
      if shared.mayFire task cause then
        match (selectGeneration ⟨0, (shared.word task).generation⟩ cause (shared.word task) :
            Decision) with
        | .exchange claimed _ =>
            some (shared.claim thread task claimed, .publish task claimed (.ok ()))
        | _ => none
      else none
  | .query task =>
      match (publication ⟨0, (shared.word task).generation⟩ (shared.word task) : Decision) with
      | .exchange next _ => some (shared.setWord task next, .rest (.ok ()))
      | _ => none

/-- One step of a thread. -/
def step (thread : ι) (choice : Choice ι) (shared : Shared ι) :
    Pc ι → Option (Shared ι × Pc ι)
  | .rest _ => choice.call.start thread choice shared
  | .enter => some <|
      match choice.failure with
      | some error => (shared, .rest (.error error))
      | none =>
          match (recycle (shared.word thread) : Decision) with
          | .exchange next _ => (shared.setWord thread next, .reserve)
          | .give (.flag true) => (shared, .reserve)
          | _ => (shared,
              .rest (.error (.fault "cached synchronization wait remained active")))
  | .reserve => some <|
      match shared.reserve thread with
      | .ok reserved => (reserved, .subscribe)
      | .error error => (shared, .rest (.error error))
  | .subscribe => some <|
      checked shared (shared.subscribe thread choice.timed) fun
        | (subscribed, .acquired) => (subscribed, .acquired)
        | (subscribed, .queued) => (subscribed, .waiting .begin)
  | .acquired => some <|
      checked shared (shared.retire thread) fun retired =>
        ({ retired with guards := retired.guards + 1, holder := .guard }, .rest (.ok ()))
  | .waiting stage =>
      (stage.step true (shared.timed thread) choice.park (shared.word thread)).map fun
        | (word, .stay stage') => (shared.setWord thread word, .waiting stage')
        | (word, .returns (.ok _)) => (shared.setWord thread word, .resumed)
        | (word, .returns (.error error)) =>
            (shared.setWord thread word, .dropTicket false error)
        | (word, .panics message) => (shared.setWord thread word, .panicked message)
  | .resumed => some <|
      match choice.failure with
      | some error => (shared, .dropTicket true error)
      | none => (shared, .takeHandoff)
  | .takeHandoff => some <|
      match shared.takeHandoff thread with
      | (taken, some ownership) => (taken, .complete ownership)
      | (taken, none) => (taken, .dropTicket true ownershipFault)
  | .complete ownership => some <|
      checked shared (shared.retire thread) fun retired => (retired, .claim ownership)
  | .claim ownership => some <|
      if shared.value.claim ownership then
        ({ shared with guards := shared.guards + 1, holder := .guard }, .rest (.ok ()))
      else (shared, .release ownership (.error lostOwnership))
  | .dropTicket selected error => some <|
      match shared.remove thread with
      | (removed, queued) => (removed, .retire queued selected error)
  | .retire queued selected error => some <|
      checked shared (shared.retire thread) fun retired =>
        if queued then (retired, .rest (.error error))
        else if selected then (retired, .takeSelected error)
        else (retired, .takeResource error)
  | .takeResource error =>
      match (tryTakeResource (shared.word thread) : Decision) with
      | .give _ => some (shared, .rest (.error error))
      | .exchange next (.adjust (.resource (some .permit))) =>
          some (shared.setWord thread next, .takeSelected error)
      | .exchange next _ => some (shared.setWord thread next, .rest (.error error))
      | _ => none
  | .takeSelected error => some <|
      match shared.takeHandoff thread with
      | (taken, some ownership) => (taken, .release ownership (.error error))
      | (taken, none) => (taken, .panicked "selected mutex owner")
  | .tryRelease => some <|
      checked shared shared.value.tryRelease fun
        | (value, none) => ({ shared with value, holder := .free }, .rest (.ok ()))
        | (value, some ownership) => ({ shared with value }, .release ownership (.ok ()))
  | .release ownership last =>
      (shared.releaseOwnership thread ownership).map fun result =>
        checked shared result fun
          | (released, .unlocked) | (released, .stored) => (released, .rest last)
          | (released, .claimed recipient word) => (released, .publish recipient word last)
          | (released, .rejected) => (released, .reclaim last)
  | .publish recipient claimed last => some <|
      checked shared (shared.publishClaim recipient claimed) fun published =>
        (published, .rest last)
  | .reclaim last => some <|
      match shared.takeHandoff thread with
      | (taken, some ownership) => (taken, .release ownership last)
      | (taken, none) => (taken, .panicked "rejected mutex owner")
  | .panicked _ => none

/-- A new mutex with a positive waiter limit. -/
def Shared.new (identity capacity : Nat) : Shared ι where
  value := ⟨0, identity⟩
  outstanding := 0
  capacity := capacity
  entries := []
  handoff := .new
  word _ := .initial
  timed _ := false
  guards := 0
  holder := .free
  tickets := []
  arrivals := 0
  arrival _ := none
  fate _ := none
  publisher _ := none

/-- All threads over one mutex.  Identities count from one. -/
def program : Program ι (Shared ι) (Pc ι) where
  initial shared := ∃ identity capacity, 0 < identity ∧ 0 < capacity ∧
    shared = .new identity capacity
  start := .rest (.ok ())
  advance thread shared pc shared' pc' :=
    ∃ choice, step thread choice shared pc = some (shared', pc')

end Step

end VThread.Mutex

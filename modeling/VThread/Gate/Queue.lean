import Mathlib.Logic.Function.Basic
import VThread.Gate.Permits
import VThread.Lib.Transition
import VThread.Wait.Parking

/-!
# Gates

Any number of threads take permits from one gate, signal it, broadcast to its waiters and
close it.  Every atomic operation and every section under the lock of the gate is one step; a
section does not end while a cell it has to select is being bound or published.  A thread
waits on its resident cell; deadlines and cancellations select those cells at any time, and
carriers query them.

Next to the gate, the model numbers the queued tickets in order of arrival, notes which
threads hold a reservation and who owes the publication of a claimed cell, counts the
successful takes that no broadcast has served, and notes where every permit is.  No step reads
these notes.
-/

namespace VThread.Gate

open VThread.Lib VThread.Wait

/-- An entry of the queue, with the number of its ticket. -/
structure Entry (ι : Type) where
  wait : ι
  arrival : Nat
  deriving DecidableEq

/-- `Gate`, the resident cells of all threads, and whether the current park request of a cell
has a deadline. -/
structure Shared (ι : Type) where
  maximum : Nat
  capacity : Nat
  available : Nat
  outstanding : Nat
  closed : Bool
  entries : List (Entry ι)
  word : ι → WaitWord
  timed : ι → Bool
  tickets : List ι
  arrivals : Nat
  publisher : ι → Option ι
  /-- The permits there were at first and the calls of `signal` since. -/
  issued : Nat
  successes : Nat
  permits : List (Place ι)

/-- What a call returned last. -/
abbrev Last := Except Error Unit

/-- Where a call of `try_take` stands. -/
inductive TryTake where
  | start
  | load
  | exchange (available : Nat)
  | recheck
  deriving DecidableEq, Repr

/-- Where a thread stands, before its next step.

`tryTake` belongs to `try_take`, also when it is made by `take`, `enter` to `subscribe` to
`take`, `waiting` to `complete` to `Ticket::wait`, and `dropTicket` to `release` to the drop of
a ticket.  The last arguments say what the call returns in the end. -/
inductive Pc (ι : Type) where
  | rest (last : Last)
  | tryTake (waits : Bool) (stage : TryTake)
  | enter
  | reserve
  | subscribe
  | waiting (stage : Parking)
  | check
  | loadClosed
  | takeResource
  | complete (selection : ResourceSelection)
  | dropTicket (error : Error)
  | dropClosed (selection : Option ResourceSelection) (error : Error)
  | reset (selection : Option ResourceSelection) (error : Error)
  | release (selection : Option ResourceSelection) (error : Error)
  | signal (last : Last)
  | publish (task : ι) (claimed : WaitWord) (last : Last)
  | panicked (message : String)

/-- What a resting thread can do.  `elsewhere` stands for its other waits, which use the same
resident cell and leave it idle and open; `select` is a deadline or an inherited cancellation
that selects the cell of a task, and `query` the publication query of a carrier. -/
inductive Call (ι : Type) where
  | tryTake
  | take
  | signal
  | broadcast
  | close
  | elsewhere (word : WaitWord)
  | select (task : ι) (cause : WakeCause)
  | query (task : ι)
  deriving DecidableEq

/-- The free choices of a step: the call to make, a check that fails, whether the park request
has a deadline, and whether a weak compare-exchange fails. -/
structure Choice (ι : Type) where
  call : Call ι
  failure : Option Error
  timed : Bool
  spurious : Bool
  park : ParkChoice

def retainedSelection : Error := .fault "synchronization wait retained a prior selection"

def remainedActive : Error := .fault "cached synchronization wait remained active"

/-- What a decision makes of a word when nothing comes between the decision and the
publication of its claim, and whether it changes the word. -/
def decided (word : WaitWord) : Decision → Option (WaitWord × Bool)
  | .exchange next (.claim cause _ _) => some (next.withPhase (.selected cause), true)
  | .exchange next _ => some (next, true)
  | .give _ => some (word, false)
  | _ => none

/-- `offer_resource`, under the lock of the gate. -/
def offerResource (selection : ResourceSelection) (word : WaitWord) :
    Option (WaitWord × Bool) :=
  decided word (claimResource selection word)

/-- `WaitCell::close`, under the lock of the gate. -/
def closeWait (word : WaitWord) : Option (WaitWord × Bool) :=
  decided word (Wait.close word)

/-- Decide on the cells of all entries, front to back. -/
def decideAll {ι : Type} [DecidableEq ι] (decide : WaitWord → Option (WaitWord × Bool)) :
    List (Entry ι) → (ι → WaitWord) → Option (ι → WaitWord)
  | [], word => some word
  | entry :: entries, word =>
      match decide (word entry.wait) with
      | none => none
      | some (next, _) => decideAll decide entries (Function.update word entry.wait next)

namespace Shared

variable {ι : Type} [DecidableEq ι]

/-! ## Updates -/

def setWord (shared : Shared ι) (thread : ι) (word : WaitWord) : Shared ι :=
  { shared with word := Function.update shared.word thread word }

@[simp] theorem setWord_word_self (shared : Shared ι) (thread : ι) (word : WaitWord) :
    (shared.setWord thread word).word thread = word := Function.update_self ..

theorem setWord_word {thread other : ι} (differ : other ≠ thread) (shared : Shared ι)
    (word : WaitWord) : (shared.setWord thread word).word other = shared.word other :=
  Function.update_of_ne differ ..

/-- Note that a permit has moved. -/
def move (shared : Shared ι) (source target : Place ι) : Shared ι :=
  { shared with permits := shared.permits.replace source target }

/-- Note a successful take that was not served by a broadcast. -/
def succeed (shared : Shared ι) (source : Place ι) : Shared ι :=
  { shared.move source .taken with successes := shared.successes + 1 }

/-- A claim on the cell of `task`, which `thread` has to publish. -/
def claim (shared : Shared ι) (thread task : ι) (claimed : WaitWord) : Shared ι :=
  { shared.setWord task claimed with
    publisher := Function.update shared.publisher task (some thread) }

/-! ## Operations -/

def reserve (shared : Shared ι) (thread : ι) : Except Error (Shared ι) :=
  if shared.outstanding < shared.capacity then
    .ok { shared with
      outstanding := shared.outstanding + 1, tickets := thread :: shared.tickets }
  else .error (.capacity shared.capacity)

def release (shared : Shared ι) (thread : ι) : Checked (Shared ι) :=
  if shared.outstanding = 0 then .error "synchronization ticket released twice"
  else .ok { shared with
    outstanding := shared.outstanding - 1, tickets := shared.tickets.erase thread }

/-- `store_permit`, of a permit that is noted at `source`. -/
def storePermit (shared : Shared ι) (source : Place ι) : Shared ι :=
  if shared.available < shared.maximum then
    { shared.move source .stored with available := shared.available + 1 }
  else shared.move source .coalesced

/-- The section of `subscribe_parker`, and what it returns. -/
def subscribeParker (shared : Shared ι) (thread : ι) (timed : Bool) :
    Option (Checked (Shared ι × Last)) :=
  if shared.closed then some do
    let released ← shared.release thread
    pure (released, .error .closed)
  else if shared.available ≠ 0 then
    let taken := { shared.move .stored (.selected thread) with
      available := shared.available - 1, timed := Function.update shared.timed thread timed }
    match offerResource .permit (shared.word thread) with
    | none => none
    | some (next, true) => some (pure (taken.setWord thread next, .ok ()))
    | some (_, false) => some do
        let released ← (taken.storePermit (.selected thread)).release thread
        pure (released, .error retainedSelection)
  else some (pure ({ shared with
      entries := shared.entries ++ [⟨thread, shared.arrivals⟩]
      timed := Function.update shared.timed thread timed
      arrivals := shared.arrivals + 1 }, .ok ()))

/-- A section of `signal`, and whether the call ends with it. -/
def signal (shared : Shared ι) (thread : ι) : Option (Shared ι × Bool) :=
  if shared.closed then some (shared.move (.carried thread) .discarded, true)
  else match shared.entries with
    | [] => some (shared.storePermit (.carried thread), true)
    | entry :: entries =>
        match offerResource .permit (shared.word entry.wait) with
        | none => none
        | some (next, true) =>
            some ({ (shared.setWord entry.wait next).move (.carried thread)
              (.selected entry.wait) with entries }, true)
        | some (_, false) => some ({ shared with entries }, false)

/-- The section of `broadcast`. -/
def broadcast (shared : Shared ι) : Option (Shared ι) :=
  (decideAll (offerResource .broadcast) shared.entries shared.word).map fun word =>
    { shared with word, entries := [] }

/-- The section of `close`. -/
def close (shared : Shared ι) : Option (Shared ι) :=
  (decideAll closeWait shared.entries shared.word).map fun word =>
    { shared with
      word
      closed := true
      available := 0
      entries := []
      permits := shared.permits.map fun place =>
        if place = .stored then .discarded else place }

/-- The section of a dropped ticket, and the selection it takes back. -/
def dropTicket (shared : Shared ι) (thread : ι) :
    Option (Shared ι × Option ResourceSelection) :=
  match shared.entries.find? fun entry => entry.wait = thread with
  | some _ =>
      some ({ shared with
        entries := shared.entries.eraseP fun entry => entry.wait = thread }, none)
  | none =>
      match (tryTakeResource (shared.word thread) : Decision) with
      | .give (.resource selection) => some (shared, selection)
      | .exchange next (.adjust (.resource selection)) =>
          some (shared.setWord thread next, selection)
      | _ => none

/-- `publish_claim`, by the thread that claimed the cell of `task`. -/
def publishClaim (shared : Shared ι) (task : ι) (claimed : WaitWord) : Checked (Shared ι) := do
  let published ← claimed.publishObserved (shared.word task)
  pure { shared.setWord task published with
    publisher := Function.update shared.publisher task none }

/-- A deadline fires only for a park request that has one. -/
def mayFire (shared : Shared ι) (task : ι) (cause : WakeCause) : Bool :=
  cause = .inheritedCancelled || (cause = .timedOut && shared.timed task)

end Shared

section Step

variable {ι : Type} [DecidableEq ι]

open Shared

/-- Continue with a checked result. -/
def checked {α : Type} (shared : Shared ι) (result : Checked α)
    (next : α → Shared ι × Pc ι) : Shared ι × Pc ι :=
  match result with
  | .ok value => next value
  | .error message => (shared, .panicked message)

/-- `try_take` has observed the stored permits. -/
def Pc.observed (waits : Bool) (available : Nat) : Pc ι :=
  if available = 0 then .tryTake waits .recheck else .tryTake waits (.exchange available)

/-- A step of `try_take`. -/
def TryTake.step (waits spurious : Bool) (shared : Shared ι) : TryTake → Shared ι × Pc ι
  | .start =>
      (shared, if shared.closed then .rest (.error .closed) else .tryTake waits .load)
  | .load => (shared, .observed waits shared.available)
  | .exchange available =>
      if shared.available = available ∧ spurious = false then
        ({ shared.succeed .stored with available := available - 1 }, .rest (.ok ()))
      else (shared, .observed waits shared.available)
  | .recheck =>
      (shared,
        if shared.closed then .rest (.error .closed)
        else if waits then .enter
        else .rest (.error .wouldBlock))

/-- A call starts. -/
def Call.start (thread : ι) (choice : Choice ι) (shared : Shared ι) :
    Call ι → Option (Shared ι × Pc ι)
  | .tryTake => some (shared, .tryTake false .start)
  | .take => some (shared,
      match choice.failure with
      | some error => .rest (.error error)
      | none => .tryTake true .start)
  | .signal => some ({ shared with
      issued := shared.issued + 1, permits := shared.permits ++ [.carried thread] },
      .signal (.ok ()))
  | .broadcast => shared.broadcast.map (·, .rest (.ok ()))
  | .close => shared.close.map (·, .rest (.ok ()))
  | .elsewhere word =>
      if word.phase = .idle ∧ word.closed = false then
        some (shared.setWord thread word, .rest (.ok ()))
      else none
  | .select task cause =>
      if shared.mayFire task cause then
        match (selectGeneration ⟨0, (shared.word task).generation⟩ cause (shared.word task) :
            Decision) with
        | .exchange claimed _ =>
            some (shared.claim thread task claimed, .publish task claimed (.ok ()))
        | _ => none
      else none
  | .query task =>
      match (publication ⟨0, (shared.word task).generation⟩ (shared.word task) : Decision) with
      | .exchange next _ => some (shared.setWord task next, .rest (.ok ()))
      | _ => none

/-- One step of a thread. -/
def step (thread : ι) (choice : Choice ι) (shared : Shared ι) :
    Pc ι → Option (Shared ι × Pc ι)
  | .rest _ => choice.call.start thread choice shared
  | .tryTake waits stage => some (stage.step waits choice.spurious shared)
  | .enter => some <|
      match choice.failure with
      | some error => (shared, .rest (.error error))
      | none =>
          match (recycle (shared.word thread) : Decision) with
          | .exchange next _ => (shared.setWord thread next, .reserve)
          | .give (.flag true) => (shared, .reserve)
          | _ => (shared, .rest (.error remainedActive))
  | .reserve => some <|
      match shared.reserve thread with
      | .ok reserved => (reserved, .subscribe)
      | .error error => (shared, .rest (.error error))
  | .subscribe =>
      (shared.subscribeParker thread choice.timed).map fun result =>
        checked shared result fun
          | (subscribed, .ok ()) => (subscribed, .waiting .begin)
          | (released, .error error) => (released, .rest (.error error))
  | .waiting stage =>
      (stage.step false (shared.timed thread) choice.park (shared.word thread)).map fun
        | (word, .stay stage') => (shared.setWord thread word, .waiting stage')
        | (word, .returns (.ok _)) => (shared.setWord thread word, .check)
        | (word, .returns (.error error)) => (shared.setWord thread word, .dropTicket error)
        | (word, .panics message) => (shared.setWord thread word, .panicked message)
  | .check => some <|
      match choice.failure with
      | some error => (shared, .dropTicket error)
      | none => (shared, .loadClosed)
  | .loadClosed => some (shared, if shared.closed then .dropTicket .closed else .takeResource)
  | .takeResource =>
      match (tryTakeResource (shared.word thread) : Decision) with
      | .give _ => some (shared, .waiting .begin)
      | .exchange next (.adjust (.resource (some selection))) =>
          some (shared.setWord thread next, .complete selection)
      | _ => none
  | .complete selection => some <|
      checked shared (shared.release thread) fun released =>
        (match selection with
          | .permit => released.succeed (.selected thread)
          | .broadcast => released, .rest (.ok ()))
  | .dropTicket error =>
      (shared.dropTicket thread).map fun
        | (dropped, selection) => (dropped, .dropClosed selection error)
  | .dropClosed selection error =>
      some (shared, if shared.closed then .reset selection error else .release selection error)
  | .reset selection error =>
      match (resetClosedGate (shared.word thread) : Decision) with
      | .give (.flag true) => some (shared, .release selection error)
      | .exchange next _ => some (shared.setWord thread next, .release selection error)
      | _ => some (shared, .panicked "retired closed gate wait")
  | .release selection error => some <|
      checked shared (shared.release thread) fun released =>
        if selection = some .permit then
          (released.move (.selected thread) (.carried thread), .signal (.error error))
        else (released, .rest (.error error))
  | .signal last =>
      (shared.signal thread).map fun
        | (signalled, true) => (signalled, .rest last)
        | (signalled, false) => (signalled, .signal last)
  | .publish task claimed last => some <|
      checked shared (shared.publishClaim task claimed) fun published =>
        (published, .rest last)
  | .panicked _ => none

/-- A new gate. -/
def Shared.new (available maximum capacity : Nat) : Shared ι where
  maximum := maximum
  capacity := capacity
  available := available
  outstanding := 0
  closed := false
  entries := []
  word _ := .initial
  timed _ := false
  tickets := []
  arrivals := 0
  publisher _ := none
  issued := available
  successes := 0
  permits := List.replicate available .stored

/-- All threads over one gate with a positive waiter limit. -/
def program (available maximum : Nat) : Program ι (Shared ι) (Pc ι) where
  initial shared := ∃ capacity, 0 < capacity ∧ shared = .new available maximum capacity
  start := .rest (.ok ())
  advance thread shared pc shared' pc' :=
    ∃ choice, step thread choice shared pc = some (shared', pc')

end Step

end VThread.Gate

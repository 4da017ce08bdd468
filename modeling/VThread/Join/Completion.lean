import Mathlib.Data.List.Sort
import VThread.Lib.Transition

/-!
# Subscribing to a completion

One task completes; any number of waiters subscribe with wait cells of their own, and drop
their subscriptions.  Every atomic operation, every locked section and every notification of
a wait cell is one step.

A waiter is named by the identity of its cell.  The count in the lifecycle word does not
wrap, since every counted waiter has a cell in memory.
-/

namespace VThread.Join

open VThread.Lib

/-- `DONE`. -/
def done : Nat := 1

/-- `WAITER`. -/
def waiter : Nat := 2

abbrev CellId := Nat

/-- The completion, and the cells notified so far. -/
structure Completion where
  capacity : Nat
  lifecycle : Nat
  waiters : List CellId
  notified : List CellId
  deriving DecidableEq

namespace Completion

/-- `Completion::new`. -/
def new (capacity : Nat) : Completion := ⟨capacity, 0, [], []⟩

/-- `Completion::done`. -/
def isDone (completion : Completion) : Bool := completion.lifecycle &&& done != 0

/-- The map is ordered by identity; an insertion replaces an entry with the same identity. -/
def insert (completion : Completion) (id : CellId) : Completion :=
  if id ∈ completion.waiters then completion
  else { completion with waiters := completion.waiters.orderedInsert (· ≤ ·) id }

def notify (completion : Completion) (id : CellId) : Completion :=
  { completion with notified := completion.notified ++ [id] }

def fetchAdd (completion : Completion) (amount : Nat) : Completion :=
  { completion with lifecycle := completion.lifecycle + amount }

def fetchSub (completion : Completion) (amount : Nat) : Completion :=
  { completion with lifecycle := completion.lifecycle - amount }

end Completion

inductive Party where
  | completer
  | subscriber (id : CellId)
  deriving DecidableEq

/-- The next step of a party. -/
inductive Pc where
  | idle
  /-- `subscribe`: take back the announcement, the task being done. -/
  | late
  /-- `subscribe`: notify the own cell. -/
  | notifying
  /-- `subscribe`: the locked section. -/
  | locked
  /-- `subscribe` returned a `CompletionWait`. -/
  | subscribed
  /-- `subscribe` returned `Error::Capacity`. -/
  | rejected
  /-- `drop` removed the waiter: uncount it. -/
  | removed
  /-- The `CompletionWait` is dropped. -/
  | dropped (removed : Bool)
  /-- `complete`: take the waiters. -/
  | take
  /-- `complete`: uncount the waiters. -/
  | uncount (waiters : List CellId)
  /-- `complete`: notify the waiters. -/
  | wake (waiters : List CellId)
  /-- `complete` returned. -/
  | completed
  deriving DecidableEq

/-- `complete`. -/
def completeStep (completion : Completion) : Pc → Option (Completion × Pc)
  | .idle =>
      some ({ completion with lifecycle := completion.lifecycle ||| done },
        if completion.lifecycle / waiter = 0 then .completed else .take)
  | .take =>
      some ({ completion with waiters := [] },
        if completion.waiters.isEmpty then .completed else .uncount completion.waiters)
  | .uncount waiters => some (completion.fetchSub (waiters.length * waiter), .wake waiters)
  | .wake (id :: rest) =>
      some (completion.notify id, if rest.isEmpty then .completed else .wake rest)
  | _ => none

/-- `subscribe` and the drop of its result. -/
def subscribeStep (id : CellId) (completion : Completion) : Pc → Option (Completion × Pc)
  | .idle => some (completion.fetchAdd waiter, if completion.isDone then .late else .locked)
  | .late => some (completion.fetchSub waiter, .notifying)
  | .notifying => some (completion.notify id, .subscribed)
  | .locked =>
      if completion.isDone then some ((completion.fetchSub waiter).notify id, .subscribed)
      else if completion.capacity ≤ completion.waiters.length then
        some (completion.fetchSub waiter, .rejected)
      else some (completion.insert id, .subscribed)
  | .subscribed =>
      some ({ completion with waiters := completion.waiters.erase id },
        if id ∈ completion.waiters then .removed else .dropped false)
  | .removed => some (completion.fetchSub waiter, .dropped true)
  | _ => none

def nextStep : Party → Completion → Pc → Option (Completion × Pc)
  | .completer, completion, pc => completeStep completion pc
  | .subscriber id, completion, pc => subscribeStep id completion pc

def program (capacity : Nat) : Program Party Completion Pc where
  initial completion := completion = .new capacity
  start := .idle
  advance party completion pc completion' pc' :=
    nextStep party completion pc = some (completion', pc')

def scheduler (capacity : Nat) : (program capacity).Scheduler Unit where
  next party _ completion pc := nextStep party completion pc
  sound _ _ _ _ _ taken := taken

end VThread.Join

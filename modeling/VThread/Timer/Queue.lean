import Mathlib.Data.Prod.Lex
import Mathlib.Logic.Function.Basic
import VThread.Lib.Checked
import VThread.Lib.Ordered

/-!
# Timers of a carrier

A timer queue keeps the active timers by token, and their deadlines in order.  Instants and
tokens are arbitrary ordered types.
-/

namespace VThread.Timer

open VThread.Lib

structure ExpiredTimer (K T : Type) where
  task : T
  token : K
  deriving DecidableEq

structure TimerRegistration (I T : Type) where
  deadline : I
  task : T
  deriving DecidableEq

variable {I K T : Type} [LinearOrder I] [LinearOrder K]

/-- `TimerQueue`: deadlines with their tokens, and registrations by token. -/
structure TimerQueue (I K T : Type) [LinearOrder I] [LinearOrder K] where
  deadlines : Ordered (toLex : I × K → I ×ₗ K)
  active : Ordered (Prod.fst : K × TimerRegistration I T → K)

namespace TimerQueue

def new : TimerQueue I K T := ⟨.empty, .empty⟩

def schedule (queue : TimerQueue I K T) (task : T) (token : K) (deadline : I) :
    TimerQueue I K T × Bool :=
  match queue.active.find? token with
  | some _ => (queue, false)
  | none =>
      (⟨queue.deadlines.insert (deadline, token), queue.active.insert (token, ⟨deadline, task⟩)⟩,
        true)

def cancel (queue : TimerQueue I K T) (token : K) : TimerQueue I K T × Bool :=
  match queue.active.find? token with
  | none => (queue, false)
  | some (_, registration) =>
      let indexed := toLex (registration.deadline, token)
      (⟨queue.deadlines.erase indexed, queue.active.erase token⟩,
        (queue.deadlines.find? indexed).isSome)

def activeCount (queue : TimerQueue I K T) : Nat := queue.active.items.length

def nextDeadline (queue : TimerQueue I K T) : Option I := queue.deadlines.first?.map Prod.fst

/-- The loop of `pop_expired`, with the timers that have expired so far. -/
def popWhile (now : I) (queue : TimerQueue I K T) (expired : List (ExpiredTimer K T)) :
    Checked (TimerQueue I K T × List (ExpiredTimer K T)) :=
  match _ : queue.deadlines.first? with
  | none => pure (queue, expired)
  | some (deadline, token) =>
      if now < deadline then pure (queue, expired)
      else do
        let (_, registration) ← expect (queue.active.find? token) "active timer deadline"
        ensure (registration.deadline = deadline) "active timer deadline"
        popWhile now ⟨queue.deadlines.popFirst, queue.active.erase token⟩
          (expired ++ [⟨registration.task, token⟩])
termination_by queue.deadlines.items.length
decreasing_by exact Ordered.length_popFirst ‹_›

def popExpired (queue : TimerQueue I K T) (now : I) :
    Checked (TimerQueue I K T × List (ExpiredTimer K T)) :=
  queue.popWhile now []

end TimerQueue

/-! ## Runs -/

inductive Call (I K T : Type) where
  | schedule (task : T) (token : K) (deadline : I)
  | cancel (token : K)
  | popExpired (now : I)

inductive Answer (K T : Type) where
  | flag (value : Bool)
  | expired (timers : List (ExpiredTimer K T))

namespace TimerQueue

def answer (queue : TimerQueue I K T) : Call I K T → Checked (TimerQueue I K T × Answer K T)
  | .schedule task token deadline => do
      let (queue, scheduled) := queue.schedule task token deadline
      pure (queue, .flag scheduled)
  | .cancel token => do
      let (queue, cancelled) := queue.cancel token
      pure (queue, .flag cancelled)
  | .popExpired now => do
      let (queue, expired) ← queue.popExpired now
      pure (queue, .expired expired)

def run : List (Call I K T) → TimerQueue I K T →
    Checked (TimerQueue I K T × List (Answer K T))
  | [], queue => pure (queue, [])
  | call :: calls, queue => do
      let (queue, answer) ← queue.answer call
      let (queue, answers) ← queue.run calls
      pure (queue, answer :: answers)

end TimerQueue

/-! ## What the queue is for -/

/-- The active timers. -/
abbrev Timers (I K T : Type) : Type := K → Option (TimerRegistration I T)

namespace Timers

/-- The active timers after a call. -/
def after (timers : Timers I K T) : Call I K T → Timers I K T
  | .schedule task token deadline =>
      match timers token with
      | some _ => timers
      | none => Function.update timers token (some ⟨deadline, task⟩)
  | .cancel token => Function.update timers token none
  | .popExpired now => fun token => (timers token).filter fun registration =>
      now < registration.deadline

def afterAll (timers : Timers I K T) (calls : List (Call I K T)) : Timers I K T :=
  calls.foldl after timers

/-- One active timer comes before another one, by its deadline and its token. -/
def Before (timers : Timers I K T) (left right : ExpiredTimer K T) : Prop :=
  ∃ earlier later, timers left.token = some earlier ∧ timers right.token = some later ∧
    toLex (earlier.deadline, left.token) < toLex (later.deadline, right.token)

/-- Exactly the timers due at an instant, each with its task, in order. -/
structure Due (timers : Timers I K T) (now : I) (expired : List (ExpiredTimer K T)) : Prop where
  exactly : ∀ task token, ⟨task, token⟩ ∈ expired ↔
    ∃ deadline ≤ now, timers token = some ⟨deadline, task⟩
  ordered : expired.Pairwise timers.Before

/-- What a call answers. -/
def Answers (timers : Timers I K T) : Call I K T → Answer K T → Prop
  | .schedule _ token _, answer => answer = .flag (timers token).isNone
  | .cancel token, answer => answer = .flag (timers token).isSome
  | .popExpired now, answer => ∃ expired, answer = .expired expired ∧ timers.Due now expired

/-- What the calls of a run answer. -/
def AnswersAll (timers : Timers I K T) : List (Call I K T) → List (Answer K T) → Prop
  | [], answers => answers = []
  | call :: calls, answers => ∃ answer rest, answers = answer :: rest ∧
      timers.Answers call answer ∧ (timers.after call).AnswersAll calls rest

end Timers

end VThread.Timer

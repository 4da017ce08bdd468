import VThread.Lib.Ordered
import VThread.Lib.Transition

/-!
# Task-local values

A task keeps its values by key, each made by the initializer of its key on the first call of `with`.
Initializers, callbacks and destructors are arbitrary code of the user: whatever it was told, the
code on top of the stack may call `with` on any key, suspend, return or unwind, and code that a call
unwinds to may go on as it likes.
-/

namespace VThread.Locals

open VThread.Lib

variable {K : Type} [LinearOrder K]

/-- A value: the key whose initializer made it, and how many were made before. -/
structure Made (K : Type) where
  key : K
  number : Nat
  deriving DecidableEq

inductive Value (K : Type) where
  | initializing
  | ready (made : Made K)
  deriving DecidableEq

/-- `BTreeMap<usize, Value>`. -/
abbrev Values (K : Type) [LinearOrder K] := Ordered (Prod.fst : K × Value K → K)

/-- Code of the user that runs or waits for what it called: an initializer, the callback of a `with`
and its value, or the destructor of a value. -/
inductive Frame (K : Type) where
  | initializer (key : K)
  | body (key : K) (value : Made K)
  | destructor (value : Made K)
  deriving DecidableEq

/-- What a call of `with` came to: an error, the result of its callback, or it unwound.  The last
two are errors of a suspension. -/
inductive Answer where
  | runtimeStopped
  | recursiveTaskLocal
  | capacity (limit : Nat)
  | ok
  | unwound
  | suspensionDuringPanic
  | outsideVThread
  deriving DecidableEq

/-- Where a task is: its fiber lives, and may be suspended, `clear` drops the values that it took,
or nothing is left. -/
inductive Phase (K : Type) where
  | live (suspended : Bool)
  | clearing (rest : List (Value K))
  | cleared
  | recycled
  | panicked (message : String)
  deriving DecidableEq

/-- `TaskContext`, without its policy but for `POLICY_CLOSING`, and the stack of the task.  The
values made for the task and those dropped are kept beside. -/
structure State (K : Type) [LinearOrder K] where
  capacity : Nat
  closing : Bool
  values : Values K
  frames : List (Frame K)
  phase : Phase K
  answer : Option Answer
  made : List (Made K)
  dropped : List (Made K)

namespace State

def fresh (capacity : Nat) : State K :=
  ⟨capacity, false, .empty, [], .live true, none, [], []⟩

/-- `TaskContext::close`. -/
def close (state : State K) : State K := { state with closing := true }

/-! ## Calls -/

/-- The callback of a call, with the value of its key. -/
def enter (state : State K) (key : K) (value : Made K) : State K :=
  if value.key = key then { state with frames := .body key value :: state.frames }
  else { state with phase := .panicked "typed task-local key" }

/-- `TaskLocal::with`, up to the code of the user that it runs. -/
def call (state : State K) (key : K) : State K :=
  if state.closing then { state with answer := some .runtimeStopped }
  else
    match state.values.find? key with
    | some (_, .ready value) => state.enter key value
    | some (_, .initializing) => { state with answer := some .recursiveTaskLocal }
    | none =>
        if state.capacity ≤ state.values.items.length then
          { state with answer := some (.capacity state.capacity) }
        else
          { state with
            values := state.values.insert (key, .initializing)
            frames := .initializer key :: state.frames }

/-- The values that are dropped with an entry that the map gives back. -/
def lost : Option (K × Value K) → List (Made K)
  | some (_, .ready value) => [value]
  | _ => []

/-- An initializer returned. -/
def initialized (state : State K) (key : K) (below : List (Frame K)) : State K :=
  let value : Made K := ⟨key, state.made.length⟩
  { state with
    values := state.values.insert (key, .ready value)
    frames := below
    made := value :: state.made
    dropped := lost (state.values.find? key) ++ state.dropped }.enter key value

/-- `Initializing::drop`: an initializer unwound. -/
def abandoned (state : State K) (key : K) (below : List (Frame K)) : State K :=
  { state with
    values := state.values.erase key
    frames := below
    answer := some .unwound
    dropped := lost (state.values.find? key) ++ state.dropped }

/-- A clone of a value other than the one that is let go. -/
def Holds (state : State K) (value : Made K) : Prop :=
  (∃ entry ∈ state.values.items, entry.2 = .ready value) ∨
    (∃ frame ∈ state.frames, frame = .body value.key value) ∨
      ∃ rest, state.phase = .clearing rest ∧ .ready value ∈ rest

instance (state : State K) (value : Made K) : Decidable (state.Holds value) :=
  have : Decidable (∃ rest, state.phase = .clearing rest ∧ .ready value ∈ rest) :=
    match phase : state.phase with
    | .clearing rest => decidable_of_iff (.ready value ∈ rest)
        ⟨fun member => ⟨rest, rfl, member⟩, fun ⟨_, same, member⟩ => by cases same; exact member⟩
    | .live _ | .cleared | .recycled | .panicked _ => isFalse nofun
  inferInstanceAs (Decidable (_ ∨ _ ∨ _))

/-- The destructor of a value runs when its last clone is let go. -/
def release (state : State K) (value : Made K) : State K :=
  if state.Holds value then state
  else { state with
    frames := .destructor value :: state.frames
    dropped := value :: state.dropped }

/-- The code on top of the stack returns. -/
def finish (state : State K) : Option (State K) :=
  match state.frames with
  | [] => none
  | .initializer key :: below => some (state.initialized key below)
  | .body _ value :: below =>
      some ({ state with frames := below, answer := some .ok }.release value)
  | .destructor _ :: below => some { state with frames := below }

/-- The code on top of the stack unwinds to its caller, or to `clear`, which catches it. -/
def unwind (state : State K) : Option (State K) :=
  match state.frames with
  | [] => none
  | .initializer key :: below => some (state.abandoned key below)
  | .body _ value :: below =>
      some ({ state with frames := below, answer := some .unwound }.release value)
  | .destructor _ :: below => some { state with frames := below }

/-! ## Teardown -/

/-- `TaskContext::clear` takes the values. -/
def clear (state : State K) : State K :=
  { state with
    values := .empty
    phase := .clearing (state.values.items.map Prod.snd) }

/-- `TaskCleanup::completed`. -/
def completed (state : State K) : State K :=
  if state.values.items = [] then { state.close with phase := .cleared } else state.close.clear

/-- The next value that `clear` drops. -/
def dropNext (state : State K) (rest : List (Value K)) : Value K → State K
  | .initializing => { state with phase := .clearing rest }
  | .ready value => { state with phase := .clearing rest }.release value

/-- `TaskContext::recycle`. -/
def recycle (state : State K) : State K :=
  if state.values.items = [] then { state with closing := false, phase := .recycled }
  else { state with phase := .panicked "recycled task locals" }

/-- `TaskContext::reuse`, for another task. -/
def reuse (state : State K) (capacity : Nat) : State K :=
  if state.values.items = [] then
    { state with
      capacity
      closing := false
      phase := .live true
      answer := none
      made := []
      dropped := [] }
  else { state with phase := .panicked "reused task locals" }

/-- Why a task that is closing is not suspended: `clear` runs without a fiber, and a forced unwind
panics. -/
def refusal (state : State K) : Answer :=
  match state.phase with
  | .clearing _ => .outsideVThread
  | _ => .suspensionDuringPanic

/-- Code of the user runs: the fiber, or a destructor that `clear` called. -/
def runs (state : State K) : Bool :=
  match state.phase with
  | .live suspended => !suspended
  | .clearing _ => !state.frames.isEmpty
  | _ => false

end State

/-- What happens next: the running code calls `with`, returns, unwinds or suspends; the task is
resumed, forced to unwind, or completes; what is left of it is reclaimed, once or again; the next
value is dropped; and the context goes to another task. -/
inductive Choice (K : Type) where
  | call (key : K)
  | finish
  | unwind
  | suspend
  | resume
  | force
  | complete
  | reclaimed
  | drop
  | recycle
  | reuse (capacity : Nat)
  deriving DecidableEq

def State.next (choice : Choice K) (state : State K) : Option (State K) :=
  match choice with
  | .call key => if state.runs then some (state.call key) else none
  | .finish => if state.runs then state.finish else none
  | .unwind => if state.runs then state.unwind else none
  | .suspend =>
      if state.runs then
        -- Code that caught the forced unwind is suspended only to unwind again.
        if state.closing then some { state with answer := some state.refusal }
        else some { state with phase := .live true }
      else none
  | .resume =>
      if state.phase = .live true then some { state with phase := .live false } else none
  | .force =>
      if state.phase = .live true then some { state.close with phase := .live false } else none
  | .complete =>
      if state.phase = .live false ∧ state.frames = [] ∧ state.closing = false then
        some state.completed
      else none
  | .reclaimed =>
      if (state.phase = .live false ∧ state.frames = [] ∧ state.closing = true) ∨
          state.phase = .cleared then
        some state.clear
      else none
  | .drop =>
      match state.phase, state.frames with
      | .clearing [], [] => some { state with phase := .cleared }
      | .clearing (value :: rest), [] => some (state.dropNext rest value)
      | _, _ => none
  | .recycle => if state.phase = .cleared then some state.recycle else none
  | .reuse capacity => if state.phase = .recycled then some (state.reuse capacity) else none

/-- Runs of a task with a new context, and of the tasks that take it after it. -/
def machine (K : Type) [LinearOrder K] : Machine (State K) (Choice K) where
  initial state := ∃ capacity, state = .fresh capacity
  next := State.next

end VThread.Locals

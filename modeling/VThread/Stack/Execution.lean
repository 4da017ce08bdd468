import Mathlib.Algebra.Group.Nat.Defs
import Mathlib.Logic.Function.Basic
import VThread.Lib.Transition

/-!
# Fibers and their carrier

One carrier runs user code, on its own stack or on the stack of the fiber mounted last.  That
code is arbitrary: whatever it was told, it may start, resume, extract or drop fibers, suspend
the fiber it runs on, return, or panic with any payload it can have, a forced-unwind token that it
kept among them.
-/

namespace VThread.Stack.Engine

open VThread.Lib

inductive Stage where
  | unstarted
  | suspended
  | terminal
  deriving DecidableEq, Repr

structure ParkRequest where
  wait : Nat
  generation : Nat
  deadline : Option Nat
  deriving DecidableEq, Repr

inductive Suspension where
  | yieldNow
  | park (request : ParkRequest)
  deriving DecidableEq, Repr

/-- What a panic carries: a value of the user, or a `ForcedUnwind` with its cookie. -/
inductive Payload where
  | user (value : Nat)
  | token (cookie : Nat)
  deriving DecidableEq, Repr

inductive Outcome where
  | suspended (reason : Suspension)
  | complete
  | panicked (payload : Payload)
  | unwound
  deriving DecidableEq, Repr

/-- The control block: the outcome slot, whether the entry is still there, and the cookie. -/
structure FiberCore where
  outcome : Option Outcome
  entry : Bool
  cookie : Nat
  deriving DecidableEq, Repr

def FiberCore.classify (core : FiberCore) : Payload → Outcome
  | .token cookie => if cookie = core.cookie then .unwound else .panicked (.token cookie)
  | .user value => .panicked (.user value)

/-- Who has an execution: nobody borrows it, a call of `resume` does, its drop unwinds it, its drop
runs the destructor of its entry on the stack of a host (the carrier's own is `none`), or it was
consumed. -/
inductive Mode where
  | idle
  | resuming
  | unwinding
  | dropping (host : Option Nat)
  | gone
  deriving DecidableEq, Repr

/-- An execution and its control block.  The entries whose destructors run on its stack, and how
often its own entry was called and dropped, are kept beside. -/
structure Execution where
  core : FiberCore
  stack : Bool
  stage : Stage
  mode : Mode
  drops : List Nat
  called : Nat
  dropped : Nat
  deriving DecidableEq

namespace Execution

def new (cookie : Nat) : Execution :=
  ⟨⟨none, true, cookie⟩, true, .unstarted, .idle, [], 0, 0⟩

def report (outcome : Outcome) (execution : Execution) : Execution :=
  { execution with core := { execution.core with outcome := some outcome } }

def takeOutcome (execution : Execution) : Execution :=
  { execution with core := { execution.core with outcome := none } }

/-- `take_entry`, and what becomes of the entry. -/
def takeEntry (call : Bool) (execution : Execution) : Execution :=
  if execution.core.entry then
    { execution with
      core := { execution.core with entry := false }
      called := execution.called + if call then 1 else 0
      dropped := execution.dropped + if call then 0 else 1 }
  else execution

/-- The stack leaves the execution. -/
def release (execution : Execution) : Execution := { execution with stack := false, mode := .gone }

def terminate (execution : Execution) : Execution := { execution with stage := .terminal }

end Execution

/-! ## Cookies -/

/-- `1 << COOKIE_BLOCK_BITS`. -/
def blockSize : Nat := 2 ^ 32

/-- The values of a `u64`. -/
def words : Nat := 2 ^ 64

/-- `NEXT_COOKIE` of the carrier, and `NEXT_BLOCK`. -/
structure Cookies where
  next : Nat
  block : Nat
  deriving DecidableEq

/-- The claim of a block: the update fails when the blocks are exhausted. -/
def Cookies.claimBlock (cookies : Cookies) : Option (Nat × Cookies) :=
  if cookies.block ≤ (words - 1) / blockSize then
    some (cookies.block, { cookies with block := cookies.block + 1 })
  else none

/-- `allocate_cookie`. -/
def Cookies.allocate (cookies : Cookies) : Option (Nat × Cookies) :=
  if cookies.next % blockSize = 0 then
    cookies.claimBlock.map fun (block, cookies) =>
      let cookie := block * blockSize % words
      (cookie, { cookies with next := (cookie + 1) % words })
  else some (cookies.next, { cookies with next := (cookies.next + 1) % words })

/-! ## The carrier -/

/-- The fibers of a carrier, those mounted over one another, and the entries whose destructors run
on its own stack.  The tokens that were made are kept, with the cookie blocks of other carriers,
whose tokens may come over. -/
structure Carrier where
  executions : Nat → Execution
  started : Nat
  mounted : List Nat
  drops : List Nat
  tokens : List Nat
  cookies : Cookies
  foreign : List Nat
  /-- `take_outcome` found no outcome. -/
  missing : Bool
  /-- `resume` reached its unreachable branch. -/
  unreachable : Bool

inductive Choice where
  /-- `fits` tells whether the entry fits on the stack. -/
  | start (fits : Bool)
  | resume (id : Nat) (interrupt : Bool)
  | intoStack (id : Nat)
  | drop (id : Nat)
  | suspend (reason : Suspension)
  | returns
  | panics (payload : Payload)
  /-- Another carrier claims a block. -/
  | claimBlock
  /-- A token of another carrier comes over. -/
  | receive (cookie : Nat)
  deriving DecidableEq

namespace Carrier

variable (carrier : Carrier)

def new : Carrier := ⟨fun _ => .new 0, 0, [], [], [], ⟨0, 1⟩, [], false, false⟩

def modify (id : Nat) (change : Execution → Execution) : Carrier :=
  { carrier with
    executions := Function.update carrier.executions id (change (carrier.executions id)) }

/-- The fiber on whose stack code runs. -/
def host : Option Nat := carrier.mounted.head?

/-- The destructors that run on a stack. -/
def dropsOn : Option Nat → List Nat
  | none => carrier.drops
  | some id => (carrier.executions id).drops

def setDrops (host : Option Nat) (drops : List Nat) : Carrier :=
  match host with
  | none => { carrier with drops }
  | some id => carrier.modify id fun execution => { execution with drops }

/-- `COMMAND_FORCE_UNWIND`: the suspended code gets a token. -/
def inject (id : Nat) : Carrier :=
  { carrier with tokens := (carrier.executions id).core.cookie :: carrier.tokens }

def unmount : Carrier := { carrier with mounted := carrier.mounted.tail }

def setMode (id : Nat) (mode : Mode) : Carrier :=
  carrier.modify id fun execution => { execution with mode }

/-- The rest of `resume` after the transfer. -/
def resumed (id : Nat) (yielded : Bool) : Carrier :=
  let back := carrier.unmount.setMode id .idle
  if yielded then back
  else match (carrier.executions id).core.outcome with
    | none => { back with missing := true }
    | some outcome =>
        let back := back.modify id .takeOutcome
        match outcome with
        | .suspended _ => back
        | .complete => back.modify id .terminate
        | .panicked _ => back.modify id .terminate
        | .unwound => { back with unreachable := true }

/-- The rest of one round of `force_unwind`, and of the drop when it was the last. -/
def unwound (id : Nat) (yielded : Bool) : Carrier :=
  if yielded then carrier.inject id
  else match (carrier.executions id).core.outcome with
    | none => { carrier.unmount.modify id .release with missing := true }
    | some outcome =>
        let taken := carrier.modify id .takeOutcome
        match outcome with
        | .suspended _ => taken.inject id
        | _ => taken.unmount.modify id fun execution => execution.terminate.release

/-- Control goes back to whoever mounted a fiber. -/
def transferBack (id : Nat) (yielded : Bool) : Option Carrier :=
  match (carrier.executions id).mode with
  | .resuming => some (carrier.resumed id yielded)
  | .unwinding => some (carrier.unwound id yielded)
  | _ => none

def start (fits : Bool) : Carrier :=
  if fits then
    match carrier.cookies.allocate with
    | none => carrier
    | some (cookie, cookies) =>
        { carrier with
          executions := Function.update carrier.executions carrier.started (.new cookie)
          started := carrier.started + 1
          cookies }
  else carrier

/-- `resume`, up to the transfer; the root of an unstarted fiber calls its entry. -/
def resume (id : Nat) : Carrier :=
  if (carrier.executions id).stage = .terminal then carrier
  else
    { carrier.modify id (fun execution =>
        { execution.takeEntry true with stage := .suspended, mode := .resuming }) with
      mounted := id :: carrier.mounted }

/-- The drop of an execution, up to the first user code; `force_unwind` drops the entry of an
unstarted fiber on the caller's stack. -/
def drop (id : Nat) : Carrier :=
  match (carrier.executions id).stage with
  | .terminal => carrier.modify id .release
  | .unstarted =>
      (carrier.modify id fun execution =>
        { execution.takeEntry false with mode := .dropping carrier.host }).setDrops carrier.host
          (id :: carrier.dropsOn carrier.host)
  | .suspended =>
      { (carrier.setMode id .unwinding).inject id with mounted := id :: carrier.mounted }

/-- `into_stack`; its assertion drops an execution that is not terminal. -/
def intoStack (id : Nat) : Carrier :=
  if (carrier.executions id).stage = .terminal then carrier.modify id .release
  else carrier.drop id

def suspend (reason : Suspension) : Option Carrier :=
  match carrier.host with
  | none => none
  | some id =>
      if reason = .yieldNow then carrier.transferBack id true
      else (carrier.modify id (.report (.suspended reason))).transferBack id false

/-- Code returns: the destructor of an entry, or the root of a fiber. -/
def returns : Option Carrier :=
  match carrier.dropsOn carrier.host with
  | id :: rest =>
      some ((carrier.modify id fun execution => execution.terminate.release).setDrops carrier.host
        rest)
  | [] =>
      match carrier.host with
      | none => none
      | some id => (carrier.modify id (.report .complete)).transferBack id false

/-- Code panics.  A destructor that unwinds leaves `force_unwind` before the stage is set. -/
def panics (payload : Payload) : Option Carrier :=
  match carrier.dropsOn carrier.host with
  | id :: rest => some ((carrier.modify id .release).setDrops carrier.host rest)
  | [] =>
      match carrier.host with
      | none => none
      | some id =>
          (carrier.modify id
            (.report ((carrier.executions id).core.classify payload))).transferBack id false

/-- A payload that code can have. -/
def Has : Payload → Prop
  | .user _ => True
  | .token cookie => cookie ∈ carrier.tokens

instance (payload : Payload) : Decidable (carrier.Has payload) := by
  unfold Has
  cases payload <;> infer_instance

/-- An execution that may be borrowed or consumed. -/
def Free (id : Nat) : Prop := id < carrier.started ∧ (carrier.executions id).mode = .idle

instance (id : Nat) : Decidable (carrier.Free id) := by
  unfold Free
  infer_instance

def next : Choice → Option Carrier
  | .start fits => some (carrier.start fits)
  | .resume id _ => if carrier.Free id then some (carrier.resume id) else none
  | .intoStack id => if carrier.Free id then some (carrier.intoStack id) else none
  | .drop id => if carrier.Free id then some (carrier.drop id) else none
  | .suspend reason => carrier.suspend reason
  | .returns => carrier.returns
  | .panics payload => if carrier.Has payload then carrier.panics payload else none
  | .claimBlock => carrier.cookies.claimBlock.map fun (block, cookies) =>
      { carrier with cookies, foreign := block :: carrier.foreign }
  | .receive cookie =>
      if cookie / blockSize ∈ carrier.foreign then
        some { carrier with tokens := cookie :: carrier.tokens }
      else none

end Carrier

def machine : Machine Carrier Choice where
  initial carrier := carrier = .new
  next choice carrier := carrier.next choice

end VThread.Stack.Engine

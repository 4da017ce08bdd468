import Mathlib.Logic.Function.Basic
import VThread.Lib.Transition
import VThread.Wait.Word

/-!
# Wait cells

The concurrent operations of one wait cell.  A thread runs one call at a time; every
atomic load, store and compare-exchange and every section under the fallback lock is one
step.  Threads, task identities, routes and hubs are arbitrary.

Next to the cell, the model keeps a history of every generation: who claimed it, which
notices were handed over, what was published, completed and finished.  No step reads it.
-/

namespace VThread.Wait

open VThread.Lib

/-- `ParkToken`. -/
structure ParkToken where
  wait : Nat
  generation : Nat
  deriving DecidableEq, Repr

/-- What a generation is bound to. -/
structure Target (τ ρ η : Type) where
  task : τ
  route : ρ
  hub : η
  deriving DecidableEq

structure WakeNotice (τ ρ : Type) where
  token : ParkToken
  task : τ
  route : ρ
  cause : WakeCause
  deriving DecidableEq

/-- `WaitInner`.  An absent task or route is the encoded zero. -/
structure Cell (τ ρ η : Type) where
  id : Nat
  state : WaitWord
  task : Option τ
  route : Option ρ
  primaryHub : Option η
  fallbackHub : Option η

/-- Calls.  `select` is `select_ready`, `select_closed`, `select_cancelled` or
`select_timeout` of a registration whose cell is alive; `offer` is `offer_resource`, or
`reserve_resource` up to the publication by its guard; `retire` is the retirement of
`rollback`, `tryRetire` the one of `try_abandon` and `try_rollback`. -/
inductive Op (τ ρ η : Type) where
  | begin (target : Target τ ρ η)
  | notify
  | cancel
  | close
  | select (token : ParkToken) (cause : WakeCause)
  | offer (selection : ResourceSelection)
  | take
  | finish (token : ParkToken)
  | finishPlainReady (token : ParkToken)
  | finishPermitReady (token : ParkToken)
  | publication (token : ParkToken)
  | retire (token : ParkToken)
  | tryRetire (token : ParkToken)
  | recycle
  | resetClosedGate

/-- What a call returns. -/
inductive Outcome (η : Type) where
  | parkerBusy
  | immediate (cause : WakeCause)
  | exhausted
  | park (token : ParkToken)
  | woke
  | stored
  | closed
  | flag (value : Bool)
  | resource (taken : Option ResourceSelection)
  | resumed (cause : WakeCause)
  | generationChanged
  | notSelected
  | published
  | inFlight
  | stale
  | retired (hub : Option η)
  | deferred

/-- What a successful compare-exchange means. -/
inductive Won (τ ρ η : Type) where
  | adjust (outcome : Outcome η)
  | activate (target : Target τ ρ η)
  | bind (target : Target τ ρ η)
  | claim (cause : WakeCause) (carrier : Bool) (outcome : Outcome η)
  | interest (outcome : Outcome η)
  | finish (cause : WakeCause)
  | retire (hub : η)

/-- What a call does with the word it has observed. -/
inductive Attempt (τ ρ η : Type) where
  | reload
  | give (outcome : Outcome η)
  | exchange (next : WaitWord) (won : Won τ ρ η)
  | lookup (target : Target τ ρ η)
  | cloneHub
  | panic (message : String)

/-- Why a call reads the target. -/
inductive Use (η : Type) where
  | enqueue (cause : WakeCause) (carrier : Bool) (outcome : Outcome η)
  | complete (outcome : Outcome η)
  | clone

/-- Where a running call stands, before its next atomic step. -/
inductive Stage (τ ρ η : Type) where
  | load
  | exchange (expected next : WaitWord) (won : Won τ ρ η)
  | cachedTask (target : Target τ ρ η) (word : WaitWord)
  | cachedRoute (target : Target τ ρ η) (word : WaitWord)
  | cachedPrimary (target : Target τ ρ η) (word : WaitWord)
  | cachedFallback (target : Target τ ρ η) (word : WaitWord)
  | bindTask (target : Target τ ρ η) (word : WaitWord)
  | bindRoute (target : Target τ ρ η) (word : WaitWord)
  | bindPeek (target : Target τ ρ η) (word : WaitWord)
  | bindSet (target : Target τ ρ η) (word : WaitWord)
  | bindGet (target : Target τ ρ η) (word : WaitWord)
  | bindFallback (target : Target τ ρ η) (word : WaitWord)
  | bindStore (target : Target τ ρ η) (word : WaitWord) (fallback : Bool)
  | readTask (use : Use η) (word : WaitWord)
  | readRoute (use : Use η) (word : WaitWord) (task : τ)
  | readHub (use : Use η) (word : WaitWord) (task : τ) (route : ρ)
  | hand (cause : WakeCause) (carrier : Bool) (outcome : Outcome η) (word : WaitWord)
      (target : Target τ ρ η)
  | publish (outcome : Outcome η) (word : WaitWord)
  | republish (outcome : Outcome η) (observed : WaitWord) (hub : η)
  | complete (outcome : Outcome η) (generation : Nat) (hub : η)

/-- A thread rests after its last call, runs a call, or has panicked. -/
inductive Pc (τ ρ η : Type) where
  | rest (last : Option (Op τ ρ η × Outcome η))
  | run (op : Op τ ρ η) (stage : Stage τ ρ η)
  | panicked (message : String)

/-- A notice given to `hub`, or to the carrier's own queue in its place. -/
structure Handed (ι τ ρ η : Type) where
  thread : ι
  carrier : Bool
  hub : η
  notice : WakeNotice τ ρ

/-- What happened to one generation. -/
structure Record (ι τ ρ η : Type) where
  target : Option (Target τ ρ η)
  binder : Option ι
  claims : List (ι × WakeCause)
  handed : List (Handed ι τ ρ η)
  published : List (ι × Option WakeCause)
  interest : Bool
  completed : List (ι × η)
  finishes : List WakeCause
  retired : Bool
  lateReads : Nat

def Record.empty {ι τ ρ η : Type} : Record ι τ ρ η :=
  ⟨none, none, [], [], [], false, [], [], false, 0⟩

/-- The cell and its history: the newest generation whose token was returned, and whether
a permit is stored. -/
structure Shared (ι τ ρ η : Type) where
  cell : Cell τ ρ η
  history : Nat → Record ι τ ρ η
  issued : Nat
  storedPermit : Bool

variable {ι τ ρ η : Type}

/-! ## Decisions on an observed word -/

section Decide

/-- `next_generation`. -/
def nextGeneration (word : WaitWord) : Option Nat :=
  if word.generation + 1 ≤ maxGeneration then some (word.generation + 1) else none

/-- `begin_resident`, up to the target lookup. -/
def beginResident (target : Target τ ρ η) (expired : Bool) (word : WaitWord) :
    Attempt τ ρ η :=
  if word.phase ≠ .idle then .give .parkerBusy
  else if word.closed then .give (.immediate .closed)
  else if word.permit then
    .exchange (word.withPermit false) (.adjust (.immediate .ready))
  else if expired then .give (.immediate .timedOut)
  else match nextGeneration word with
    | none => .give .exhausted
    | some _ => .lookup target

def notify (word : WaitWord) : Attempt τ ρ η :=
  if word.phase = .binding then .reload
  else if word.closed then .give .closed
  else if word.phase = .active then
    .exchange (word.claimed .ready) (.claim .ready true .woke)
  else if word.isClaimed then .reload
  else .exchange (word.withPermit true) (.adjust .stored)

/-- `select_current`. -/
def selectCurrent (cause : WakeCause) (word : WaitWord) : Attempt τ ρ η :=
  if word.phase = .binding then .reload
  else if word.phase ≠ .active then .give (.flag false)
  else .exchange (word.claimed cause) (.claim cause false (.flag true))

def selectGeneration (token : ParkToken) (cause : WakeCause) (word : WaitWord) :
    Attempt τ ρ η :=
  if word.phase = .binding then .reload
  else if word.phase = .idle then .give (.flag false)
  else if word.generation ≠ token.generation then .give (.flag false)
  else if word.phase ≠ .active then .give (.flag false)
  else .exchange (word.claimed cause) (.claim cause false (.flag true))

def close (word : WaitWord) : Attempt τ ρ η :=
  if word.phase = .binding ∨ word.isClaimed then .reload
  else if word.closed then .give (.flag false)
  else
    let next := (word.withClosed true).withPermit false
    if word.phase = .active then
      .exchange (next.claimed .closed) (.claim .closed false (.flag true))
    else .exchange next (.adjust (.flag true))

/-- `claim_resource`. -/
def claimResource (selection : ResourceSelection) (word : WaitWord) : Attempt τ ρ η :=
  if word.phase = .binding then .reload
  else match word.resourceOffer selection with
    | none => .give (.flag false)
    | some next =>
        if word.phase = .active then .exchange next (.claim .ready true (.flag true))
        else .exchange next (.adjust (.flag true))

/-- `try_take_resource`. -/
def tryTakeResource (word : WaitWord) : Attempt τ ρ η :=
  match word.resource with
  | none => .give (.resource none)
  | some _ =>
      match word.resourceTake with
      | none => .reload
      | some (next, resource) => .exchange next (.adjust (.resource (some resource)))

/-- `finish_slow`, and `finish_permit_slow` when the permit is consumed with the wake. -/
def finishSlow (takePermit : Bool) (token : ParkToken) (word : WaitWord) :
    Attempt τ ρ η :=
  if word.generation ≠ token.generation then .give .generationChanged
  else if word.isClaimed ∨ word.phase = .binding then .reload
  else match word.selectedCause with
    | none => .give .notSelected
    | some cause =>
        .exchange (if takePermit ∧ cause = .ready then (word.withResource none).retire
          else word.retire) (.finish cause)

/-- `publication`, with `request_completion`. -/
def publication (token : ParkToken) (word : WaitWord) : Attempt τ ρ η :=
  if word.generation ≠ token.generation then .give .stale
  else if word.selectedCause.isSome then .give .published
  else if ¬ word.isClaimed then .give .stale
  else if word.permit then .give .inFlight
  else .exchange (word.withPermit true) (.interest .inFlight)

/-- The retirement of `rollback`. -/
def retireWait (token : ParkToken) (word : WaitWord) : Attempt τ ρ η :=
  if word.generation ≠ token.generation ∨ word.phase = .idle then .give (.retired none)
  else if word.isClaimed ∨ word.phase = .binding then .reload
  else .cloneHub

/-- `try_retire`, with `request_completion`. -/
def tryRetire (token : ParkToken) (word : WaitWord) : Attempt τ ρ η :=
  if word.generation ≠ token.generation ∨ word.phase = .idle then .give (.retired none)
  else if word.phase = .binding then .panic "owner retirement preceded binding"
  else if word.isClaimed then
    if word.permit then .give .deferred
    else .exchange (word.withPermit true) (.interest .deferred)
  else .cloneHub

def recycle (word : WaitWord) : Attempt τ ρ η :=
  if word.phase ≠ .idle ∨ word.closed then .give (.flag false)
  else if ¬ word.needsRecycle then .give (.flag true)
  else .exchange ((word.withPermit false).withResource none) (.adjust (.flag true))

def resetClosedGate (word : WaitWord) : Attempt τ ρ η :=
  if word.phase ≠ .idle then .give (.flag false)
  else if ¬ word.closed then .give (.flag true)
  else .exchange (word.withClosed false) (.adjust (.flag true))

end Decide

namespace Op

/-- The decision of a call on a word it has observed. -/
def attempt (op : Op τ ρ η) (expired : Bool) (word : WaitWord) : Attempt τ ρ η :=
  match op with
  | .begin target => beginResident target expired word
  | .notify => Wait.notify word
  | .cancel => selectCurrent .cancelled word
  | .close => Wait.close word
  | .select token cause => selectGeneration token cause word
  | .offer selection => claimResource selection word
  | .take => tryTakeResource word
  | .finish token => finishSlow false token word
  | .finishPlainReady token => finishSlow false token word
  | .finishPermitReady token => finishSlow true token word
  | .publication token => Wait.publication token word
  | .retire token => retireWait token word
  | .tryRetire token => Wait.tryRetire token word
  | .recycle => Wait.recycle word
  | .resetClosedGate => Wait.resetClosedGate word

/-- Calls that use the word a failed compare-exchange observed; the others load again. -/
def keepsObserved : Op τ ρ η → Bool
  | .begin _ | .notify | .cancel | .close | .select _ _ | .offer _ | .recycle
  | .resetClosedGate => true
  | .take | .finish _ | .finishPlainReady _ | .finishPermitReady _ | .publication _
  | .retire _ | .tryRetire _ => false

/-- The token a call was given. -/
def token? : Op τ ρ η → Option ParkToken
  | .select token _ | .finish token | .finishPlainReady token | .finishPermitReady token
  | .publication token | .retire token | .tryRetire token => some token
  | _ => none

/-- The answer to a token of another cell. -/
def foreign : Op τ ρ η → Outcome η
  | .select _ _ => .flag false
  | .publication _ => .stale
  | .retire _ | .tryRetire _ => .retired none
  | _ => .generationChanged

/-- Owner calls, whose token was returned by a begin. -/
def isOwner : Op τ ρ η → Bool
  | .finish _ | .finishPlainReady _ | .finishPermitReady _ | .publication _ | .retire _
  | .tryRetire _ => true
  | _ => false

/-- The word a fast finish expects. -/
def selectedReady (token : ParkToken) (resource : Option ResourceSelection) : WaitWord :=
  ((WaitWord.initial.withGeneration token.generation).withResource resource).withPhase
    (.selected .ready)

/-- Where a call of this cell's own starts. -/
def start : Op τ ρ η → Stage τ ρ η
  | .finishPlainReady token =>
      let selected := selectedReady token none
      .exchange selected selected.retire (.finish .ready)
  | .finishPermitReady token =>
      let selected := selectedReady token (some .permit)
      .exchange selected (selected.withResource none).retire (.finish .ready)
  | _ => .load

end Op

/-- Follow a decision on `word`. -/
def settle (op : Op τ ρ η) (word : WaitWord) : Attempt τ ρ η → Pc τ ρ η
  | .reload => .run op .load
  | .give outcome => .rest (some (op, outcome))
  | .exchange next won => .run op (.exchange word next won)
  | .lookup target => .run op (.cachedTask target word)
  | .cloneHub => .run op (.readTask .clone word)
  | .panic message => .panicked message

/-! ## Steps -/

/-- Free choices of a step: the call to make, whether a deadline has passed, and whether
the notice goes to the carrier's own queue. -/
structure Choice (τ ρ η : Type) where
  op : Op τ ρ η
  expired : Bool
  accepted : Bool

namespace Shared

variable [DecidableEq τ] [DecidableEq ρ] [DecidableEq η]

def setState (shared : Shared ι τ ρ η) (state : WaitWord) : Shared ι τ ρ η :=
  { shared with cell := { shared.cell with state } }

/-- Note an event of one generation. -/
def note (shared : Shared ι τ ρ η) (generation : Nat)
    (event : Record ι τ ρ η → Record ι τ ρ η) : Shared ι τ ρ η :=
  { shared with
    history := Function.update shared.history generation (event (shared.history generation)) }

/-- A successful compare-exchange to `next`. -/
def commit (thread : ι) (shared : Shared ι τ ρ η) (next : WaitWord) :
    Won τ ρ η → Shared ι τ ρ η
  | .adjust _ => { shared.setState next with storedPermit := next.permit }
  | .activate target =>
      { (shared.setState next).note next.generation fun record =>
          { record with target := some target } with issued := next.generation }
  | .bind target => (shared.setState next).note next.generation fun record =>
      { record with target := some target, binder := some thread }
  | .claim cause _ _ => (shared.setState next).note next.generation fun record =>
      { record with claims := (thread, cause) :: record.claims }
  | .interest _ => (shared.setState next).note next.generation fun record =>
      { record with interest := true }
  | .finish cause => (shared.setState next).note next.generation fun record =>
      { record with finishes := cause :: record.finishes, retired := true }
  | .retire _ => (shared.setState next).note next.generation fun record =>
      { record with retired := true }

/-- A read of the target for a generation, counted when it comes after the publication
of that generation by the same thread. -/
def noteRead (thread : ι) [DecidableEq ι] (shared : Shared ι τ ρ η) (use : Use η)
    (generation : Nat) : Shared ι τ ρ η :=
  match use with
  | .clone => shared
  | _ => shared.note generation fun record =>
      { record with lateReads := record.lateReads +
          (record.published.filter fun entry => entry.1 = thread).length }

end Shared

/-- Where a call continues after a successful compare-exchange to `next`. -/
def continueWith (id : Nat) (op : Op τ ρ η) (next : WaitWord) : Won τ ρ η → Pc τ ρ η
  | .adjust outcome => .rest (some (op, outcome))
  | .activate _ => .rest (some (op, .park ⟨id, next.generation⟩))
  | .bind target => .run op (.bindTask target next)
  | .claim cause route outcome => .run op (.readTask (.enqueue cause route outcome) next)
  | .interest outcome => .rest (some (op, outcome))
  | .finish cause => .rest (some (op, .resumed cause))
  | .retire hub => .rest (some (op, .retired (some hub)))

section Advance

variable [DecidableEq ι] [DecidableEq τ] [DecidableEq ρ] [DecidableEq η]

/-- The hub of a generation that used `word`: the cached fallback under its lock, or the
primary hub. -/
def Cell.hubFor (cell : Cell τ ρ η) (word : WaitWord) : Checked η :=
  if word.fallbackHub then expect cell.fallbackHub "published fallback wait hub"
  else expect cell.primaryHub "published primary wait hub"

/-- Activation with the cached target, or binding of a new one; the next generation was
checked when `word` was observed. -/
def activation (op : Op τ ρ η) (target : Target τ ρ η) (word : WaitWord)
    (cached : Option Bool) : Pc τ ρ η :=
  let advanced := word.withGeneration (word.generation + 1)
  match cached with
  | some fallback => .run op (.exchange word
      ((advanced.withFallbackHub fallback).withPhase .active) (.activate target))
  | none => .run op (.exchange word (advanced.withPhase .binding) (.bind target))

/-- The notice for a claimed generation. -/
def Target.notice (target : Target τ ρ η) (id generation : Nat) (cause : WakeCause) :
    WakeNotice τ ρ :=
  ⟨⟨id, generation⟩, target.task, target.route, cause⟩

/-- Hand the notice of a claim to the carrier's own queue or to the hub. -/
def Shared.handNotice (thread : ι) (shared : Shared ι τ ρ η) (cause : WakeCause)
    (carrier : Bool) (word : WaitWord) (target : Target τ ρ η) : Shared ι τ ρ η :=
  shared.note word.generation fun record =>
    { record with handed :=
        ⟨thread, carrier, target.hub, target.notice shared.cell.id word.generation cause⟩ ::
          record.handed }

/-- One atomic step of a running call. -/
def advanceStage (thread : ι) (choice : Choice τ ρ η) (shared : Shared ι τ ρ η)
    (op : Op τ ρ η) : Stage τ ρ η → Shared ι τ ρ η × Pc τ ρ η
  | .load =>
      (shared, settle op shared.cell.state (op.attempt choice.expired shared.cell.state))
  | .exchange expected next won =>
      if shared.cell.state = expected then
        (shared.commit thread next won, continueWith shared.cell.id op next won)
      else if op.keepsObserved then
        (shared, settle op shared.cell.state (op.attempt choice.expired shared.cell.state))
      else (shared, .run op .load)
  -- `cached_target`
  | .cachedTask target word =>
      if shared.cell.task = some target.task then (shared, .run op (.cachedRoute target word))
      else (shared, activation op target word none)
  | .cachedRoute target word =>
      if shared.cell.route = some target.route then
        (shared, .run op (.cachedPrimary target word))
      else (shared, activation op target word none)
  | .cachedPrimary target word =>
      match shared.cell.primaryHub with
      | none => (shared, activation op target word none)
      | some primary =>
          if primary = target.hub then (shared, activation op target word (some false))
          else (shared, .run op (.cachedFallback target word))
  | .cachedFallback target word =>
      if shared.cell.fallbackHub = some target.hub then
        (shared, activation op target word (some true))
      else (shared, activation op target word none)
  -- `bind_target`
  | .bindTask target word =>
      ({ shared with cell := { shared.cell with task := some target.task } },
        .run op (.bindRoute target word))
  | .bindRoute target word =>
      ({ shared with cell := { shared.cell with route := some target.route } },
        .run op (.bindPeek target word))
  | .bindPeek target word =>
      match shared.cell.primaryHub with
      | none => (shared, .run op (.bindSet target word))
      | some _ => (shared, .run op (.bindGet target word))
  | .bindSet target word =>
      ({ shared with cell := { shared.cell with
          primaryHub := shared.cell.primaryHub.or (some target.hub) } },
        .run op (.bindGet target word))
  | .bindGet target word =>
      match shared.cell.primaryHub with
      | none => (shared, .panicked "initialized primary wait hub")
      | some primary =>
          if primary = target.hub then (shared, .run op (.bindStore target word false))
          else (shared, .run op (.bindFallback target word))
  | .bindFallback target word =>
      ({ shared with cell := { shared.cell with fallbackHub := some target.hub } },
        .run op (.bindStore target word true))
  | .bindStore _ word fallback =>
      ({ shared.setState ((word.withFallbackHub fallback).withPhase .active) with
          issued := word.generation },
        .rest (some (op, .park ⟨shared.cell.id, word.generation⟩)))
  -- `with_target`
  | .readTask use word =>
      (shared.noteRead thread use word.generation,
        match shared.cell.task with
        | none => .panicked "task identity zero is reserved"
        | some task => .run op (.readRoute use word task))
  | .readRoute use word task =>
      (shared.noteRead thread use word.generation,
        match shared.cell.route with
        | none => .panicked "encoded task key is nonzero"
        | some route => .run op (.readHub use word task route))
  | .readHub use word task route =>
      let read := shared.noteRead thread use word.generation
      match shared.cell.hubFor word with
      | .error message => (read, .panicked message)
      | .ok hub =>
          match use with
          | .enqueue cause carrier outcome =>
              -- The lock of a fallback hub spans the hand-over of the notice.
              if word.fallbackHub then
                (read.handNotice thread cause (carrier && choice.accepted) word
                  ⟨task, route, hub⟩, .run op (.publish outcome word))
              else (read, .run op (.hand cause carrier outcome word ⟨task, route, hub⟩))
          | .complete outcome => (read, .run op (.republish outcome word hub))
          | .clone => (read, .run op (.exchange word word.retire (.retire hub)))
  | .hand cause carrier outcome word target =>
      (shared.handNotice thread cause (carrier && choice.accepted) word target,
        .run op (.publish outcome word))
  -- `publish_claim`
  | .publish outcome word =>
      match word.publishClaim with
      | .error message => (shared, .panicked message)
      | .ok next =>
          if shared.cell.state = word then
            ((shared.setState next).note word.generation fun record =>
                { record with published := (thread, next.selectedCause) :: record.published },
              .rest (some (op, outcome)))
          else if shared.cell.state.withPermit false ≠ word then
            (shared, .panicked "only owner interest may change a claim")
          else if ¬ shared.cell.state.permit then
            (shared, .panicked "publication CAS failed without owner interest")
          else (shared, .run op (.readTask (.complete outcome) shared.cell.state))
  | .republish outcome observed hub =>
      match observed.publishClaim with
      | .error message => (shared, .panicked message)
      | .ok next =>
          if shared.cell.state = observed then
            ((shared.setState (next.withPermit false)).note observed.generation fun record =>
                { record with published := (thread, next.selectedCause) :: record.published },
              .run op (.complete outcome observed.generation hub))
          else (shared, .panicked "assertion failed: self.compare_exchange(..).is_ok()")
  | .complete outcome generation hub =>
      (shared.note generation fun record =>
          { record with completed := (thread, hub) :: record.completed },
        .rest (some (op, outcome)))

/-- A token-carrying call of an owner carries a token that a begin returned. -/
def Shared.Permits (shared : Shared ι τ ρ η) (op : Op τ ρ η) : Prop :=
  op.isOwner → ∀ token ∈ op.token?, token.wait = shared.cell.id →
    token.generation ≤ shared.issued

/-- A call whose token belongs to another cell ends at once. -/
def Op.call (id : Nat) (op : Op τ ρ η) : Pc τ ρ η :=
  if ∀ token ∈ op.token?, token.wait = id then .run op op.start
  else .rest (some (op, op.foreign))

/-- An atomic step of a thread: it makes a call or continues the one it runs. -/
def Advance (thread : ι) (shared : Shared ι τ ρ η) (pc : Pc τ ρ η)
    (shared' : Shared ι τ ρ η) (pc' : Pc τ ρ η) : Prop :=
  ∃ choice : Choice τ ρ η, match pc with
    | .rest _ =>
        shared.Permits choice.op ∧ shared' = shared ∧ pc' = choice.op.call shared.cell.id
    | .run op stage => (shared', pc') = advanceStage thread choice shared op stage
    | .panicked _ => False

/-- A new cell. -/
def Shared.initial (id : Nat) : Shared ι τ ρ η :=
  ⟨⟨id, .initial, none, none, none, none⟩, fun _ => .empty, 0, false⟩

/-- All threads over one wait cell. -/
def program : Program ι (Shared ι τ ρ η) (Pc τ ρ η) where
  initial shared := ∃ id, shared = .initial id
  start := .rest none
  advance := Advance

end Advance

end VThread.Wait

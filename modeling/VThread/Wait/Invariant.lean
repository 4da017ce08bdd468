import VThread.Wait.Cell

/-!
# The invariant of a wait cell

The shared invariant says what the history of each generation may look like in each
phase.  The local invariant ties the stage of a thread to the word it has observed, and
makes the winner of a generation owe its notice, its publication and its completion
signal.
-/

namespace VThread.Wait

open VThread.Lib

variable {ι τ ρ η : Type}

/-! ## Records -/

namespace Record

/-- Nobody has claimed the generation. -/
structure Untouched (record : Record ι τ ρ η) : Prop where
  claims : record.claims = []
  handed : record.handed = []
  published : record.published = []
  interest : record.interest = false
  completed : record.completed = []
  finishes : record.finishes = []
  lateReads : record.lateReads = 0

/-- Exactly the notice of the winner was handed to the hub of the target. -/
def Delivered (id generation : Nat) (record : Record ι τ ρ η) (thread : ι)
    (cause : WakeCause) : Prop :=
  ∃ target carrier, record.target = some target ∧ record.handed =
    [⟨thread, carrier, target.hub, target.notice id generation cause⟩]

/-- The generation was claimed and published by one thread. -/
structure Won (id generation : Nat) (record : Record ι τ ρ η) (thread : ι)
    (cause : WakeCause) : Prop where
  claims : record.claims = [(thread, cause)]
  published : record.published = [(thread, some cause)]
  delivered : record.Delivered id generation thread cause
  completed : record.completed = [] ∨ record.interest = true ∧
    ∃ target, record.target = some target ∧ record.completed = [(thread, target.hub)]
  finishes : record.finishes = [] ∨ record.finishes = [cause]
  lateReads : record.lateReads = 0

/-- A generation that has ended, or none at all. -/
def Over (id generation : Nat) (record : Record ι τ ρ η) : Prop :=
  (0 < generation → record.retired = true) ∧
    (record.Untouched ∨ ∃ thread cause, record.Won id generation thread cause)

/-- The record of the current generation in each phase. -/
def Current (id : Nat) (word : WaitWord) (record : Record ι τ ρ η) : Prop :=
  match word.phase with
  | .idle => record.Over id word.generation
  | .binding | .active => record.Untouched ∧ record.retired = false
  | .claim cause => ∃ thread, record.claims = [(thread, cause)] ∧ record.published = [] ∧
      record.completed = [] ∧ record.finishes = [] ∧ record.retired = false ∧
      record.lateReads = 0
  | .selected cause => ∃ thread, record.Won id word.generation thread cause ∧
      record.finishes = [] ∧ record.retired = false

end Record

/-! ## The shared invariant -/

/-- The target fields of the cell, as a word with this fallback bit reads them. -/
def Cell.Holds (cell : Cell τ ρ η) (target : Target τ ρ η) (fallback : Bool) : Prop :=
  cell.task = some target.task ∧ cell.route = some target.route ∧
    (if fallback then cell.fallbackHub else cell.primaryHub) = some target.hub

namespace Shared

/-- The record of the current generation. -/
abbrev now (shared : Shared ι τ ρ η) : Record ι τ ρ η :=
  shared.history shared.cell.state.generation

structure Inv (shared : Shared ι τ ρ η) : Prop where
  permit_eq : shared.cell.state.permit =
    if shared.cell.state.isClaimed then shared.now.interest else shared.storedPermit
  claimed_unstored : shared.cell.state.isClaimed = true → shared.storedPermit = false
  quiet : shared.cell.state.phase = .active ∨ shared.cell.state.phase = .binding →
    shared.cell.state.permit = false ∧ shared.cell.state.closed = false
  issued_eq : shared.issued + (if shared.cell.state.phase = .binding then 1 else 0) =
    shared.cell.state.generation
  started : shared.cell.state.phase ≠ .idle →
    0 < shared.cell.state.generation ∧ ∃ target, shared.now.target = some target
  initialised : 0 < shared.issued → shared.cell.task.isSome ∧ shared.cell.route.isSome ∧
    shared.cell.primaryHub.isSome
  bound : shared.cell.state.phase ≠ .idle → shared.cell.state.phase ≠ .binding →
    ∀ target ∈ shared.now.target, shared.cell.Holds target shared.cell.state.fallbackHub
  future : ∀ generation, shared.cell.state.generation < generation →
    shared.history generation = .empty
  past : ∀ generation < shared.cell.state.generation,
    (shared.history generation).Over shared.cell.id generation
  current : shared.now.Current shared.cell.id shared.cell.state

end Shared

/-! ## The local invariant -/

/-- Outcomes that say nothing about a completion signal or a cause. -/
def Outcome.isPlain : Outcome η → Bool
  | .inFlight | .deferred | .resumed _ => false
  | _ => true

namespace Stage

/-- The generation whose notice and publication a stage still owes. -/
def owes : Stage τ ρ η → Option Nat
  | .readTask use word | .readRoute use word _ | .readHub use word _ _ =>
      match use with
      | .clone => none
      | _ => some word.generation
  | .hand _ _ _ word _ | .publish _ word | .republish _ word _ => some word.generation
  | _ => none

/-- The generation whose completion signal a stage still owes. -/
def owesCompletion : Stage τ ρ η → Option Nat
  | .complete _ generation _ => some generation
  | _ => none

/-- The generation a stage after the first load works on. -/
def generation? : Stage τ ρ η → Option Nat
  | .exchange expected _ _ => some expected.generation
  | .cachedTask _ word | .cachedRoute _ word | .cachedPrimary _ word | .cachedFallback _ word
  | .readTask _ word | .readRoute _ word _ | .readHub _ word _ _ | .hand _ _ _ word _
  | .publish _ word | .republish _ word _ => some word.generation
  | .complete _ generation _ => some generation
  | _ => none

/-- Stages of `cached_target` and `bind_target`. -/
def begins : Stage τ ρ η → Bool
  | .cachedTask .. | .cachedRoute .. | .cachedPrimary .. | .cachedFallback .. | .bindTask ..
  | .bindRoute .. | .bindPeek .. | .bindSet .. | .bindGet .. | .bindFallback ..
  | .bindStore .. => true
  | _ => false

end Stage

namespace Pc

def owes : Pc τ ρ η → Option Nat
  | .run _ stage => stage.owes
  | _ => none

def owesCompletion : Pc τ ρ η → Option Nat
  | .run _ stage => stage.owesCompletion
  | _ => none

end Pc

section Facts

variable (thread : ι) (shared : Shared ι τ ρ η)

/-- An idle word a begin has observed and may still exchange. -/
structure Beginnable (word : WaitWord) : Prop where
  idle : word.phase = .idle
  unclosed : word.closed = false
  unpermitted : word.permit = false
  recent : word.generation < shared.cell.state.generation ∨
    word.generation = shared.cell.state.generation ∧ shared.cell.state.phase = .idle

/-- The thread binds the target of the current generation. -/
structure Binder (target : Target τ ρ η) (word : WaitWord) : Prop where
  state : shared.cell.state = word
  binding : word.phase = .binding
  binder : shared.now.binder = some thread
  target_eq : shared.now.target = some target

/-- The thread has claimed the generation of `word` and not published it. -/
structure Enqueuing (cause : WakeCause) (word : WaitWord) : Prop where
  phase : word.phase = .claim cause
  permit : word.permit = false
  state : shared.cell.state.withPermit false = word
  claims : (shared.history word.generation).claims = [(thread, cause)]
  published : (shared.history word.generation).published = []

/-- The thread has seen the interest bit on the generation it has claimed. -/
structure Completing (word : WaitWord) : Prop where
  permit : word.permit = true
  state : shared.cell.state = word
  claimed : ∃ cause, word.phase = .claim cause ∧
    (shared.history word.generation).claims = [(thread, cause)] ∧
    (shared.history word.generation).Delivered shared.cell.id word.generation thread cause
  published : (shared.history word.generation).published = []

/-- The target can be read for a word that was active or selected. -/
structure Cloning (word : WaitWord) : Prop where
  retirable : word.phase = .active ∨ ∃ cause, word.phase = .selected cause
  issued : 0 < shared.issued
  fallback : word.fallbackHub = true → shared.cell.fallbackHub.isSome

/-- What a pending compare-exchange may do. -/
def ExchangeFact (op : Op τ ρ η) (expected next : WaitWord) : Won τ ρ η → Prop
  | .adjust outcome =>
      expected.phase ≠ .binding ∧ expected.isClaimed = false ∧ next.phase = expected.phase ∧
        next.generation = expected.generation ∧ next.fallbackHub = expected.fallbackHub ∧
        (expected.phase = .active → next.permit = expected.permit ∧
          next.closed = expected.closed) ∧
        outcome.isPlain = true
  | .activate target =>
      op.token? = none ∧ Beginnable shared expected ∧ next.phase = .active ∧
        next.generation = expected.generation + 1 ∧ next.permit = false ∧
        next.closed = false ∧
        shared.cell.primaryHub.isSome ∧
        (expected.generation = shared.cell.state.generation →
          shared.cell.Holds target next.fallbackHub)
  | .bind _ =>
      op.token? = none ∧ expected.phase = .idle ∧ expected.permit = false ∧
        next.phase = .binding ∧
        next.generation = expected.generation + 1 ∧ next.permit = false ∧
        next.closed = false
  | .claim cause _ outcome =>
      expected.phase = .active ∧ next.phase = .claim cause ∧
        next.generation = expected.generation ∧ next.fallbackHub = expected.fallbackHub ∧
        (expected.permit = false → next.permit = false) ∧
        outcome.isPlain = true
  | .interest outcome =>
      (outcome = .inFlight ∨ outcome = .deferred) ∧ expected.isClaimed = true ∧
        expected.permit = false ∧ next = expected.withPermit true ∧
        ∃ token ∈ op.token?, token.generation = expected.generation
  | .finish cause =>
      expected.phase = .selected cause ∧ next.phase = .idle ∧
        next.generation = expected.generation ∧ next.permit = expected.permit ∧
        ∃ token ∈ op.token?, token.generation = expected.generation
  | .retire _ =>
      (expected.phase = .active ∨ ∃ cause, expected.phase = .selected cause) ∧
        next = expected.retire

/-- What holds at each stage. -/
def StageFact (op : Op τ ρ η) : Stage τ ρ η → Prop
  | .load => True
  | .exchange expected next won => ExchangeFact shared op expected next won
  | .cachedTask _ word => Beginnable shared word
  | .cachedRoute target word => Beginnable shared word ∧
      (word.generation = shared.cell.state.generation →
        shared.cell.task = some target.task)
  | .cachedPrimary target word => Beginnable shared word ∧
      (word.generation = shared.cell.state.generation →
        shared.cell.task = some target.task ∧ shared.cell.route = some target.route)
  | .cachedFallback target word => Beginnable shared word ∧
      shared.cell.primaryHub.isSome ∧
      (word.generation = shared.cell.state.generation →
        shared.cell.task = some target.task ∧ shared.cell.route = some target.route)
  | .bindTask target word => Binder thread shared target word
  | .bindRoute target word => Binder thread shared target word ∧
      shared.cell.task = some target.task
  | .bindPeek target word | .bindSet target word => Binder thread shared target word ∧
      shared.cell.task = some target.task ∧ shared.cell.route = some target.route
  | .bindGet target word | .bindFallback target word => Binder thread shared target word ∧
      shared.cell.task = some target.task ∧ shared.cell.route = some target.route ∧
      shared.cell.primaryHub.isSome
  | .bindStore target word fallback => Binder thread shared target word ∧
      shared.cell.Holds target fallback ∧ shared.cell.primaryHub.isSome
  | .readTask (.enqueue cause _ outcome) word => Enqueuing thread shared cause word ∧
      (shared.history word.generation).handed = [] ∧
      outcome.isPlain = true
  | .readRoute (.enqueue cause _ outcome) word task => Enqueuing thread shared cause word ∧
      (shared.history word.generation).handed = [] ∧ shared.cell.task = some task ∧
      outcome.isPlain = true
  | .readHub (.enqueue cause _ outcome) word task route =>
      Enqueuing thread shared cause word ∧
      (shared.history word.generation).handed = [] ∧ shared.cell.task = some task ∧
      shared.cell.route = some route ∧ outcome.isPlain = true
  | .hand cause _ outcome word target => Enqueuing thread shared cause word ∧
      (shared.history word.generation).handed = [] ∧
      (shared.history word.generation).target = some target ∧
      outcome.isPlain = true
  | .publish outcome word => (∃ cause, Enqueuing thread shared cause word ∧
      (shared.history word.generation).Delivered shared.cell.id word.generation thread
        cause) ∧ outcome.isPlain = true
  | .readTask (.complete outcome) word | .readRoute (.complete outcome) word _
  | .readHub (.complete outcome) word _ _ => Completing thread shared word ∧
      outcome.isPlain = true
  | .republish outcome word hub => Completing thread shared word ∧
      (∃ target, (shared.history word.generation).target = some target ∧ target.hub = hub) ∧
      outcome.isPlain = true
  | .complete outcome generation hub =>
      (∃ cause, (shared.history generation).Won shared.cell.id generation thread cause) ∧
      (shared.history generation).interest = true ∧
      (shared.history generation).completed = [] ∧
      (∃ target, (shared.history generation).target = some target ∧ target.hub = hub) ∧
      outcome.isPlain = true
  | .readTask .clone word | .readRoute .clone word _ | .readHub .clone word _ _ =>
      Cloning shared word

/-- The token of a running call is one of this cell, and an owner's was returned by a
begin; the call works on the generation of its token only. -/
structure TokenFact (op : Op τ ρ η) (stage : Stage τ ρ η) : Prop where
  wait : ∀ token ∈ op.token?, token.wait = shared.cell.id
  issued : op.isOwner → ∀ token ∈ op.token?, token.generation ≤ shared.issued
  generation : ∀ token ∈ op.token?, ∀ generation ∈ stage.generation?,
    generation = token.generation
  begins : stage.begins = true → op.token? = none

/-- A returned call. -/
def RestFact (op : Op τ ρ η) (outcome : Outcome η) : Prop :=
  (outcome = .inFlight ∨ outcome = .deferred → ∃ token ∈ op.token?,
    (shared.history token.generation).interest = true) ∧
  ∀ cause, outcome = .resumed cause → ∃ token ∈ op.token?,
    (shared.history token.generation).finishes = [cause]

def PcFact : Pc τ ρ η → Prop
  | .rest none => True
  | .rest (some (op, outcome)) => RestFact shared op outcome
  | .run op stage => TokenFact shared op stage ∧ StageFact thread shared op stage
  | .panicked _ => False

/-- The local invariant. -/
structure Local (pc : Pc τ ρ η) : Prop where
  fact : PcFact thread shared pc
  owes : ∀ generation cause, (shared.history generation).claims = [(thread, cause)] →
    (shared.history generation).published = [] → pc.owes = some generation
  owesCompletion : ∀ generation cause,
    (shared.history generation).claims = [(thread, cause)] →
    (shared.history generation).published ≠ [] →
    (shared.history generation).interest = true →
    (shared.history generation).completed = [] → pc.owesCompletion = some generation

end Facts

/-! ## Changes -/

/-- Everything a step of `thread` can do to the shared state. -/
inductive Change (thread : ι) (shared : Shared ι τ ρ η) : Shared ι τ ρ η → Prop where
  | same : Change thread shared shared
  | adjust (next : WaitWord) : shared.cell.state.phase ≠ .binding →
      shared.cell.state.isClaimed = false → next.phase = shared.cell.state.phase →
      next.generation = shared.cell.state.generation →
      next.fallbackHub = shared.cell.state.fallbackHub →
      (shared.cell.state.phase = .active → next.permit = shared.cell.state.permit ∧
        next.closed = shared.cell.state.closed) →
      Change thread shared { shared.setState next with storedPermit := next.permit }
  | activate (target : Target τ ρ η) (next : WaitWord) : shared.cell.state.phase = .idle →
      shared.cell.state.permit = false → next.phase = .active →
      next.generation = shared.cell.state.generation + 1 → next.permit = false →
      next.closed = false → shared.cell.Holds target next.fallbackHub →
      shared.cell.primaryHub.isSome →
      Change thread shared { (shared.setState next).note next.generation fun record =>
        { record with target := some target } with issued := next.generation }
  | bind (target : Target τ ρ η) (next : WaitWord) : shared.cell.state.phase = .idle →
      shared.cell.state.permit = false → next.phase = .binding →
      next.generation = shared.cell.state.generation + 1 → next.permit = false →
      next.closed = false →
      Change thread shared ((shared.setState next).note next.generation fun record =>
        { record with target := some target, binder := some thread })
  | write (cell : Cell τ ρ η) : shared.cell.state.phase = .binding →
      shared.now.binder = some thread → cell.id = shared.cell.id →
      cell.state = shared.cell.state →
      (shared.cell.task.isSome → cell.task.isSome) →
      (shared.cell.route.isSome → cell.route.isSome) →
      (shared.cell.primaryHub.isSome → cell.primaryHub.isSome) →
      (shared.cell.fallbackHub.isSome → cell.fallbackHub.isSome) →
      Change thread shared { shared with cell }
  | opened (target : Target τ ρ η) (next : WaitWord) :
      shared.cell.state.phase = .binding → shared.now.binder = some thread →
      shared.now.target = some target → next.phase = .active →
      next.generation = shared.cell.state.generation →
      next.permit = shared.cell.state.permit → next.closed = shared.cell.state.closed →
      shared.cell.Holds target next.fallbackHub → shared.cell.primaryHub.isSome →
      Change thread shared { shared.setState next with issued := next.generation }
  | claim (cause : WakeCause) (next : WaitWord) : shared.cell.state.phase = .active →
      next.phase = .claim cause → next.generation = shared.cell.state.generation →
      next.fallbackHub = shared.cell.state.fallbackHub → next.permit = false →
      Change thread shared ((shared.setState next).note next.generation fun record =>
        { record with claims := (thread, cause) :: record.claims })
  | interest : shared.cell.state.isClaimed = true →
      Change thread shared ((shared.setState (shared.cell.state.withPermit true)).note
        shared.cell.state.generation fun record => { record with interest := true })
  | hand (cause : WakeCause) (carrier : Bool) (target : Target τ ρ η) :
      shared.cell.state.phase = .claim cause → shared.now.claims = [(thread, cause)] →
      shared.now.handed = [] → shared.now.target = some target →
      Change thread shared
        (shared.handNotice thread cause carrier shared.cell.state target)
  | publish (cause : WakeCause) (next : WaitWord) :
      shared.cell.state.phase = .claim cause → shared.now.claims = [(thread, cause)] →
      shared.now.Delivered shared.cell.id shared.cell.state.generation thread cause →
      next = (shared.cell.state.withPermit false).withPhase (.selected cause) →
      Change thread shared ((shared.setState next).note shared.cell.state.generation
        fun record => { record with published := (thread, some cause) :: record.published })
  | complete (generation : Nat) (cause : WakeCause) (target : Target τ ρ η) :
      (shared.history generation).Won shared.cell.id generation thread cause →
      (shared.history generation).interest = true →
      (shared.history generation).completed = [] →
      (shared.history generation).target = some target →
      Change thread shared (shared.note generation fun record =>
        { record with completed := (thread, target.hub) :: record.completed })
  | retire (next : WaitWord) (finishes : List WakeCause) :
      (shared.cell.state.phase = .active ∧ finishes = [] ∨
        ∃ cause, shared.cell.state.phase = .selected cause ∧
          (finishes = [] ∨ finishes = [cause])) →
      next.phase = .idle → next.generation = shared.cell.state.generation →
      next.permit = shared.cell.state.permit →
      Change thread shared ((shared.setState next).note next.generation fun record =>
        { record with finishes := finishes ++ record.finishes, retired := true })

end VThread.Wait

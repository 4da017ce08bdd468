import VThread.Recorded.Events
import VThread.Wait.Passed

/-!
# Wait cells with runtime evidence

Any number of wait cells whose calls record what they do in one sequence of events.  Between
two atomic steps of a call a thread records the events it owes, one at a time, and reads the
target of a resumed generation again before it records its end.  Registrations capture the
task they later name in the events of their selections.
-/

namespace VThread.Recorded

open VThread.Lib VThread.Wait

variable {κ ι τ ρ η : Type}

/-! ## Threads -/

/-- `WaitRegistration`: the task its events name, if it captured one, and the newest
generation begun when it looked at the cell. -/
structure Registration (τ : Type) where
  since : Nat
  task : Option τ

/-- Who reads the target: `record_resumed`, or a registration. -/
inductive Reader (τ ρ η : Type) where
  | resumed (token : ParkToken) (cause : WakeCause) (pc : Pc τ ρ η)
  | registration (since : Nat)

/-- What a thread does next. -/
inductive Stance (τ ρ η : Type) where
  /-- The next atomic step of a call, or none. -/
  | call (pc : Pc τ ρ η)
  /-- Record an event, then others. -/
  | recording (event : EventKind τ) (later : List (EventKind τ)) (pc : Pc τ ρ η)
  /-- `with_target`. -/
  | readTask (reader : Reader τ ρ η) (word : WaitWord)
  | readRoute (reader : Reader τ ρ η) (word : WaitWord) (task : τ)
  | readHub (reader : Reader τ ρ η) (word : WaitWord) (task : τ)
  /-- `cached` or `registration`. -/
  | registering (cached : Bool)
  | registered (registration : Registration τ)
  | panicked (message : String)

/-- The cell a thread works on, whether its begin has a deadline, and the task that the
registration of its selection has captured. -/
structure Local (κ τ ρ η : Type) where
  home : κ
  stance : Stance τ ρ η
  timed : Bool
  registration : Option τ

/-- The cells and the sequence of events.  The threads that owe the publication and the
resumption of a generation are kept as history. -/
structure Shared (κ ι τ ρ η : Type) where
  cells : κ → Wait.Shared ι τ ρ η
  log : List (EventKind τ)
  beginner : WaitKey → Option ι
  finisher : WaitKey → Option ι

def Reader.pc : Reader τ ρ η → Pc τ ρ η
  | .resumed _ _ pc => pc
  | .registration _ => .rest none

/-- The state of the call itself. -/
def Stance.pc : Stance τ ρ η → Pc τ ρ η
  | .call pc | .recording _ _ pc => pc
  | .readTask reader _ | .readRoute reader _ _ | .readHub reader _ _ => reader.pc
  | .registering _ | .registered _ | .panicked _ => .rest none

/-- What follows when the target was read. -/
def Reader.done (task : τ) : Reader τ ρ η → Stance τ ρ η
  | .resumed token cause pc => .recording (.resumed task token cause) [] pc
  | .registration since => .registered ⟨since, some task⟩

/-! ## What a step of a call records -/

/-- `record_selected`, `record_current` and `record_rejected`. -/
def offer (task : Option τ) (token : ParkToken) (cause : WakeCause) (origin : WakeOrigin)
    (result : τ → EventKind τ) (pc : Pc τ ρ η) : Stance τ ρ η :=
  match task with
  | none => .call pc
  | some task => .recording (.wakeOffered task token cause origin) [result task] pc

/-- Why `select_generation` turns an offer away after it has seen `word`. -/
def rejection (token : ParkToken) (word : WaitWord) : WakeRejection :=
  if word.phase = .idle then .noActiveWait
  else if word.generation ≠ token.generation then .retiredGeneration
  else .alreadySelected

/-- A selection that was turned away. -/
def reject (registration : Option τ) (origin : WakeOrigin) (reason : ParkToken → WakeRejection)
    (op : Op τ ρ η) (pc : Pc τ ρ η) : Stance τ ρ η :=
  match op, pc with
  | .select token cause, .rest (some (_, .flag false)) =>
      offer registration token cause origin
        (fun task => .wakeRejected task token cause origin (reason token)) pc
  | _, _ => .call pc

/-- The task that `enqueue_selected` names: that of the registration, if there is one. -/
def Op.named (registration : Option τ) (task : τ) : Op τ ρ η → Option τ
  | .select _ _ => registration
  | _ => some task

/-- What a thread does after it has exchanged `expected` for `next`. -/
def exchanged (mine : Local κ τ ρ η) (id : Nat) (op : Op τ ρ η) (pc : Pc τ ρ η)
    (expected next : WaitWord) (won : Won τ ρ η) : Stance τ ρ η :=
  match won, op.token? with
  -- `parked`
  | .activate target, _ =>
      .recording (.waitPublished target.task ⟨id, next.generation⟩ mine.timed) [] pc
  -- `record_resumed`
  | .finish cause, some token => .readTask (.resumed token cause pc) expected
  | _, _ => .call pc

section Advance

variable [DecidableEq κ] [DecidableEq ι] [DecidableEq τ] [DecidableEq ρ] [DecidableEq η]

/-- What a thread does after an atomic step of a call that has led to `pc`. -/
def announce (mine : Local κ τ ρ η) (origin : WakeOrigin) (cell : Cell τ ρ η) (op : Op τ ρ η)
    (pc : Pc τ ρ η) : Stage τ ρ η → Stance τ ρ η
  | .load => reject mine.registration origin (rejection · cell.state) op pc
  | .exchange expected next won =>
      if cell.state = expected then exchanged mine cell.id op pc expected next won
      else reject mine.registration origin (rejection · cell.state) op pc
  -- `parked`
  | .bindStore target word _ =>
      .recording (.waitPublished target.task ⟨cell.id, word.generation⟩ mine.timed) [] pc
  -- The hub cannot change before the claim is published, so its emitter is that of the
  -- hub read next.
  | .readRoute (.enqueue cause _ _) word task =>
      match cell.route with
      | none => .call pc
      | some _ =>
          offer (Op.named mine.registration task op) ⟨cell.id, word.generation⟩ cause origin
            (.wakeSelected · ⟨cell.id, word.generation⟩ cause origin) pc
  | _ => .call pc

/-- Free choices of a step. -/
inductive Choice (κ τ ρ η : Type) where
  | visit (home : κ)
  | call (op : Op τ ρ η) (timed : Bool)
  | register (cached : Bool)
  | select (token : ParkToken) (cause : WakeCause) (origin : WakeOrigin)
  | noWait (token : ParkToken) (cause : WakeCause) (origin : WakeOrigin)
  | go (expired accepted : Bool) (origin : WakeOrigin)

/-- The token was returned by a begin. -/
def Returned (log : List (EventKind τ)) (token : ParkToken) : Prop := publications log token ≠ []

instance (log : List (EventKind τ)) (token : ParkToken) : Decidable (Returned log token) :=
  inferInstanceAs (Decidable (_ ≠ _))

def Op.isSelect : Op τ ρ η → Bool
  | .select _ _ => true
  | _ => false

/-- A call with a token carries a returned one.  Selections start from their registration. -/
def Shared.Permits (shared : Shared κ ι τ ρ η) (op : Op τ ρ η) : Prop :=
  Op.isSelect op = false ∧ ∀ token ∈ op.token?, Returned shared.log token

instance (shared : Shared κ ι τ ρ η) (op : Op τ ρ η) : Decidable (shared.Permits op) :=
  inferInstanceAs (Decidable (_ ∧ _))

/-- A registration selects a generation whose token was returned before it looked at the
cell, or, as `fallback_waits` retains one for a cell, a later one of the task it captured. -/
def Shared.Fits (shared : Shared κ ι τ ρ η) (home : κ) (registration : Registration τ)
    (token : ParkToken) : Prop :=
  Returned shared.log token ∧ (token.wait = (shared.cells home).cell.id →
    token.generation ≤ registration.since ∨ registration.task.isSome ∧
      registration.task = ((shared.cells home).history token.generation).target.map (·.task))

instance (shared : Shared κ ι τ ρ η) (home : κ) (registration : Registration τ)
    (token : ParkToken) : Decidable (shared.Fits home registration token) :=
  inferInstanceAs (Decidable (_ ∧ (_ → _)))

/-- Note who owes the publication or the resumption of a generation. -/
def Shared.owing (shared : Shared κ ι τ ρ η) (thread : ι) :
    Stance τ ρ η → Shared κ ι τ ρ η
  | .recording (.waitPublished _ token _) _ _ =>
      { shared with beginner := Function.update shared.beginner token (some thread) }
  | .readTask (.resumed token _ _) _ =>
      { shared with finisher := Function.update shared.finisher token (some thread) }
  | _ => shared

def Shared.setCell (shared : Shared κ ι τ ρ η) (home : κ) (cell : Wait.Shared ι τ ρ η) :
    Shared κ ι τ ρ η :=
  { shared with cells := Function.update shared.cells home cell }

/-- A step of the thread from where it stands, without a new decision. -/
def goStep (thread : ι) (expired accepted : Bool) (origin : WakeOrigin)
    (shared : Shared κ ι τ ρ η) (mine : Local κ τ ρ η) :
    Option (Shared κ ι τ ρ η × Local κ τ ρ η) :=
  let cell := (shared.cells mine.home).cell
  match mine.stance with
  | .call (.run op stage) =>
      let (cell', pc) := advanceStage thread ⟨op, expired && mine.timed, accepted⟩
        (shared.cells mine.home) op stage
      let stance := announce mine origin cell op pc stage
      some ((shared.setCell mine.home cell').owing thread stance, { mine with stance })
  | .recording event later pc =>
      some ({ shared with log := shared.log ++ [event] }, { mine with
        stance := match later with
          | [] => .call pc
          | next :: rest => .recording next rest pc })
  | .readTask reader word =>
      some (shared, { mine with
        stance := match cell.task with
          | none => .panicked "task identity zero is reserved"
          | some task => .readRoute reader word task })
  | .readRoute reader word task =>
      some (shared, { mine with
        stance := match cell.route with
          | none => .panicked "encoded task key is nonzero"
          | some _ => .readHub reader word task })
  | .readHub reader word task =>
      some (shared, { mine with
        stance := match cell.hubFor word with
          | .error message => .panicked message
          | .ok _ => reader.done task })
  | .registering cached =>
      let since := (shared.cells mine.home).issued
      some (shared, { mine with
        stance :=
          if ¬ cached ∧ (cell.state.phase = .idle ∨ cell.state.phase = .binding) then
            .registered ⟨since, none⟩
          else .readTask (.registration since) cell.state })
  | _ => none

/-- The step of a thread for a choice. -/
def nextStep (thread : ι) (shared : Shared κ ι τ ρ η) (mine : Local κ τ ρ η) :
    Choice κ τ ρ η → Option (Shared κ ι τ ρ η × Local κ τ ρ η)
  | .visit home =>
      match mine.stance with
      | .call (.rest _) | .registered _ =>
          some (shared, { mine with home, stance := .call (.rest none) })
      | _ => none
  | .call op timed =>
      match mine.stance with
      | .call (.rest _) =>
          if shared.Permits op then
            some (shared, { mine with
              stance := .call (op.call (shared.cells mine.home).cell.id), timed })
          else none
      | _ => none
  | .register cached =>
      match mine.stance with
      | .call (.rest _) => some (shared, { mine with stance := .registering cached })
      | _ => none
  | .select token cause origin =>
      match mine.stance with
      | .registered registration =>
          if shared.Fits mine.home registration token then
            let op : Op τ ρ η := .select token cause
            some (shared, { mine with
              stance := reject registration.task origin (fun _ => .retiredGeneration) op
                (op.call (shared.cells mine.home).cell.id)
              registration := registration.task })
          else none
      | _ => none
  | .noWait token cause origin =>
      match mine.stance with
      | .registered registration =>
          if Returned shared.log token then
            some (shared, { mine with
              stance := offer registration.task token cause origin
                (.wakeRejected · token cause origin .noWait) (.rest none) })
          else none
      | _ => none
  | .go expired accepted origin => goStep thread expired accepted origin shared mine

/-- New cells with different identities. -/
structure Shared.Initial (shared : Shared κ ι τ ρ η) : Prop where
  cells : ∀ home, shared.cells home = .initial (shared.cells home).cell.id
  distinct : ∀ left right,
    (shared.cells left).cell.id = (shared.cells right).cell.id → left = right
  log : shared.log = []
  beginner : shared.beginner = fun _ => none
  finisher : shared.finisher = fun _ => none

/-- All threads over all cells; `first` is where threads start. -/
def program (first : κ) : Program ι (Shared κ ι τ ρ η) (Local κ τ ρ η) where
  initial := Shared.Initial
  start := ⟨first, .call (.rest none), false, none⟩
  advance thread shared mine shared' mine' :=
    ∃ choice, nextStep thread shared mine choice = some (shared', mine')

def scheduler (first : κ) :
    (program first : Program ι (Shared κ ι τ ρ η) (Local κ τ ρ η)).Scheduler
      (Choice κ τ ρ η) where
  next thread choice shared mine := nextStep thread shared mine choice
  sound _ choice _ _ _ taken := ⟨choice, taken⟩

end Advance

end VThread.Recorded

import VThread.Channel.Core
import VThread.Lib.Turns

/-!
# The invariant of a channel

What the shared state keeps, and what a thread knows at each point of its call.  A thread
knows only its own view of the shared state, and the steps of others change little of it.
-/

namespace VThread.Channel

open VThread.Lib VThread.Wait

variable {ι α : Type}

/-! ## The shared state -/

def sentValue : ι × Result α → Option α
  | (_, .sent value) => some value
  | _ => none

def receivedValue : ι × Result α → Option α
  | (_, .received value) => some value
  | _ => none

namespace Shared

/-- The values of the successful calls to `send`. -/
def sent (shared : Shared ι α) : List α := shared.results.filterMap sentValue

/-- The values that calls to `recv` have returned. -/
def received (shared : Shared ι α) : List α := shared.results.filterMap receivedValue

/-- A call of the direction can be completed when its turn comes. -/
def Ready (shared : Shared ι α) : Direction → Prop
  | .send => shared.values.length < shared.capacity ∨ shared.closed = true ∨ shared.receivers = 0
  | .recv => shared.values ≠ [] ∨ shared.closed = true ∨ shared.senders = 0

/-- The cell of the first ticket. -/
def front (shared : Shared ι α) (direction : Direction) : Option ι :=
  (shared.waits direction).head?.map Entry.wait

/-- The thread is at the front of a queue that can go on, and it is not about to be notified. -/
def Due (shared : Shared ι α) (thread : ι) : Prop :=
  thread ∉ shared.pending ∧ ∃ direction, shared.front direction = some thread ∧
    shared.Ready direction

/-- The invariant of the shared state. -/
structure Inv (shared : Shared ι α) : Prop where
  turns : ∀ direction, Turns Entry.wait Entry.arrival (shared.waits direction) shared.arrivals
  buffered : shared.values.length ≤ shared.capacity
  waiting : ∀ direction, (shared.waits direction).length ≤ shared.waitCapacity
  unlocked : shared.lock = none → shared.pending = []
  fifo : Fifo shared.sent shared.received shared.values shared.destroyed
  kept : shared.receivers ≠ 0 → shared.destroyed = []
  openCell : ∀ thread, (shared.word thread).closed = false
  active : ∀ thread, (shared.word thread).phase = .active → (shared.word thread).permit = false

end Shared

/-! ## Traffic -/

/-- The values of a channel, and what went in and came out. -/
structure Traffic (ι α : Type) where
  values : List α
  inputs : List (ι × α)
  results : List (ι × Result α)
  destroyed : List α

def Shared.traffic (shared : Shared ι α) : Traffic ι α where
  values := shared.values
  inputs := shared.inputs
  results := shared.results
  destroyed := shared.destroyed

def Op.input : Op α → Option α
  | send value => some value
  | recv => none

/-- The call that goes on once the lock is released. -/
def Resume.op : Resume ι α → Option (Op α)
  | rest => none
  | enter run | park run | drop run _ => some run.op

/-- The running call of a thread. -/
def Pc.op : Pc ι α → Option (Op α)
  | .section run | .enter run | .parking run _ | .check run | .drop run _ => some run.op
  | .unlock next | .publish _ _ (some next) => next.op
  | .rest | .publish _ _ none | .panicked _ => none

/-- The thread is the first in line. -/
def Shared.Turn (shared : Shared ι α) (thread : ι) (direction : Direction) : Prop :=
  shared.waits direction = [] ∨ shared.front direction = some thread

/-- What one step of a thread does to the traffic, with its calls before and after the step. -/
inductive Effect (thread : ι) (shared : Shared ι α) :
    Option (Op α) → Traffic ι α → Option (Op α) → Prop where
  | quiet (call : Option (Op α)) : Effect thread shared call shared.traffic call
  | begins (op : Op α) : Effect thread shared none
      { shared.traffic with
        inputs := shared.inputs ++ (op.input.map (thread, ·)).toList } (some op)
  | refused (op : Op α) (error : Error) : Effect thread shared none
      { shared.traffic with
        inputs := shared.inputs ++ (op.input.map (thread, ·)).toList
        results := shared.results ++ [(thread, op.fail error)] } none
  | fails (op : Op α) (error : Error) : Effect thread shared (some op)
      { shared.traffic with results := shared.results ++ [(thread, op.fail error)] } none
  | sends (value : α) : shared.Turn thread .send → Effect thread shared (some (.send value))
      { shared.traffic with
        values := shared.values ++ [value]
        results := shared.results ++ [(thread, .sent value)] } none
  | receives (value : α) (held : List α) : shared.values = value :: held →
      shared.Turn thread .recv → Effect thread shared (some .recv)
      { shared.traffic with
        values := held
        results := shared.results ++ [(thread, .received value)] } none
  /-- The drop of the last receiver. -/
  | loses : shared.receivers = 1 → Effect thread shared none
      { shared.traffic with values := [], destroyed := shared.values ++ shared.destroyed } none

/-! ## Views -/

/-- The shared state as one thread knows it. -/
structure View where
  word : WaitWord
  queued : Direction → Prop
  due : Prop
  holds : Prop

def Shared.view (shared : Shared ι α) (thread : ι) : View where
  word := shared.word thread
  queued direction := thread ∈ (shared.waits direction).map Entry.wait
  due := shared.Due thread
  holds := shared.lock = some thread

/-- A permit is stored, or the generation is claimed or selected. -/
def Woken (word : WaitWord) : Prop :=
  word.permit = true ∨ ∃ cause, word.phase = .claim cause ∨ word.phase = .selected cause

/-- The park of a thread ends before it waits again. -/
def Awake (word : WaitWord) : Parking → Prop
  | .rollback _ _ => True
  | .begin | .bind _ | .parked _ => Woken word

/-- The ticket of a call. -/
structure Run.Known (thread : ι) (queued : Direction → Prop) (run : Run ι α) : Prop where
  direction : run.ticket.direction = run.op.direction
  queued : ∀ direction, queued direction ↔
    run.ticket.queued = true ∧ direction = run.op.direction
  wait : run.ticket.wait = if run.entered then some thread else none
  entered : run.ticket.queued = true → run.entered = true

/-- What a call knows when it goes on after the release of the lock. -/
def Resume.Fits (thread : ι) (view : View) : Resume ι α → Prop
  | .rest => ∀ direction, ¬ view.queued direction
  | .enter run => run.Known thread view.queued ∧ run.entered = false
  | .park run => run.Known thread view.queued ∧ run.ticket.queued = true ∧
      (view.due → Woken view.word)
  | .drop run _ => run.Known thread view.queued ∧ run.ticket.queued = true

/-- What a thread knows before its next step. -/
def Fits (thread : ι) (view : View) : Pc ι α → Prop
  | .rest => ¬ view.holds ∧ view.word.phase = .idle ∧ ∀ direction, ¬ view.queued direction
  | .section run => ¬ view.holds ∧ view.word.phase = .idle ∧ run.Known thread view.queued
  | .enter run => ¬ view.holds ∧ view.word.phase = .idle ∧ run.Known thread view.queued ∧
      run.entered = false
  | .parking run stage => ¬ view.holds ∧ run.Known thread view.queued ∧
      run.ticket.queued = true ∧ stage.Fits view.word ∧ (view.due → Awake view.word stage) ∧
      (∀ binding, stage = .bind binding → view.word.permit = false)
  | .check run | .drop run _ => ¬ view.holds ∧ view.word.phase = .idle ∧
      run.Known thread view.queued ∧ run.ticket.queued = true
  | .unlock next | .publish _ _ (some next) => view.holds ∧ view.word.phase = .idle ∧
      next.Fits thread view
  | .publish _ _ none => ¬ view.holds ∧ view.word.phase = .idle ∧
      ∀ direction, ¬ view.queued direction
  | .panicked message =>
      (message = "sender count exhausted" ∨ message = "receiver count exhausted") ∧
        ∀ direction, ¬ view.queued direction

/-! ## What others do to a view -/

/-- Changes of a word by others. -/
structure Follows (word word' : WaitWord) : Prop where
  generation : word'.generation = word.generation
  idle : word'.phase = .idle ↔ word.phase = .idle
  binding : word.phase = .binding → word' = word
  unbound : word.phase ≠ .binding → word'.phase ≠ .binding
  woken : Woken word → Woken word'

theorem Follows.refl (word : WaitWord) : Follows word word :=
  ⟨rfl, .rfl, fun _ => rfl, id, id⟩

/-- Changes of a view by the step of another thread. -/
structure View.Move (view view' : View) : Prop where
  word : Follows view.word view'.word
  queued : view'.queued = view.queued
  holds : view'.holds ↔ view.holds
  due : view'.due → view.due ∨ Woken view'.word

theorem View.Move.refl (view : View) : view.Move view :=
  ⟨.refl _, rfl, .rfl, .inl⟩

theorem View.Move.of_eq {view view' : View} (same : view' = view) : view.Move view' := by
  rw [same]
  exact .refl _

section Move

variable {view view' : View} {thread : ι}

theorem Resume.Fits.move {next : Resume ι α} (fits : next.Fits thread view)
    (move : view.Move view') : next.Fits thread view' := by
  cases next with
  | park run =>
      obtain ⟨known, queued, woken⟩ := fits
      refine ⟨move.queued ▸ known, queued, fun due => ?_⟩
      exact (move.due due).elim (fun due => move.word.woken (woken due)) id
  | rest | enter | drop =>
      rw [Fits] at fits ⊢
      rw [move.queued]
      exact fits

theorem Follows.parking {stage : Parking} {word word' : WaitWord}
    (follows : Follows word word') (fits : stage.Fits word) : stage.Fits word' := by
  cases stage with
  | begin => exact follows.idle.mpr fits
  | bind =>
      rw [follows.binding fits.2]
      exact fits
  | parked | rollback =>
      exact ⟨follows.generation.trans fits.1, fun idle => fits.2.1 (follows.idle.mp idle),
        follows.unbound fits.2.2⟩

theorem Awake.follow {stage : Parking} {word word' : WaitWord} (awake : Awake word stage)
    (follows : Follows word word') : Awake word' stage := by
  cases stage with
  | rollback => trivial
  | begin | bind | parked => exact follows.woken awake

theorem awake_of_woken {stage : Parking} {word : WaitWord} (woken : Woken word) :
    Awake word stage := by
  cases stage with
  | rollback => trivial
  | begin | bind | parked => exact woken

/-- What a thread knows stays true under the steps of others. -/
theorem Fits.move {pc : Pc ι α} (fits : Fits thread view pc) (move : view.Move view') :
    Fits thread view' pc := by
  have holds : ¬ view.holds → ¬ view'.holds := fun apart held => apart (move.holds.mp held)
  have idle : view.word.phase = .idle → view'.word.phase = .idle := move.word.idle.mpr
  have queued := move.queued
  cases pc with
  | rest => exact ⟨holds fits.1, idle fits.2.1, queued ▸ fits.2.2⟩
  | «section» run => exact ⟨holds fits.1, idle fits.2.1, queued ▸ fits.2.2⟩
  | enter run => exact ⟨holds fits.1, idle fits.2.1, queued ▸ fits.2.2.1, fits.2.2.2⟩
  | parking =>
      obtain ⟨apart, known, isQueued, stageFits, awake, unstored⟩ := fits
      refine ⟨holds apart, queued ▸ known, isQueued, move.word.parking stageFits, fun due => ?_,
        fun binding same => ?_⟩
      · exact (move.due due).elim (fun due => (awake due).follow move.word) awake_of_woken
      · subst same
        rw [move.word.binding stageFits.2]
        exact unstored binding rfl
  | check run => exact ⟨holds fits.1, idle fits.2.1, queued ▸ fits.2.2.1, fits.2.2.2⟩
  | drop => exact ⟨holds fits.1, idle fits.2.1, queued ▸ fits.2.2.1, fits.2.2.2⟩
  | unlock next => exact ⟨move.holds.mpr fits.1, idle fits.2.1, fits.2.2.move move⟩
  | publish _ _ next =>
      cases next with
      | none => exact ⟨holds fits.1, idle fits.2.1, queued ▸ fits.2.2⟩
      | some next => exact ⟨move.holds.mpr fits.1, idle fits.2.1, fits.2.2.move move⟩
  | panicked => exact ⟨fits.1, queued ▸ fits.2⟩

end Move

/-! ## Claims -/

/-- Who owes the publication of a claim: the cell still holds it, with the interest of its
owner at most. -/
structure Owes (shared : Shared ι α) (thread task : ι) (claimed : WaitWord) : Prop where
  publisher : shared.publisher task = some thread
  isClaimed : claimed.isClaimed = true
  permit : claimed.permit = false
  held : shared.word task = claimed ∨ shared.word task = claimed.withPermit true

/-- What a thread owes. -/
def Owing (shared : Shared ι α) (thread : ι) : Pc ι α → Prop
  | .publish task claimed _ => Owes shared thread task claimed
  | _ => True

theorem Owes.keep {shared shared' : Shared ι α} {thread task : ι} {claimed : WaitWord}
    (owes : Owes shared thread task claimed) (word : shared'.word = shared.word)
    (publisher : shared'.publisher = shared.publisher) : Owes shared' thread task claimed :=
  ⟨publisher ▸ owes.publisher, owes.isClaimed, owes.permit, word ▸ owes.held⟩

end VThread.Channel

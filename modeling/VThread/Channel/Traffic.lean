import VThread.Channel.Steps

/-!
# The traffic of a channel

What calls have received is what calls have sent, in the same order, up to what is still
buffered or was destroyed with the last receiver.  A value is with its call until it is
buffered or given back, and no call is overtaken by one that came later.
-/

namespace VThread.Channel

open VThread.Lib VThread.Wait

variable {ι α : Type} [DecidableEq ι] {thread other : ι} {shared shared' : Shared ι α}
  {traffic : Traffic ι α} {call call' : Option (Op α)}

/-! ## Custody -/

/-- The value that a call to `send` has buffered or given back. -/
def Result.settled : Result α → Option α
  | sent value | unsent _ value => some value
  | received _ | failed _ => none

namespace Traffic

/-- The values that a thread has passed to `send`. -/
def given (traffic : Traffic ι α) (thread : ι) : List α :=
  traffic.inputs.filterMap fun input => if input.1 = thread then some input.2 else none

/-- The values that its calls have buffered or given back. -/
def settled (traffic : Traffic ι α) (thread : ι) : List α :=
  traffic.results.filterMap fun result => if result.1 = thread then result.2.settled else none

/-- A value is with its call until it is buffered or given back. -/
def Custody (traffic : Traffic ι α) (thread : ι) (call : Option (Op α)) : Prop :=
  traffic.given thread = traffic.settled thread ++ (call.bind Op.input).toList

end Traffic

theorem settled_fail (op : Op α) (error : Error) : (op.fail error).settled = op.input := by
  cases op <;> rfl

section Custody

variable {running running' : Option (Op α)}

/-- A call takes its input. -/
theorem given_append (op : Op α) :
    ((shared.inputs ++ (op.input.map (thread, ·)).toList).filterMap fun input =>
      if input.1 = other then some input.2 else none) =
        shared.traffic.given other ++ if thread = other then op.input.toList else [] := by
  rw [List.filterMap_append]
  cases op with
  | send value =>
      by_cases own : thread = other <;> simp [Op.input, own, Traffic.given, Shared.traffic]
  | recv => simp [Op.input, Traffic.given, Shared.traffic]

/-- A call returns. -/
theorem settled_append (result : Result α) :
    ((shared.results ++ [(thread, result)]).filterMap fun result =>
      if result.1 = other then result.2.settled else none) =
        shared.traffic.settled other ++ if thread = other then result.settled.toList else [] := by
  rw [List.filterMap_append]
  by_cases own : thread = other
  · cases ended : result.settled <;> simp [own, ended, Traffic.settled, Shared.traffic]
  · simp [own, Traffic.settled, Shared.traffic]

/-- A step of a thread moves the value of its own call only. -/
theorem Effect.custody (effect : Effect thread shared call traffic call')
    (own : thread = other → running = call ∧ running' = call')
    (aside : thread ≠ other → running' = running)
    (custody : shared.traffic.Custody other running) : traffic.Custody other running' := by
  rw [Traffic.Custody] at custody ⊢
  by_cases same : thread = other
  · obtain ⟨rfl, rfl⟩ := own same
    cases effect with
    | quiet | loses => exact custody
    | begins op =>
        rw [Traffic.given, given_append, if_pos same, custody]
        simp [Traffic.settled, Shared.traffic]
    | refused =>
        rw [Traffic.given, given_append, Traffic.settled, settled_append, settled_fail, custody]
        simp [same]
    | fails =>
        rw [Traffic.settled, settled_append, settled_fail, if_pos same]
        simpa [Traffic.given] using custody
    | sends | receives =>
        rw [Traffic.settled, settled_append, if_pos same]
        exact custody.trans (List.append_nil _).symm
  · rw [aside same]
    cases effect with
    | quiet | loses => exact custody
    | begins op =>
        rw [Traffic.given, given_append, if_neg same, List.append_nil]
        exact custody
    | refused =>
        rw [Traffic.given, given_append, Traffic.settled, settled_append, if_neg same,
          if_neg same, List.append_nil, List.append_nil]
        exact custody
    | fails | sends | receives =>
        rw [Traffic.settled, settled_append, if_neg same, List.append_nil]
        exact custody

end Custody

/-! ## The laws -/

section Laws

variable {state : Threads ι (Shared ι α) (Pc ι α)}

/-- Nothing is lost, doubled or reordered, and no bound is exceeded.  A thread panics only when
the endpoints of a kind can no longer be counted. -/
structure Conserved (state : Threads ι (Shared ι α) (Pc ι α)) : Prop where
  fifo : Fifo state.shared.sent state.shared.received state.shared.values state.shared.destroyed
  ended : state.shared.destroyed ≠ [] → state.shared.receivers = 0
  buffered : state.shared.values.length ≤ state.shared.capacity
  waiting : ∀ direction, (state.shared.waits direction).length ≤ state.shared.waitCapacity
  custody : ∀ thread, state.shared.traffic.Custody thread (state.locals thread).op
  calm : ∀ thread message, state.locals thread = .panicked message →
    message = "sender count exhausted" ∨ message = "receiver count exhausted"

/-- A step of one thread, as its queue and the traffic know it. -/
theorem reachable_step (reachable : program.system.Reachable state) {choice : Choice ι α}
    {pc' : Pc ι α}
    (taken : step thread choice state.shared (state.locals thread) = some (shared', pc')) :
    Sound thread state.shared (state.locals thread).op shared' pc' := by
  obtain ⟨inv, knows⟩ := reachable_inv reachable
  exact step_sound inv (knows thread).1 (knows thread).2 taken

theorem reachable_custody (reachable : program.system.Reachable state) (thread : ι) :
    state.shared.traffic.Custody thread (state.locals thread).op := by
  induction reachable with
  | initial isInitial =>
      obtain ⟨⟨capacity, waitCapacity, -, -, new⟩, started⟩ := isInitial
      rw [started, new]
      rfl
  | step reachable taken ih =>
      cases taken with
      | mk mover advance =>
          obtain ⟨choice, advance⟩ := advance
          have sound := reachable_step reachable advance
          refine sound.effect.custody (fun own => ?_) (fun differ => ?_) ih
          · subst own
            exact ⟨rfl, by simp⟩
          · simp [differ.symm]

/-- Conservation and order of the values of a channel. -/
theorem traffic_conserved (reachable : program.system.Reachable state) : Conserved state := by
  obtain ⟨inv, knows⟩ := reachable_inv reachable
  refine ⟨inv.fifo, fun some => ?_, inv.buffered, inv.waiting,
    reachable_custody reachable, fun thread message panicked => ?_⟩
  · by_contra alive
    exact some (inv.kept alive)
  · have fits := (knows thread).1
    rw [panicked] at fits
    exact fits.1

/-- The values of the completed calls of a direction. -/
def Traffic.completed (traffic : Traffic ι α) : Direction → List α
  | .send => traffic.results.filterMap sentValue
  | .recv => traffic.results.filterMap receivedValue

omit [DecidableEq ι] in
/-- A call is completed only in its turn. -/
theorem Effect.turn (effect : Effect thread shared call traffic call') (direction : Direction)
    (completes : traffic.completed direction ≠ shared.traffic.completed direction) :
    shared.Turn thread direction := by
  cases effect with
  | quiet | begins | loses => exact absurd rfl completes
  | refused op error | fails op error =>
      refine absurd ?_ completes
      cases direction <;> cases op <;> exact (List.filterMap_append).trans (List.append_nil _)
  | sends value turn =>
      cases direction with
      | send => exact turn
      | recv => exact absurd ((List.filterMap_append).trans (List.append_nil _)) completes
  | receives _ _ _ turn =>
      cases direction with
      | recv => exact turn
      | send => exact absurd ((List.filterMap_append).trans (List.append_nil _)) completes

omit [DecidableEq ι] in
/-- The first in line arrived before everybody else who waits. -/
theorem Shared.Turn.first {direction : Direction} (turn : shared.Turn thread direction)
    (inv : shared.Inv) {entry : Entry ι} (member : entry ∈ shared.waits direction)
    (differ : entry.wait ≠ thread) :
    ∃ own ∈ shared.waits direction, own.wait = thread ∧ own.arrival < entry.arrival := by
  have turns := inv.turns direction
  rw [Turn, front] at turn
  cases waits : shared.waits direction with
  | nil =>
      rw [waits] at member
      cases member
  | cons front rest =>
      rw [waits] at turn turns member
      have own : front.wait = thread := Option.some.inj (turn.resolve_left (by simp))
      refine ⟨front, List.mem_cons_self, own, turns.front_first entry ?_⟩
      rcases List.mem_cons.mp member with rfl | member
      · exact absurd own differ
      · exact member

/-- A step of a thread takes its turn. -/
structure InTurn (thread : ι) (shared shared' : Shared ι α) (call call' : Option (Op α)) :
    Prop where
  effect : Effect thread shared call shared'.traffic call'
  line : ∀ direction, Turns.Step Entry.wait thread (shared.waits direction)
    (shared'.waits direction)
  served : ∀ direction,
    shared'.traffic.completed direction ≠ shared.traffic.completed direction →
      ∀ entry ∈ shared.waits direction, entry.wait ≠ thread →
        ∃ own ∈ shared.waits direction, own.wait = thread ∧ own.arrival < entry.arrival

/-- No call is overtaken by one that came later. -/
theorem calls_in_turn (reachable : program.system.Reachable state) {choice : Choice ι α}
    {pc' : Pc ι α}
    (taken : step thread choice state.shared (state.locals thread) = some (shared', pc')) :
    InTurn thread state.shared shared' (state.locals thread).op pc'.op where
  effect := (reachable_step reachable taken).effect
  line := (reachable_step reachable taken).stay
  served direction completes _ member differ :=
    ((reachable_step reachable taken).effect.turn direction completes).first
      (reachable_inv reachable).1 member differ

/-! ## Wakeups -/

/-- A thread that waits in a queue is on its way to the channel, or its wait is over. -/
inductive Attends (word : WaitWord) (run : Run ι α) : Pc ι α → Prop where
  | section : Attends word run (.section run)
  | check : Attends word run (.check run)
  | drop (error : Error) : Attends word run (.drop run error)
  | parking (stage : Parking) : Awake word stage → Attends word run (.parking run stage)

/-- No wakeup is lost: while nobody holds the lock, the first in a line that can go on attends
to the channel. -/
theorem front_attends (reachable : program.system.Reachable state) {direction : Direction}
    (free : state.shared.lock = none) (first : state.shared.front direction = some thread)
    (ready : state.shared.Ready direction) :
    ∃ run : Run ι α, run.op.direction = direction ∧ run.ticket.queued = true ∧
      Attends (state.shared.word thread) run (state.locals thread) := by
  obtain ⟨inv, knows⟩ := reachable_inv reachable
  have fits := (knows thread).1
  have queued : (state.shared.view thread).queued direction := Shared.front_mem first
  have due : (state.shared.view thread).due := by
    refine ⟨?_, direction, first, ready⟩
    rw [inv.unlocked free]
    exact List.not_mem_nil
  have apart : ¬ (state.shared.view thread).holds := by
    intro held
    cases free.symm.trans held
  have ours : ∀ {run : Run ι α}, run.Known thread (state.shared.view thread).queued →
      run.op.direction = direction ∧ run.ticket.queued = true := by
    intro run known
    have isQueued := (known.queued direction).mp queued
    exact ⟨isQueued.2.symm, isQueued.1⟩
  cases pc : state.locals thread with
  | rest =>
      rw [pc] at fits
      exact absurd queued (fits.2.2 direction)
  | «section» run =>
      rw [pc] at fits
      exact ⟨run, (ours fits.2.2).1, (ours fits.2.2).2, .section⟩
  | enter run =>
      rw [pc] at fits
      obtain ⟨-, -, known, outside⟩ := fits
      have entered := known.entered (ours known).2
      rw [outside] at entered
      cases entered
  | parking run stage =>
      rw [pc] at fits
      obtain ⟨-, known, isQueued, -, awake, -⟩ := fits
      exact ⟨run, (ours known).1, isQueued, .parking stage (awake due)⟩
  | check run =>
      rw [pc] at fits
      exact ⟨run, (ours fits.2.2.1).1, fits.2.2.2, .check⟩
  | drop run error =>
      rw [pc] at fits
      exact ⟨run, (ours fits.2.2.1).1, fits.2.2.2, .drop error⟩
  | unlock next =>
      rw [pc] at fits
      exact absurd fits.1 apart
  | publish _ _ next =>
      rw [pc] at fits
      cases next with
      | none => exact absurd queued (fits.2.2 direction)
      | some next => exact absurd fits.1 apart
  | panicked =>
      rw [pc] at fits
      exact absurd queued (fits.2 direction)

end Laws

/-! ## A run with a full buffer -/

section Run

/-- The steps of a channel as a scheduler. -/
def scheduler (ι α : Type) [DecidableEq ι] :
    (program : Program ι (Shared ι α) (Pc ι α)).Scheduler (Choice ι α) where
  next := step
  sound _ choice _ _ _ taken := ⟨choice, taken⟩

/-- A resting thread makes a call; any other thread goes on. -/
def calls (call : Call Nat Nat) : Choice Nat Nat :=
  ⟨call, none, false, ⟨none, false, some false, false⟩⟩

/-- Thread 0 fills the buffer, thread 1 waits for room, and thread 2 makes some. -/
def roomSchedule : List (Nat × Choice Nat Nat) :=
  ([(0, .trySend 7), (0, .close), (0, .close), (1, .send 8), (1, .close), (1, .close),
    (1, .close), (1, .close), (1, .close), (1, .close), (2, .recv), (2, .close), (2, .close),
    (2, .close), (2, .close)] : List (Nat × Call Nat Nat)).map
    fun entry => (entry.1, calls entry.2)

/-- Threads that rest at an empty channel. -/
def fresh : Threads Nat (Shared Nat Nat) (Pc Nat Nat) := ⟨.new 1 2, fun _ => .rest⟩

theorem fresh_reachable : program.system.Reachable fresh :=
  .initial ⟨⟨1, 2, Nat.one_pos, Nat.two_pos, rfl⟩, fun _ => rfl⟩

theorem traffic_conserved_waiting : ∃ state,
    (scheduler Nat Nat).run roomSchedule fresh = some state ∧ state.shared.received = [7] ∧
      state.shared.front .send = some 1 ∧ Conserved state := by
  have runs : ((scheduler Nat Nat).run roomSchedule fresh).map (fun state =>
      (state.shared.received, state.shared.front .send)) = some ([7], some 1) := by decide
  obtain ⟨state, ran, seen⟩ := Option.map_eq_some_iff.mp runs
  rw [Prod.mk.injEq] at seen
  exact ⟨state, ran, seen.1, seen.2,
    traffic_conserved ((scheduler Nat Nat).run_reachable fresh_reachable ran)⟩

/-- Thread 1 has been woken, and is not queued any more once it has sent its value. -/
theorem calls_in_turn_woken : ∃ state shared' pc',
    (scheduler Nat Nat).run (roomSchedule ++ [(1, calls .close), (1, calls .close)]) fresh =
        some state ∧
      step 1 (calls .close) state.shared (state.locals 1) = some (shared', pc') ∧
      shared'.sent = [7, 8] ∧ InTurn 1 state.shared shared' (state.locals 1).op pc'.op := by
  have runs : (((scheduler Nat Nat).run
      (roomSchedule ++ [(1, calls .close), (1, calls .close)]) fresh).bind fun state =>
        (step 1 (calls .close) state.shared (state.locals 1)).map fun next => next.1.sent) =
          some [7, 8] := by decide
  obtain ⟨state, ran, taken⟩ := Option.bind_eq_some_iff.mp runs
  obtain ⟨⟨shared', pc'⟩, taken, sent⟩ := Option.map_eq_some_iff.mp taken
  exact ⟨state, shared', pc', ran, taken, sent,
    calls_in_turn ((scheduler Nat Nat).run_reachable fresh_reachable ran) taken⟩

/-- Thread 1 waits for room, and there is some. -/
theorem front_attends_room : ∃ state : Threads Nat (Shared Nat Nat) (Pc Nat Nat),
    (scheduler Nat Nat).run roomSchedule fresh = some state ∧ ∃ run : Run Nat Nat,
      run.op.direction = .send ∧ run.ticket.queued = true ∧
        Attends (state.shared.word 1) run (state.locals 1) := by
  have runs : ((scheduler Nat Nat).run roomSchedule fresh).map (fun state =>
      (state.shared.lock, state.shared.front .send,
        decide (state.shared.values.length < state.shared.capacity))) =
          some (none, some 1, true) := by decide
  obtain ⟨state, ran, seen⟩ := Option.map_eq_some_iff.mp runs
  simp only [Prod.mk.injEq, decide_eq_true_eq] at seen
  exact ⟨state, ran, front_attends ((scheduler Nat Nat).run_reachable fresh_reachable ran)
    seen.1 seen.2.1 (.inl seen.2.2)⟩

end Run

end VThread.Channel

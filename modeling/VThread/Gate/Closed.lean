import VThread.Gate.Ended

/-!
# Closed gates

A close bars every later take and ends every queued ticket.  A ticket that has ended, in
whichever way, leaves the cell of its thread idle and open, and no entry for it in the queue.
-/

namespace VThread.Gate

open VThread.Lib VThread.Wait

variable {ι : Type} [DecidableEq ι] {thread other : ι} {shared shared' : Shared ι} {pc pc' : Pc ι}
  {available maximum : Nat} {choice : Choice ι} {state state' : Threads ι (Shared ι) (Pc ι)}

/-- The state after a step of a thread. -/
def afterStep (state : Threads ι (Shared ι) (Pc ι)) (thread : ι) (shared : Shared ι)
    (pc : Pc ι) : Threads ι (Shared ι) (Pc ι) :=
  ⟨shared, fun other => if other = thread then pc else state.locals other⟩

@[simp] theorem afterStep_shared : (afterStep state thread shared pc).shared = shared := rfl

@[simp] theorem afterStep_self : (afterStep state thread shared pc).locals thread = pc :=
  if_pos rfl

theorem afterStep_other (differ : other ≠ thread) :
    (afterStep state thread shared pc).locals other = state.locals other := if_neg differ

theorem reachable_afterStep (reachable : (program available maximum).system.Reachable state)
    (taken : step thread choice state.shared (state.locals thread) = some (shared, pc)) :
    (program available maximum).system.Reachable (afterStep state thread shared pc) :=
  .step reachable (.mk thread ⟨choice, taken⟩)

/-! ## Later takes -/

/-- All threads move. -/
def Later : Threads ι (Shared ι) (Pc ι) → Threads ι (Shared ι) (Pc ι) → Prop :=
  Relation.ReflTransGen fun state next => ∃ thread choice shared pc,
    step thread choice state.shared (state.locals thread) = some (shared, pc) ∧
      next = afterStep state thread shared pc

/-- A closed gate stays closed. -/
theorem Later.closed (later : Later state state')
    (reachable : (program available maximum).system.Reachable state)
    (closed : state.shared.closed = true) :
    (program available maximum).system.Reachable state' ∧ state'.shared.closed = true := by
  induction later with
  | refl => exact ⟨reachable, closed⟩
  | tail _ moved ih =>
      obtain ⟨reachable, closed⟩ := ih
      obtain ⟨mover, choice, shared, pc, taken, rfl⟩ := moved
      exact ⟨reachable_afterStep reachable taken, (reachable_flow reachable taken).closed closed⟩

/-- A call that takes nothing from a closed gate goes on to take nothing. -/
theorem Later.barred (later : Later state state')
    (reachable : (program available maximum).system.Reachable state)
    (closed : state.shared.closed = true) (barred : (state.locals thread).barred = true) :
    (state'.locals thread).barred = true := by
  induction later with
  | refl => exact barred
  | tail before moved ih =>
      obtain ⟨reachable, closed⟩ := Later.closed before reachable closed
      obtain ⟨mover, choice, shared, pc, taken, rfl⟩ := moved
      obtain ⟨inv, known⟩ := reachable_inv reachable
      by_cases own : thread = mover
      · subst own
        rw [afterStep_self]
        exact (barred_step (known thread).1 inv (known thread).2 ih closed taken).1
      · rw [afterStep_other own]
        exact ih

/-! ## Queued tickets -/

/-- All threads move until the call of one thread ends, whose own checks fail only with some
errors. -/
def Until (thread : ι) (fails : Error → Prop) :
    Threads ι (Shared ι) (Pc ι) → Threads ι (Shared ι) (Pc ι) → Prop :=
  Relation.ReflTransGen fun state next => ∃ mover choice shared pc,
    (mover = thread → (state.locals thread).rests = false ∧
      ∀ error, choice.failure = some error ∨ choice.park.failure = some error → fails error) ∧
    step mover choice state.shared (state.locals mover) = some (shared, pc) ∧
      next = afterStep state mover shared pc

/-- A ticket that a close has ended goes on to its end. -/
theorem Until.ended {fails ends : Error → Prop} (run : Until thread fails state state')
    (reachable : (program available maximum).system.Reachable state)
    (allows : ∀ error, fails error → ends error)
    (ended : Ended ends (state.shared.view thread) (state.locals thread)) :
    (program available maximum).system.Reachable state' ∧
      Ended ends (state'.shared.view thread) (state'.locals thread) := by
  induction run with
  | refl => exact ⟨reachable, ended⟩
  | tail _ moved ih =>
      obtain ⟨reachable, ended⟩ := ih
      obtain ⟨mover, choice, shared, pc, own, taken, rfl⟩ := moved
      refine ⟨reachable_afterStep reachable taken, ?_⟩
      obtain ⟨inv, known⟩ := reachable_inv reachable
      by_cases same : thread = mover
      · subst same
        obtain ⟨running, checks⟩ := own rfl
        obtain ⟨shared', pc', taken', -, ended'⟩ := ended.step inv (known thread).1 running
          fun error failed => allows error (checks error failed)
        rw [taken] at taken'
        cases taken'
        rw [afterStep_shared, afterStep_self]
        exact ended'
      · have sound := step_sound inv (known mover).1 (known mover).2 taken
        rw [afterStep_shared, afterStep_other same, ended.move (sound.moves thread same)]
        exact ended

/-! ## The law -/

omit [DecidableEq ι] in
theorem Pc.barred_of_rests (rested : pc.rests = true) : pc.barred = true := by
  cases pc <;> first | rfl | cases rested

theorem close_of_step (rested : pc.rests = true) (call : choice.call = .close)
    (taken : step thread choice shared pc = some (shared', pc')) :
    shared.close = some shared' := by
  cases pc with
  | rest last =>
      rw [step, call, Call.start, Option.map_eq_some_iff] at taken
      obtain ⟨closed, closing, equal⟩ := taken
      cases equal
      exact closing
  | _ => cases rested

/-- A closed gate in one state. -/
structure ClosedLaw (state : Threads ι (Shared ι) (Pc ι)) : Prop where
  shut : state.shared.closed = true →
    state.shared.entries = [] ∧ state.shared.available = 0
  /-- A thread without a ticket has an idle and open cell, which no entry refers to. -/
  reusable : ∀ thread, (state.locals thread).reserved = false →
    (state.shared.word thread).phase = .idle ∧ (state.shared.word thread).closed = false ∧
      thread ∉ state.shared.entries.map Entry.wait
  /-- No assertion fails. -/
  sound : ∀ thread message, state.locals thread ≠ .panicked message
  /-- The next wait of a thread recycles its cell. -/
  recycles : ∀ thread choice, state.locals thread = .enter → choice.failure = none →
    ∃ shared', step thread choice state.shared .enter = some (shared', .reserve) ∧
      Fresh (shared'.word thread)

omit [DecidableEq ι] in
/-- A thread without a ticket has a cell that it can use again. -/
theorem Fits.reusable {view : View} (fits : Fits view pc) (unreserved : pc.reserved = false) :
    view.word.phase = .idle ∧ view.word.closed = false ∧ ¬ view.queued := by
  have reusable : ∀ {carried : Nat}, view.Away carried →
      view.word.phase = .idle ∧ view.word.closed = false ∧ ¬ view.queued :=
    fun away => ⟨away.idle, away.openCell, away.queued⟩
  cases pc with
  | rest | enter | publish | signal => exact reusable fits
  | tryTake | reserve => exact reusable fits.1
  | panicked => exact fits.elim
  | subscribe | waiting | check | loadClosed | takeResource | complete | dropTicket | dropClosed
  | reset | release => cases unreserved

theorem closed_law (reachable : (program available maximum).system.Reachable state) :
    ClosedLaw state := by
  obtain ⟨inv, known⟩ := reachable_inv reachable
  refine ⟨inv.shut, fun thread => (known thread).1.reusable, (reachable_balance reachable).sound,
    ?_⟩
  intro thread choice enters passes
  have fits := (known thread).1
  rw [enters] at fits
  have recycled := recycle_sound inv fits
  rw [step, passes]
  generalize (recycle (state.shared.word thread) : Decision) = decision at recycled ⊢
  split at recycled
  · rename_i next won
    exact ⟨state.shared.setWord thread next, rfl, recycled.fits.2⟩
  · exact ⟨state.shared, rfl, recycled.fits.2⟩
  · exact recycled.elim

/-- What comes after a close.  In every later state the gate is closed and stores nothing, and a
call of a thread that rested at the close takes nothing. -/
structure ClosedLater (state : Threads ι (Shared ι) (Pc ι))
    (state' : Threads ι (Shared ι) (Pc ι)) : Prop where
  closed : state'.shared.closed = true
  available : state'.shared.available = 0
  entries : state'.shared.entries = []
  refused : ∀ thread, (state.locals thread).rests = true →
    (state'.locals thread).taking = true → ∀ choice shared' pc',
      step thread choice state'.shared (state'.locals thread) = some (shared', pc') →
        pc' = .rest (.error .closed)

/-- What becomes of a queued ticket: it is in no queue, its call returns the error that was due
at the close or that of a later check of its own, and it comes closer to that with each step. -/
structure ClosedTicket (thread : ι) (ends : Error → Prop)
    (state : Threads ι (Shared ι) (Pc ι)) : Prop where
  removed : thread ∉ state.shared.entries.map Entry.wait
  returns : ∀ last, state.locals thread = .rest last → ∃ error, last = .error error ∧ ends error
  goes : (state.locals thread).rests = false → ∀ choice : Choice ι,
    (∀ error, choice.failure = some error ∨ choice.park.failure = some error → ends error) →
      ∃ shared' pc', step thread choice state.shared (state.locals thread) = some (shared', pc') ∧
        pc'.remaining < (state.locals thread).remaining

/-- A close of a gate is final, for later takes and for queued tickets. -/
theorem gate_closes {ι : Type} [DecidableEq ι] (available maximum : Nat) :
    (∀ state : Threads ι (Shared ι) (Pc ι),
      (program available maximum).system.Reachable state → ClosedLaw state) ∧
    (∀ state state' : Threads ι (Shared ι) (Pc ι),
      (program available maximum).system.Reachable state → state.shared.closed = true →
        Later state state' → ClosedLater state state') ∧
    ∀ (state state' : Threads ι (Shared ι) (Pc ι)) (closer : ι) (choice : Choice ι) shared' pc'
      (thread : ι) (fails : Error → Prop),
      (program available maximum).system.Reachable state →
        (state.locals closer).rests = true → choice.call = .close →
          step closer choice state.shared (state.locals closer) = some (shared', pc') →
            thread ∈ state.shared.entries.map Entry.wait →
              Until thread fails (afterStep state closer shared' pc') state' →
                ClosedTicket thread (fun error => fails error ∨
                  error = (state.locals thread).verdict (state.shared.timed thread)
                    (state.shared.word thread)) state' := by
  refine ⟨fun state => closed_law, ?_, ?_⟩
  · intro state state' reachable closed later
    have after := later.closed reachable closed
    have shut := (closed_law after.1).shut after.2
    refine ⟨after.2, shut.2, shut.1, ?_⟩
    intro thread rested taking choice shared' pc' taken
    have barred := later.barred reachable closed (Pc.barred_of_rests rested)
    obtain ⟨inv, known⟩ := reachable_inv after.1
    exact (barred_step (known thread).1 inv (known thread).2 barred after.2 taken).2 taking
  · intro state state' closer choice shared' pc' thread fails reachable rested call taken queued run
    obtain ⟨inv, known⟩ := reachable_inv reachable
    have closing := close_of_step rested call taken
    have apart : thread ≠ closer := by
      rintro rfl
      obtain ⟨stage, waits⟩ | ⟨error, drops⟩ := (known thread).1.queued queued
      · simp [waits, Pc.rests] at rested
      · simp [drops, Pc.rests] at rested
    have ended := @close_ended _ _ _ _ _ _ inv (known thread).1 queued closing
      (fun error => fails error ∨ error = (state.locals thread).verdict
        (state.shared.timed thread) (state.shared.word thread)) (.inr rfl)
    obtain ⟨reachable', ended'⟩ := run.ended (reachable_afterStep reachable taken)
      (fun error failed => Or.inl failed) (by rwa [afterStep_shared, afterStep_other apart])
    obtain ⟨inv', known'⟩ := reachable_inv reachable'
    refine ⟨ended'.queued, ?_, ?_⟩
    · intro last rests
      have stands := ended'.stands
      rw [rests] at stands
      exact stands.2
    · intro running choice fails
      obtain ⟨shared', pc', taken, less, -⟩ := ended'.step inv' (known' thread).1 running fails
      exact ⟨shared', pc', taken, less⟩

/-! ## Runs -/

/-- The error that a call has returned. -/
def Pc.error? : Pc ι → Option Error
  | .rest (.error error) => some error
  | _ => none

omit [DecidableEq ι] in
theorem Pc.eq_of_error? {error : Error} (returned : pc.error? = some error) :
    pc = .rest (.error error) := by
  cases pc with
  | rest last =>
      cases last with
      | ok value => cases returned
      | error other =>
          cases returned
          rfl
  | _ => cases returned

theorem Until.later {fails : Error → Prop} (run : Until thread fails state state') :
    Later state state' := by
  induction run with
  | refl => exact .refl
  | tail _ moved ih =>
      obtain ⟨mover, choice, shared, pc, -, moved⟩ := moved
      exact .tail ih ⟨mover, choice, shared, pc, moved⟩

/-- A schedule that stops at the end of a call and fails only the checks it may fail. -/
theorem until_of_run {fails : Error → Prop} {schedule : List (ι × Choice ι)}
    (checks : ∀ entry ∈ schedule, (∀ error ∈ entry.2.failure, fails error) ∧
      ∀ error ∈ entry.2.park.failure, fails error)
    (runs : (scheduler ι available maximum).runGuarded
      (fun state _ => (state.locals thread).rests = false) schedule state = some state') :
    Until thread fails state state' := by
  induction schedule generalizing state with
  | nil =>
      cases runs
      exact .refl
  | cons entry rest ih =>
      obtain ⟨mover, choice⟩ := entry
      rw [Program.Scheduler.runGuarded] at runs
      split at runs
      · rename_i running
        split at runs
        · cases runs
        · rename_i shared pc taken
          obtain ⟨call, park⟩ := checks _ List.mem_cons_self
          have own : ∀ error, choice.failure = some error ∨ choice.park.failure = some error →
              fails error := fun error failed => failed.elim (call error) (park error)
          exact .head ⟨mover, choice, shared, pc, fun _ => ⟨running, own⟩, taken, rfl⟩
            (ih (fun entry member => checks entry (List.mem_cons_of_mem _ member)) runs)
      · cases runs

/-- Thread 1 waits, thread 0 closes the gate, and thread 1 goes on to its end. -/
def closedRun (rest : List (Nat × Choice Nat)) :
    Option (Threads Nat (Shared Nat) (Pc Nat) × (Shared Nat × Pc Nat) ×
      Threads Nat (Shared Nat) (Pc Nat)) :=
  ((scheduler Nat 0 1).run (steps 1 .take 8) (unused 0 1 2)).bind fun before =>
    (step 0 (calls .close none) before.shared (before.locals 0)).bind fun closed =>
      ((scheduler Nat 0 1).runGuarded (fun state _ => (state.locals 1).rests = false)
        rest (afterStep before 0 closed.1 closed.2)).map fun after => (before, closed, after)

/-- What the run of a waiter shows: it was queued, its verdict, and the error it returns. -/
theorem closedRun_spec {rest : List (Nat × Choice Nat)} {fails : Error → Prop} {due ends : Error}
    (checks : ∀ entry ∈ rest, (∀ error ∈ entry.2.failure, fails error) ∧
      ∀ error ∈ entry.2.park.failure, fails error)
    (shows : (closedRun rest).map (fun result =>
      (result.1.shared.entries.map Entry.wait, (result.1.locals 0).rests,
        (result.1.locals 1).verdict (result.1.shared.timed 1) (result.1.shared.word 1),
          (result.2.2.locals 1).error?)) = some ([1], true, due, some ends)) :
    ∃ before shared' pc' after,
      (program 0 1).system.Reachable before ∧ (before.locals 0).rests = true ∧
      step 0 (calls .close none) before.shared (before.locals 0) = some (shared', pc') ∧
      1 ∈ before.shared.entries.map Entry.wait ∧
      (before.locals 1).verdict (before.shared.timed 1) (before.shared.word 1) = due ∧
      Until 1 fails (afterStep before 0 shared' pc') after ∧
      after.locals 1 = .rest (.error ends) := by
  obtain ⟨⟨before, ⟨shared', pc'⟩, after⟩, run, view⟩ := Option.map_eq_some_iff.mp shows
  rw [closedRun, Option.bind_eq_some_iff] at run
  obtain ⟨before', waits, run⟩ := run
  rw [Option.bind_eq_some_iff] at run
  obtain ⟨closed, closes, run⟩ := run
  rw [Option.map_eq_some_iff] at run
  obtain ⟨after', goes, equal⟩ := run
  obtain ⟨rfl, rfl, rfl⟩ : before' = before ∧ closed = (shared', pc') ∧ after' = after := by
    simpa using equal
  simp only [Prod.mk.injEq] at view
  obtain ⟨queued, rests, verdict, ended⟩ := view
  have reachable := (scheduler Nat 0 1).run_reachable (unused_reachable 0 1 Nat.two_pos) waits
  refine ⟨before', shared', pc', after', reachable, rests, closes, ?_, verdict,
    until_of_run checks goes, Pc.eq_of_error? ended⟩
  rw [queued]
  exact List.mem_singleton_self 1

/-- The close finds the waiter parked, and the waiter returns `Closed`. -/
theorem gate_closes_parked :
    ∃ before shared' pc' after, (program 0 1).system.Reachable before ∧
      step 0 (calls .close none) before.shared (before.locals 0) = some (shared', pc') ∧
      Until 1 (fun _ => False) (afterStep before 0 shared' pc') after ∧
      after.locals 1 = .rest (.error .closed) ∧
      ClosedLaw after ∧ ClosedLater (afterStep before 0 shared' pc') after ∧
      ClosedTicket 1 (fun error => False ∨ error = (before.locals 1).verdict
        (before.shared.timed 1) (before.shared.word 1)) after := by
  obtain ⟨before, shared', pc', after, reachable, rests, closes, queued, -, run, ended⟩ :=
    @closedRun_spec (steps 1 .take 7) (fun _ => False) .closed .closed (by decide) (by decide)
  have next := reachable_afterStep reachable closes
  have closed : shared'.closed = true := by
    have closing := close_of_step rests rfl closes
    rw [Shared.close, Option.map_eq_some_iff] at closing
    obtain ⟨word, -, rfl⟩ := closing
    rfl
  exact ⟨before, shared', pc', after, reachable, closes, run, ended,
    (gate_closes 0 1).1 after (run.later.closed next closed).1,
    (gate_closes 0 1).2.1 _ after next closed run.later,
    (gate_closes 0 1).2.2 before after 0 _ shared' pc' 1 _ reachable rests rfl closes queued run⟩

/-- The close finds the waiter parked.  The waiter is cancelled after the close, and its own check
fails before it looks at the gate. -/
theorem late_check_outlives_close :
    ∃ before shared' pc' after, (program 0 1).system.Reachable before ∧
      (before.locals 0).rests = true ∧
      step 0 (calls .close none) before.shared (before.locals 0) = some (shared', pc') ∧
      1 ∈ before.shared.entries.map Entry.wait ∧
      (before.locals 1).verdict (before.shared.timed 1) (before.shared.word 1) = .closed ∧
      Until 1 (· = .cancelled) (afterStep before 0 shared' pc') after ∧
      after.locals 1 = .rest (.error .cancelled) :=
  @closedRun_spec
    (steps 1 .take 1 ++ [(1, calls .take (some .cancelled))] ++ steps 1 .take 4)
    (· = .cancelled) .closed .cancelled (by decide) (by decide)

end VThread.Gate

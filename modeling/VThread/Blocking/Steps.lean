import VThread.Blocking.Invariant

/-!
# Steps of the pool

Every step touches one job at most: what others rely on in the rest of the pool stays.
-/

namespace VThread.Blocking

open VThread.Lib VThread.Wait

variable {ω μ : Type}

/-! ## One job at a time -/

/-- Everything but one job is as before. -/
structure Touches (id : JobId) (shared shared' : Shared ω) : Prop where
  capacity : shared'.capacity = shared.capacity
  accepted : shared'.accepted = shared.accepted
  jobs : ∀ other, other ≠ id → shared'.jobs other = shared.jobs other
  place : ∀ other, other ≠ id →
    shared'.placement.place other = shared.placement.place other
  holder : ∀ other, other ≠ id → shared'.holder other = shared.holder other

section Touch

variable {shared shared' : Shared ω} {id : JobId} {worker : Option ω}

theorem Touches.frame (touches : Touches id shared shared')
    (stopped : shared.state.stopped = true → shared'.state.stopped = true)
    (charged : shared'.charged ≤ shared.charged)
    (queue : shared.state.queue = [] → shared'.state.queue = [])
    (ended : (shared.jobs id).Ended → (shared'.jobs id).Ended)
    (doomed : shared.state.stopped = true → Doomed shared id → Doomed shared' id)
    (held : Held (shared.placement.place id) → shared.holder id ≠ worker →
      shared'.placement.place id = shared.placement.place id ∧
        shared'.holder id = shared.holder id ∧ (shared.jobs id).Kept (shared'.jobs id)) :
    Frame worker shared shared' where
  capacity := touches.capacity
  accepted := Nat.le_of_eq touches.accepted.symm
  stopped := stopped
  charged := fun _ => charged
  queue := fun _ => queue
  ended := by
    intro other _ before
    by_cases same : other = id
    · rw [same] at before ⊢
      exact ended before
    · rw [touches.jobs other same]
      exact before
  doomed := by
    intro halted other _ before
    by_cases same : other = id
    · rw [same] at before ⊢
      exact doomed halted before
    · rw [Doomed, touches.jobs other same, touches.place other same]
      exact before
  held := by
    intro other _ isHeld foreign
    by_cases same : other = id
    · rw [same] at isHeld foreign ⊢
      exact held isHeld foreign
    · rw [touches.jobs other same]
      exact ⟨touches.place other same, touches.holder other same, .refl _⟩

/-- The counters of the pool agree with the places of the charges. -/
structure Agrees (shared : Shared ω) : Prop where
  queue : shared.state.queue = shared.placement.items .queued
  completed : shared.state.completed = shared.placement.items .completed
  running : shared.state.running = (shared.placement.items .running).length
  discarding : shared.state.discarding = (shared.placement.items .discarding).length

theorem Shared.Inv.setJob_agrees (inv : shared.Inv) {job : Job} :
    Agrees (shared.setJob id job) :=
  ⟨inv.queue, inv.completed, inv.running, inv.discarding⟩

theorem Touches.inv (touches : Touches id shared shared') (inv : shared.Inv)
    (agrees : Agrees shared') (accepted : id < shared.accepted)
    (charged : shared'.charged ≤ shared.charged)
    (failed : shared'.state.failed = true → shared'.state.stopped = true)
    (stopped : shared'.state.stopped = false → shared.state.stopped = false)
    (unclosed : shared'.state.stopped = false → shared'.placement.place id = some .queued →
      (shared'.jobs id).ending ≠ some .pool)
    (sound : (shared'.jobs id).Sound)
    (settled : (shared'.jobs id).At (shared'.placement.place id)) : shared'.Inv where
  queue := agrees.queue
  completed := agrees.completed
  running := agrees.running
  discarding := agrees.discarding
  placed := by
    intro other placed
    rw [touches.accepted]
    by_cases same : other = id
    · rw [same]
      exact accepted
    · rw [touches.place other same] at placed
      exact inv.placed other placed
  bounded := by
    rw [touches.capacity]
    exact Nat.le_trans charged inv.bounded
  failed := failed
  unclosed := by
    intro running other below queued
    rw [touches.accepted] at below
    by_cases same : other = id
    · rw [same] at queued ⊢
      exact unclosed running queued
    · rw [touches.place other same] at queued
      rw [touches.jobs other same]
      exact inv.unclosed (stopped running) other below queued
  sound := by
    intro other below
    rw [touches.accepted] at below
    by_cases same : other = id
    · rw [same]
      exact sound
    · rw [touches.jobs other same]
      exact inv.sound other below
  settled := by
    intro other below
    rw [touches.accepted] at below
    by_cases same : other = id
    · rw [same]
      exact settled
    · rw [touches.jobs other same, touches.place other same]
      exact inv.settled other below

theorem setJob_touches (id : JobId) (job : Job) : Touches id shared (shared.setJob id job) :=
  ⟨rfl, rfl, fun _ ne => Function.update_of_ne ne .., fun _ _ => rfl, fun _ _ => rfl⟩

@[simp] theorem setJob_jobs_self (job : Job) : (shared.setJob id job).jobs id = job :=
  Function.update_self ..

end Touch

/-! ## A worker and its job -/

/-- A step of a worker. -/
structure Worked (worker : ω) (shared : Shared ω) (result : Shared ω × Stage) : Prop where
  inv : result.1.Inv
  fact : WorkerFact worker result.1 result.2
  frame : Frame (some worker) shared result.1

section Worker

variable {shared : Shared ω} {worker : ω}

theorem Frame.refl (other : Option ω) (shared : Shared ω) : Frame other shared shared where
  capacity := rfl
  accepted := Nat.le_refl _
  stopped := fun stopped => stopped
  charged := fun _ => Nat.le_refl _
  queue := fun _ empty => empty
  ended := fun _ _ ended => ended
  doomed := fun _ _ _ doomed => doomed
  held := fun _ _ _ _ => ⟨rfl, rfl, .refl _⟩

theorem Worked.stay (inv : shared.Inv) {stage : Stage} (fact : WorkerFact worker shared stage) :
    Worked worker shared (shared, stage) :=
  ⟨inv, fact, .refl _ _⟩

/-- What a worker in a round after a failure knows. -/
abbrev Rounds (left : Option Nat) (charge : Charge) (shared : Shared ω) : Prop :=
  ∀ rounds, left = some rounds →
    shared.state.stopped = true ∧ charge.discard = true ∧ shared.charged ≤ rounds + 1

variable {left : Option Nat} {charge : Charge} {stage' : ExecuteStage}

/-- A worker changes the job it holds. -/
theorem Worked.change (inv : shared.Inv) (holds : Holds worker charge shared)
    (rounds : Rounds left charge shared) {job : Job} (sound : job.Sound)
    (releases : job.releases = (shared.jobs charge.job).releases)
    (ended : (shared.jobs charge.job).Ended → job.Ended)
    (discarded : job.discarded = (shared.jobs charge.job).discarded)
    (fact : ExecuteFact charge job stage') :
    Worked worker shared (shared.setJob charge.job job, .execute left charge stage') where
  inv := by
    apply (setJob_touches charge.job job).inv inv inv.setJob_agrees holds.accepted
      (Nat.le_refl _) inv.failed (fun running => running)
    · intro _ queued
      change shared.placement.place charge.job = some .queued at queued
      have held := holds.held
      rw [queued] at held
      rcases held with held | held <;> cases held
    · rwa [setJob_jobs_self]
    · have settled := inv.settled _ holds.accepted
      rw [setJob_jobs_self]
      change job.At (shared.placement.place charge.job)
      rw [holds.place] at settled ⊢
      cases discard : charge.discard with
      | false | true =>
          rw [discard] at settled
          exact releases.trans settled
  fact := by
    refine .inl ⟨⟨holds.accepted, holds.holder, holds.place, holds.retained⟩, ?_, rounds⟩
    rwa [setJob_jobs_self]
  frame := by
    apply (setJob_touches charge.job job).frame (fun stopped => stopped) (Nat.le_refl _)
      (fun empty => empty)
    · rwa [setJob_jobs_self]
    · intro _ doomed
      rw [Doomed, setJob_jobs_self, discarded]
      exact doomed
    · intro _ foreign
      exact (foreign holds.holder).elim

/-- A worker goes on with the job as it is. -/
theorem Worked.go (inv : shared.Inv) (holds : Holds worker charge shared)
    (rounds : Rounds left charge shared)
    (fact : ExecuteFact charge (shared.jobs charge.job) stage') :
    Worked worker shared (shared, .execute left charge stage') :=
  .stay inv (.inl ⟨holds, fact, rounds⟩)

/-- A worker counts a panic. -/
theorem Worked.count (inv : shared.Inv) (holds : Holds worker charge shared)
    (rounds : Rounds left charge shared) (panicked : Bool)
    (fact : ExecuteFact charge (shared.jobs charge.job) stage') :
    Worked worker shared (shared.addPanic panicked, .execute left charge stage') where
  inv := ⟨inv.queue, inv.completed, inv.running, inv.discarding, inv.placed, inv.bounded,
    inv.failed, inv.unclosed, inv.sound, inv.settled⟩
  fact := .inl ⟨⟨holds.accepted, holds.holder, holds.place, holds.retained⟩, fact, rounds⟩
  frame := ⟨rfl, Nat.le_refl _, fun stopped => stopped, fun _ => Nat.le_refl _,
    fun _ empty => empty, fun _ _ ended => ended, fun _ _ _ doomed => doomed,
    fun _ _ _ _ => ⟨rfl, rfl, .refl _⟩⟩

variable {flag : Bool} {result : Shared ω × Stage}

theorem selectClosed_worked (inv : shared.Inv) (holds : Holds worker charge shared)
    (rounds : Rounds left charge shared)
    (fact : ExecuteFact charge (shared.jobs charge.job) .selectClosed)
    (stepped : executeStep flag left charge shared .selectClosed = some result) :
    Worked worker shared result := by
  obtain ⟨wake, discard, discarded, fresh⟩ := fact
  have sound := inv.sound _ holds.accepted
  obtain ⟨job, selected, rfl⟩ := Option.map_eq_some_iff.1 stepped
  have kept := Job.select_kept sound (fun _ => discarded) selected
  apply Worked.change inv holds rounds
  · apply Job.select_sound sound (by rintro _ ⟨⟩; rfl) (by nofun) ?_ selected
    intro _ stored
    rw [fresh.stored] at stored
    cases stored
  · exact kept.releases
  · exact kept.ended
  · exact kept.discarded
  · refine ⟨wake, kept.fresh fresh, fun _ => ?_, fun run => ?_⟩
    · exact ⟨kept.discarded.trans discarded, Job.select_ended sound selected⟩
    · rw [discard] at run
      cases run

theorem body_worked (inv : shared.Inv) (holds : Holds worker charge shared)
    (rounds : Rounds left charge shared)
    (fact : ExecuteFact charge (shared.jobs charge.job) .body)
    (stepped : executeStep flag left charge shared .body = some result) :
    Worked worker shared result := by
  obtain ⟨wake, fresh, dropped, run⟩ := fact
  have sound := inv.sound _ holds.accepted
  rw [executeStep] at stepped
  split at stepped
  · rename_i discard
    cases stepped
    apply Worked.change inv holds rounds (sound.consume fresh.bodies fresh.reclaims .dropped) rfl
      (fun ended => ended) rfl
    refine ⟨wake, fresh.consumed .dropped, fun _ => (dropped discard).1, fun ran => ?_⟩
    rw [discard] at ran
    cases ran
  · rename_i notDiscard
    split at stepped
    · rename_i abandoned
      cases stepped
      apply Worked.change inv holds rounds (sound.consume fresh.bodies fresh.reclaims .ran) rfl
        (fun ended => ended) rfl
      exact ⟨wake, fresh.consumed .ran, fun discard => (notDiscard discard).elim,
        fun _ => .inl abandoned⟩
    · cases stepped
      have discard : charge.discard = false := Bool.eq_false_iff.2 notDiscard
      exact .go inv holds rounds ⟨wake, fresh, discard, run discard⟩

theorem store_worked (inv : shared.Inv) (holds : Holds worker charge shared)
    (rounds : Rounds left charge shared) (outcome : Result)
    (fact : ExecuteFact charge (shared.jobs charge.job) (.store outcome))
    (stepped : executeStep flag left charge shared (.store outcome) = some result) :
    Worked worker shared result := by
  obtain ⟨wake, fresh, discard, discarded, ending⟩ := fact
  have sound := inv.sound _ holds.accepted
  cases stepped
  apply Worked.change inv holds rounds
  · exact { sound with
      body := fun _ => rfl
      pool := fun pool => (ending pool).elim
      discarded := fun held => by
        change (shared.jobs charge.job).discarded = true at held
        rw [discarded] at held
        cases held }
  · rfl
  · exact fun ended => ended
  · rfl
  · exact ⟨wake, discard, discarded, fresh.bodies, fresh.reclaims, rfl⟩

theorem selectReady_worked (inv : shared.Inv) (holds : Holds worker charge shared)
    (rounds : Rounds left charge shared) (panicked : Bool)
    (fact : ExecuteFact charge (shared.jobs charge.job) (.selectReady panicked))
    (stepped : executeStep flag left charge shared (.selectReady panicked) = some result) :
    Worked worker shared result := by
  obtain ⟨wake, discard, discarded, bodies, reclaims, stored⟩ := fact
  have sound := inv.sound _ holds.accepted
  obtain ⟨job, selected, rfl⟩ := Option.map_eq_some_iff.1 stepped
  have kept := Job.select_kept sound (by nofun) selected
  have ended := Job.select_ended sound selected
  have sound' := Job.select_sound sound (by rintro _ ⟨⟩; rfl) (fun _ => stored) (by nofun)
    selected
  apply Worked.change inv holds rounds
  · exact sound'.consume (kept.bodies.trans bodies) (kept.reclaims.trans reclaims) .ran
  · exact kept.releases
  · exact fun _ => ended
  · exact kept.discarded
  · refine ⟨wake, ⟨?_, kept.reclaims.trans reclaims, fun _ => ended⟩, fun dropped => ?_,
      fun _ => .inr (kept.stored.trans stored)⟩
    · rw [kept.bodies, bodies]
      rfl
    · rw [discard] at dropped
      cases dropped

theorem settle_worked (inv : shared.Inv) (holds : Holds worker charge shared)
    (rounds : Rounds left charge shared)
    (fact : ExecuteFact charge (shared.jobs charge.job) .settle)
    (stepped : executeStep flag left charge shared .settle = some result) :
    Worked worker shared result := by
  obtain ⟨wake, consumed, dropped, run⟩ := fact
  have woken : charge.wake = false → (shared.jobs charge.job).Ended := by
    intro unwoken
    rw [wake] at unwoken
    cases unwoken
  rw [executeStep] at stepped
  split at stepped
  · rename_i given
    cases stepped
    apply Worked.go inv holds rounds
    rcases given with discard | abandoned
    · exact ⟨consumed, .inr (dropped discard), woken⟩
    · exact ⟨consumed, .inl abandoned, woken⟩
  · rename_i kept
    cases stepped
    obtain ⟨discard, abandoned⟩ := not_or.1 kept
    have discard := Bool.eq_false_iff.2 discard
    exact .go inv holds rounds ⟨wake, discard, consumed, (run discard).resolve_left abandoned⟩

theorem destroy_worked (inv : shared.Inv) (holds : Holds worker charge shared)
    (rounds : Rounds left charge shared)
    (fact : ExecuteFact charge (shared.jobs charge.job) .destroy)
    (stepped : executeStep flag left charge shared .destroy = some result) :
    Worked worker shared result := by
  obtain ⟨consumed, given, ended⟩ := fact
  have sound := inv.sound _ holds.accepted
  have once : (shared.jobs charge.job).reclaims + 1 = 1 := by rw [consumed.reclaims]
  cases stepped
  apply Worked.change inv holds rounds
  · exact { sound with
      reclaims := Nat.le_of_eq once
      reclaimed := fun _ => ⟨consumed.bodies, given⟩ }
  · rfl
  · exact fun ended => ended
  · rfl
  · exact ⟨⟨consumed.bodies, once, consumed.stored⟩, ended⟩

theorem countReclaim_worked (inv : shared.Inv) (holds : Holds worker charge shared)
    (rounds : Rounds left charge shared) (panicked : Bool)
    (fact : ExecuteFact charge (shared.jobs charge.job) (.countReclaim panicked))
    (stepped : executeStep flag left charge shared (.countReclaim panicked) = some result) :
    Worked worker shared result := by
  obtain ⟨consumed, ended⟩ := fact
  cases stepped
  cases wake : charge.wake with
  | false => exact .count inv holds rounds panicked ⟨consumed, ended wake⟩
  | true => exact .count inv holds rounds panicked consumed

/-- The charge is dropped: the wait ends before the capacity is released. -/
theorem close_worked (inv : shared.Inv) (holds : Holds worker charge shared)
    (rounds : Rounds left charge shared)
    (consumed : ExecuteFact charge (shared.jobs charge.job) .close)
    (stepped : executeStep flag left charge shared .close = some result) :
    Worked worker shared result := by
  have sound := inv.sound _ holds.accepted
  obtain ⟨job, selected, rfl⟩ := Option.map_eq_some_iff.1 stepped
  have ended := Job.select_ended sound selected
  have sound' := Job.select_sound sound (by rintro _ ⟨⟩; rfl) (by nofun)
    (fun _ => consumed.stored) selected
  rw [holds.retained]
  apply Worked.change inv holds rounds sound'
  · rcases Job.select_cases sound selected with ⟨-, rfl⟩ | ⟨-, rfl⟩ <;> rfl
  · exact fun _ => ended
  · rcases Job.select_cases sound selected with ⟨-, rfl⟩ | ⟨-, rfl⟩ <;> rfl
  · refine ⟨⟨?_, ?_, fun _ => ended⟩, ended⟩
    · rcases Job.select_cases sound selected with ⟨-, rfl⟩ | ⟨-, rfl⟩ <;>
        exact consumed.bodies
    · rcases Job.select_cases sound selected with ⟨-, rfl⟩ | ⟨-, rfl⟩ <;>
        exact consumed.reclaims

theorem setJob_self (id : JobId) : shared.setJob id (shared.jobs id) = shared := by
  rw [Shared.setJob, Function.update_eq_self]

/-- The charge of a retained result is dropped. -/
theorem closeRetained_worked (inv : shared.Inv) (retained : charge.retained = true)
    (accepted : charge.job < shared.accepted) (ended : (shared.jobs charge.job).Ended)
    (stepped : executeStep flag none charge shared .close = some result) :
    Worked worker shared result := by
  obtain ⟨job, selected, rfl⟩ := Option.map_eq_some_iff.1 stepped
  rcases Job.select_cases (inv.sound _ accepted) selected with ⟨-, rfl⟩ | ⟨none, -⟩
  · rw [retained, setJob_self]
    exact .stay inv trivial
  · exact (ended none).elim

theorem retain_worked (inv : shared.Inv) (holds : Holds worker charge shared)
    (rounds : Rounds left charge shared)
    (fact : ExecuteFact charge (shared.jobs charge.job) .retain)
    (stepped : executeStep flag left charge shared .retain = some result) :
    Worked worker shared result := by
  obtain ⟨wake, discard, consumed, stored⟩ := fact
  have place : shared.placement.place charge.job = some .running := by
    rw [holds.place, discard]
    rfl
  have one := Placement.length_erase place
  rw [← inv.running] at one
  have running : shared.state.running ≠ 0 := by omega
  rw [executeStep, if_neg running] at stepped
  cases stepped
  have touches : Touches charge.job shared
      { shared.moveJob charge.job .completed none with
        state := { shared.state with
          running := shared.state.running - 1
          completed := shared.state.completed ++ [charge.job] } } :=
    ⟨rfl, rfl, fun _ _ => rfl, fun _ ne => Placement.move_place_ne ne,
      fun _ ne => Function.update_of_ne ne ..⟩
  have charged : shared.state.queue.length + (shared.state.completed ++ [charge.job]).length +
      (shared.state.running - 1) + shared.state.discarding ≤ shared.charged := by
    rw [Shared.charged, List.length_append, List.length_singleton]
    omega
  refine ⟨?_, ?_, ?_⟩
  · apply touches.inv inv ?_ holds.accepted charged inv.failed (fun running => running) ?_
      (inv.sound _ holds.accepted)
    · change (shared.jobs charge.job).At
        ((shared.placement.move charge.job .completed).place charge.job)
      have settled := inv.settled _ holds.accepted
      rw [place] at settled
      rw [Placement.move_place_self]
      exact ⟨consumed, stored, settled⟩
    · constructor
      · rw [Shared.moveJob, Placement.move_items_other (by decide) (by rw [place]; decide)]
        exact inv.queue
      · rw [Shared.moveJob, Placement.move_items_self (by rw [place]; decide), ← inv.completed]
      · rw [Shared.moveJob, Placement.move_items_ne (by decide)]
        change shared.state.running - 1 = _
        omega
      · rw [Shared.moveJob, Placement.move_items_other (by decide) (by rw [place]; decide)]
        exact inv.discarding
    · intro _ queued
      change (shared.placement.move charge.job .completed).place charge.job = _ at queued
      rw [Placement.move_place_self] at queued
      cases queued
  · refine .inr ⟨rfl, rfl, ?_, holds.accepted, consumed.stored stored⟩
    cases left with
    | none => rfl
    | some left =>
        obtain ⟨-, dropped, -⟩ := rounds left rfl
        rw [discard] at dropped
        cases dropped
  · apply touches.frame (fun stopped => stopped) charged (fun empty => empty)
      (fun ended => ended)
    · rintro _ (queued | discarded)
      · rw [place] at queued
        cases queued
      · exact .inr discarded
    · intro _ foreign
      exact (foreign holds.holder).elim

theorem Worked.released (inv : shared.Inv) (holds : Holds worker charge shared)
    (rounds : Rounds left charge shared)
    (fact : ExecuteFact charge (shared.jobs charge.job) .release) {state : State}
    (queue : state.queue = shared.state.queue)
    (completed : state.completed = shared.state.completed)
    (stopped : state.stopped = shared.state.stopped)
    (failed : state.failed = shared.state.failed)
    (running : state.running = ((shared.placement.remove charge.job).items .running).length)
    (discarding : state.discarding =
      ((shared.placement.remove charge.job).items .discarding).length)
    (charged : (shared.released charge.job state).charged + 1 = shared.charged) :
    Worked worker shared (shared.released charge.job state, afterJob left) := by
  obtain ⟨consumed, ended⟩ := fact
  have releases : (shared.jobs charge.job).releases = 0 := by
    have settled := inv.settled _ holds.accepted
    rw [holds.place] at settled
    cases discard : charge.discard with
    | false | true =>
        rw [discard] at settled
        exact settled
  have notQueued : shared.placement.place charge.job ≠ some .queued := by
    rw [holds.place]
    cases charge.discard <;> decide
  have notCompleted : shared.placement.place charge.job ≠ some .completed := by
    rw [holds.place]
    cases charge.discard <;> decide
  have touches : Touches charge.job shared (shared.released charge.job state) :=
    ⟨rfl, rfl, fun _ ne => Function.update_of_ne ne .., fun _ ne => Function.update_of_ne ne ..,
      fun _ ne => Function.update_of_ne ne ..⟩
  have job : (shared.released charge.job state).jobs charge.job =
      { shared.jobs charge.job with releases := (shared.jobs charge.job).releases + 1 } :=
    Function.update_self ..
  refine ⟨?_, ?_, ?_⟩
  · apply touches.inv inv ?_ holds.accepted (Nat.le_of_succ_le (Nat.le_of_eq charged))
    · change state.failed = true → state.stopped = true
      rw [failed, stopped]
      exact inv.failed
    · intro running
      exact stopped.symm.trans running
    · intro _ queued
      change (shared.placement.remove charge.job).place charge.job = some .queued at queued
      rw [Placement.remove_place_self] at queued
      cases queued
    · rw [job]
      exact { inv.sound _ holds.accepted with }
    · rw [job]
      change Job.At _ ((shared.placement.remove charge.job).place charge.job)
      rw [Placement.remove_place_self]
      exact ⟨⟨consumed.bodies, consumed.reclaims, consumed.stored⟩, ended,
        congrArg (· + 1) releases⟩
    · constructor
      · rw [Shared.released, queue, inv.queue]
        exact (Placement.items_erase_of_ne notQueued).symm
      · rw [Shared.released, completed, inv.completed]
        exact (Placement.items_erase_of_ne notCompleted).symm
      · exact running
      · exact discarding
  · cases left with
    | none => trivial
    | some left =>
        intro given same
        cases same
        obtain ⟨halted, -, bound⟩ := rounds left rfl
        refine ⟨stopped.trans halted, ?_⟩
        change (shared.released charge.job state).charged ≤ left
        omega
  · apply touches.frame
    · intro halted
      exact stopped.trans halted
    · exact Nat.le_of_succ_le (Nat.le_of_eq charged)
    · intro empty
      exact queue.trans empty
    · rw [job]
      exact fun _ => ended
    · rintro _ (queued | discarded)
      · exact (notQueued queued).elim
      · right
        rw [job]
        exact discarded
    · intro _ foreign
      exact (foreign holds.holder).elim

theorem release_worked (inv : shared.Inv) (holds : Holds worker charge shared)
    (rounds : Rounds left charge shared)
    (fact : ExecuteFact charge (shared.jobs charge.job) .release) :
    Worked worker shared (releaseStep left charge shared) := by
  have place := holds.place
  rw [releaseStep]
  cases discard : charge.discard with
  | true =>
      rw [discard, if_pos rfl] at place
      have one := Placement.length_erase place
      rw [← inv.discarding] at one
      have discarding : shared.state.discarding ≠ 0 := by omega
      rw [if_pos rfl, if_neg discarding]
      apply Worked.released inv holds rounds fact
      · rfl
      · rfl
      · rfl
      · rfl
      · exact inv.running.trans
          (congrArg List.length (Placement.items_erase_of_ne (by rw [place]; decide)).symm)
      · change shared.state.discarding - 1 = ((shared.placement.items .discarding).erase _).length
        omega
      · change shared.state.queue.length + shared.state.completed.length +
          shared.state.running + (shared.state.discarding - 1) + 1 = shared.charged
        rw [Shared.charged]
        omega
  | false =>
      rw [discard, if_neg Bool.false_ne_true] at place
      have one := Placement.length_erase place
      rw [← inv.running] at one
      have running : shared.state.running ≠ 0 := by omega
      rw [if_neg Bool.false_ne_true, if_neg running]
      apply Worked.released inv holds rounds fact
      · rfl
      · rfl
      · rfl
      · rfl
      · change shared.state.running - 1 = ((shared.placement.items .running).erase _).length
        omega
      · exact inv.discarding.trans
          (congrArg List.length (Placement.items_erase_of_ne (by rw [place]; decide)).symm)
      · change shared.state.queue.length + shared.state.completed.length +
          (shared.state.running - 1) + shared.state.discarding + 1 = shared.charged
        rw [Shared.charged]
        omega

/-- A step of `execute` keeps what the pool and its worker rely on. -/
theorem executeStep_worked {stage : ExecuteStage} (inv : shared.Inv)
    (fact : WorkerFact worker shared (.execute left charge stage))
    (stepped : executeStep flag left charge shared stage = some result) :
    Worked worker shared result := by
  rcases fact with ⟨holds, fact, rounds⟩ | ⟨rfl, retained, rfl, accepted, ended⟩
  · cases stage with
    | selectClosed => exact selectClosed_worked inv holds rounds fact stepped
    | body => exact body_worked inv holds rounds fact stepped
    | running =>
        cases stepped
        exact .go inv holds rounds fact
    | store outcome => exact store_worked inv holds rounds outcome fact stepped
    | selectReady panicked => exact selectReady_worked inv holds rounds panicked fact stepped
    | count panicked =>
        cases stepped
        exact .count inv holds rounds panicked fact
    | settle => exact settle_worked inv holds rounds fact stepped
    | destroy => exact destroy_worked inv holds rounds fact stepped
    | countReclaim panicked => exact countReclaim_worked inv holds rounds panicked fact stepped
    | retain => exact retain_worked inv holds rounds fact stepped
    | close => exact close_worked inv holds rounds fact stepped
    | release =>
        cases stepped
        exact release_worked inv holds rounds fact
  · exact closeRetained_worked inv retained accepted ended stepped

/-! ## Taking a job -/

/-- The abandoned result that `take` finds leaves the list. -/
theorem eraseP_eq_erase {jobs : List JobId} {abandoned : JobId → Bool} {job : JobId}
    (found : jobs.find? abandoned = some job) : jobs.eraseP abandoned = jobs.erase job := by
  induction jobs with
  | nil => cases found
  | cons first rest ih =>
      rw [List.find?_cons] at found
      cases here : abandoned first with
      | true =>
          rw [here] at found
          cases found
          rw [List.eraseP_cons_of_pos here, List.erase_cons_head]
      | false =>
          rw [here] at found
          have ne : first ≠ job := by
            rintro rfl
            have found := List.find?_some found
            rw [here] at found
            cases found
          rw [List.eraseP_cons_of_neg (by rw [here]; nofun), ih found,
            List.erase_cons_tail (by simpa using ne)]

/-- A worker takes the charge of a job that nobody holds. -/
theorem Worked.take (inv : shared.Inv) {job : Job} {state : State} {stage : ExecuteStage}
    (free : ¬ Held (shared.placement.place charge.job))
    (accepted : charge.job < shared.accepted) (retained : charge.retained = false)
    (sound : job.Sound) (releases : job.releases = 0)
    (ended : (shared.jobs charge.job).Ended → job.Ended)
    (doomed : shared.state.stopped = true → Doomed shared charge.job → job.discarded = true)
    (agrees : Agrees (shared.hold worker charge job state))
    (charged : (shared.hold worker charge job state).charged ≤ shared.charged)
    (stopped : state.stopped = shared.state.stopped)
    (failed : state.failed = shared.state.failed)
    (queue : shared.state.queue = [] → state.queue = [])
    (fact : ExecuteFact charge job stage) (rounds : Rounds left charge shared) :
    Worked worker shared (shared.hold worker charge job state, .execute left charge stage) := by
  have touches : Touches charge.job shared (shared.hold worker charge job state) :=
    ⟨rfl, rfl, fun _ ne => Function.update_of_ne ne .., fun _ ne => Placement.move_place_ne ne,
      fun _ ne => Function.update_of_ne ne ..⟩
  have now : (shared.hold worker charge job state).jobs charge.job = job :=
    Function.update_self ..
  have place : (shared.hold worker charge job state).placement.place charge.job =
      some (if charge.discard then .discarding else .running) := Placement.move_place_self
  refine ⟨?_, ?_, ?_⟩
  · apply touches.inv inv agrees accepted charged
    · change state.failed = true → state.stopped = true
      rw [failed, stopped]
      exact inv.failed
    · intro running
      exact stopped.symm.trans running
    · intro _ queued
      rw [place] at queued
      cases discard : charge.discard <;> rw [discard] at queued <;> cases queued
    · rwa [now]
    · rw [now, place]
      cases charge.discard <;> exact releases
  · refine .inl ⟨⟨accepted, Function.update_self .., place, retained⟩, ?_, ?_⟩
    · rwa [now]
    · intro given same
      obtain ⟨halted, discard, bound⟩ := rounds given same
      exact ⟨stopped.trans halted, discard, Nat.le_trans charged bound⟩
  · apply touches.frame
    · intro halted
      exact stopped.trans halted
    · exact charged
    · exact queue
    · rwa [now]
    · intro halted before
      right
      rw [now]
      exact doomed halted before
    · intro held
      exact (free held).elim

theorem take_worked (inv : shared.Inv)
    (rounds : ∀ given, left = some given →
      shared.state.stopped = true ∧ shared.charged ≤ given + 1)
    (taken : shared.take worker left = some result) : Worked worker shared result := by
  rw [Shared.take] at taken
  split at taken
  · rename_i id found
    cases taken
    have erased := eraseP_eq_erase found
    have member := List.mem_of_find?_eq_some found
    have abandoned := List.find?_some found
    rw [inv.completed, Placement.mem_iff] at member
    have accepted : id < shared.accepted := inv.placed id (by rw [member]; nofun)
    have there : ∀ place : Place, place ≠ .discarding → Place.completed ≠ place →
        (shared.placement.move id .discarding).items place = shared.placement.items place :=
      fun place ne elsewhere => Placement.move_items_other ne (by simpa [member] using elsewhere)
    obtain ⟨consumed, stored, releases⟩ : (shared.jobs id).At (some .completed) := by
      rw [← member]
      exact inv.settled id accepted
    apply Worked.take inv
    case free =>
      rw [member]
      rintro (held | held) <;> cases held
    case accepted => exact accepted
    case retained => rfl
    case sound => exact inv.sound id accepted
    case releases => exact releases
    case ended => exact fun ended => ended
    case doomed =>
      rintro _ (queued | discarded)
      · rw [member] at queued
        cases queued
      · exact discarded
    case agrees =>
      constructor
      · exact inv.queue.trans (there .queued (by decide) (by decide)).symm
      · change shared.state.completed.eraseP _ = (shared.placement.move id .discarding).items _
        rw [erased, inv.completed, Placement.move_items_ne (by decide)]
      · exact inv.running.trans (congrArg List.length (there .running (by decide) (by decide)).symm)
      · change shared.state.discarding + 1 =
          ((shared.placement.move id .discarding).items .discarding).length
        rw [Placement.move_items_self (by rw [member]; decide), List.length_append,
          inv.discarding]
        rfl
    case charged =>
      have one := Placement.length_erase member
      rw [← inv.completed, ← erased] at one
      change shared.state.queue.length + (shared.state.completed.eraseP _).length +
        shared.state.running + (shared.state.discarding + 1) ≤ shared.charged
      rw [Shared.charged]
      omega
    case stopped => rfl
    case failed => rfl
    case queue => exact fun empty => empty
    case fact => exact ⟨consumed, .inl abandoned, fun _ => consumed.stored stored⟩
    case rounds =>
      intro given same
      obtain ⟨halted, bound⟩ := rounds given same
      exact ⟨halted, rfl, bound⟩
  · split at taken
    · rename_i id rest queue
      have member : shared.placement.place id = some .queued := by
        rw [← Placement.mem_iff, ← inv.queue, queue]
        exact List.mem_cons_self ..
      have accepted : id < shared.accepted := inv.placed id (by rw [member]; nofun)
      obtain ⟨fresh, discarded, releases⟩ : (shared.jobs id).At (some .queued) := by
        rw [← member]
        exact inv.settled id accepted
      have sound := inv.sound id accepted
      have tail : (shared.placement.items .queued).erase id = rest := by
        rw [← inv.queue, queue, List.erase_cons_head]
      have free : ¬ Held (shared.placement.place id) := by
        rw [member]
        rintro (held | held) <;> cases held
      split at taken
      · rename_i discard
        cases taken
        have there : ∀ place : Place, place ≠ .discarding → Place.queued ≠ place →
            (shared.placement.move id .discarding).items place = shared.placement.items place :=
          fun place ne elsewhere =>
            Placement.move_items_other ne (by simpa [member] using elsewhere)
        apply Worked.take inv
        case free => exact free
        case accepted => exact accepted
        case retained => rfl
        case sound => exact { sound with
          discarded := fun _ => fresh.stored
          reclaimed := fun once => by
            change (shared.jobs id).reclaims = 1 at once
            rw [fresh.reclaims] at once
            cases once }
        case releases => exact releases
        case ended => exact fun ended => ended
        case doomed => exact fun _ _ => rfl
        case agrees =>
          constructor
          · change rest = (shared.placement.move id .discarding).items .queued
            rw [Placement.move_items_ne (by decide), tail]
          · exact inv.completed.trans (there .completed (by decide) (by decide)).symm
          · exact inv.running.trans
              (congrArg List.length (there .running (by decide) (by decide)).symm)
          · change shared.state.discarding + 1 =
              ((shared.placement.move id .discarding).items .discarding).length
            rw [Placement.move_items_self (by rw [member]; decide), List.length_append,
              inv.discarding]
            rfl
        case charged =>
          change rest.length + shared.state.completed.length + shared.state.running +
            (shared.state.discarding + 1) ≤ shared.charged
          rw [Shared.charged, queue, List.length_cons]
          omega
        case stopped => rfl
        case failed => rfl
        case queue =>
          rw [queue]
          nofun
        case fact => exact ⟨rfl, rfl, rfl, fresh.bodies, fresh.reclaims, fresh.stored⟩
        case rounds =>
          intro given same
          obtain ⟨halted, bound⟩ := rounds given same
          exact ⟨halted, rfl, bound⟩
      · rename_i run
        cases taken
        have running : ¬ shared.state.stopped = true := fun halted => run (.inl halted)
        have there : ∀ place : Place, place ≠ .running → Place.queued ≠ place →
            (shared.placement.move id .running).items place = shared.placement.items place :=
          fun place ne elsewhere =>
            Placement.move_items_other ne (by simpa [member] using elsewhere)
        apply Worked.take inv
        case free => exact free
        case accepted => exact accepted
        case retained => rfl
        case sound => exact sound
        case releases => exact releases
        case ended => exact fun ended => ended
        case doomed => exact fun halted => (running halted).elim
        case agrees =>
          constructor
          · change rest = (shared.placement.move id .running).items .queued
            rw [Placement.move_items_ne (by decide), tail]
          · exact inv.completed.trans (there .completed (by decide) (by decide)).symm
          · change shared.state.running + 1 =
              ((shared.placement.move id .running).items .running).length
            rw [Placement.move_items_self (by rw [member]; decide), List.length_append,
              inv.running]
            rfl
          · exact inv.discarding.trans
              (congrArg List.length (there .discarding (by decide) (by decide)).symm)
        case charged =>
          change rest.length + shared.state.completed.length + (shared.state.running + 1) +
            shared.state.discarding ≤ shared.charged
          rw [Shared.charged, queue, List.length_cons]
          omega
        case stopped => rfl
        case failed => rfl
        case queue =>
          rw [queue]
          nofun
        case fact =>
          refine ⟨rfl, fresh, nofun, fun _ => ⟨discarded, ?_⟩⟩
          exact inv.unclosed (Bool.eq_false_iff.2 running) id accepted member
        case rounds =>
          intro given same
          exact (running (rounds given same).1).elim
    · rename_i empty
      split at taken
      · rename_i halted
        cases taken
        exact .stay inv ⟨halted.1, empty⟩
      · cases taken

/-- A failed worker closes the wait of a job that will not run. -/
theorem fail_worked (inv : shared.Inv) {id : JobId} {rest : List JobId}
    (fact : WorkerFact worker shared (.fail (id :: rest))) {job : Job}
    (selected : (shared.jobs id).select .closed .pool = some job) :
    Worked worker shared (shared.setJob id job, .fail rest) := by
  obtain ⟨halted, queued⟩ := fact
  obtain ⟨accepted, doomed⟩ := queued id (List.mem_cons_self ..)
  have sound := inv.sound id accepted
  have settled := inv.settled id accepted
  have unstored : (shared.jobs id).stored = false := by
    rcases doomed with queued | discarded
    · rw [queued] at settled
      exact settled.1.stored
    · exact sound.discarded discarded
  have sound' : job.Sound := by
    apply Job.select_sound sound (by rintro _ ⟨⟩; rfl) (by nofun) ?_ selected
    intro _ stored
    rw [unstored] at stored
    cases stored
  have ended := Job.select_ended sound selected
  have settled' : job.At (shared.placement.place id) := by
    rcases doomed with queued | discarded
    · rw [queued] at settled ⊢
      rcases Job.select_cases sound selected with ⟨-, rfl⟩ | ⟨-, rfl⟩
      · exact settled
      · obtain ⟨fresh, discarded, releases⟩ := settled
        exact ⟨⟨fresh.bodies, fresh.reclaims, fresh.stored⟩, discarded, releases⟩
    · exact (Job.select_kept sound (fun _ => discarded) selected).at settled
  have kept : job.discarded = (shared.jobs id).discarded := by
    rcases Job.select_cases sound selected with ⟨-, rfl⟩ | ⟨-, rfl⟩ <;> rfl
  have frame : Frame (some worker) shared (shared.setJob id job) := by
    apply (setJob_touches id job).frame (fun stopped => stopped) (Nat.le_refl _)
      (fun empty => empty)
    · rw [setJob_jobs_self]
      exact fun _ => ended
    · intro _ before
      rw [Doomed, setJob_jobs_self, kept]
      exact before
    · intro held _
      rw [setJob_jobs_self]
      refine ⟨rfl, rfl, Job.select_kept sound (fun _ => ?_) selected⟩
      rcases doomed with queued | discarded
      · rw [queued] at held
        rcases held with held | held <;> cases held
      · exact discarded
  refine ⟨?_, ⟨halted, fun other member => ?_⟩, frame⟩
  · apply (setJob_touches id job).inv inv inv.setJob_agrees accepted (Nat.le_refl _) inv.failed
      (fun running => running)
    · intro running
      change shared.state.stopped = false at running
      rw [halted] at running
      cases running
    · rwa [setJob_jobs_self]
    · rw [setJob_jobs_self]
      exact settled'
  · obtain ⟨below, doomed⟩ := queued other (List.mem_cons_of_mem _ member)
    exact ⟨below, frame.doomed halted other below doomed⟩

/-- A step of a worker keeps what the pool and the worker rely on. -/
theorem workerStep_worked {choice : Choice} {stage : Stage} (inv : shared.Inv)
    (fact : WorkerFact worker shared stage)
    (stepped : workerStep worker choice shared stage = some result) :
    Worked worker shared result := by
  cases stage with
  | rest =>
      rw [workerStep] at stepped
      split at stepped
      · cases stepped
        refine ⟨?_, ⟨rfl, fun id member => ?_⟩, ?_⟩
        · exact ⟨inv.queue, inv.completed, inv.running, inv.discarding, inv.placed,
            inv.bounded, fun _ => rfl, nofun, inv.sound, inv.settled⟩
        · rw [inv.queue, Placement.mem_iff] at member
          exact ⟨inv.placed id (by rw [member]; nofun), .inl member⟩
        · exact ⟨rfl, Nat.le_refl _, fun _ => rfl, fun _ => Nat.le_refl _, fun _ empty => empty,
            fun _ _ ended => ended, fun _ _ _ doomed => doomed,
            fun _ _ _ _ => ⟨rfl, rfl, .refl _⟩⟩
      · cases stepped
        exact .stay inv nofun
  | take left =>
      cases left with
      | none => exact take_worked inv (by nofun) stepped
      | some left =>
          obtain ⟨halted, charged⟩ := fact left rfl
          cases left with
          | zero =>
              cases stepped
              refine .stay inv ⟨halted, List.eq_nil_of_length_eq_zero ?_⟩
              rw [Shared.charged] at charged
              omega
          | succ left =>
              apply take_worked inv ?_ stepped
              intro given same
              cases same
              exact ⟨halted, charged⟩
  | execute => exact executeStep_worked inv fact stepped
  | fail queued =>
      cases queued with
      | nil =>
          cases stepped
          refine .stay inv fun given same => ?_
          cases same
          exact ⟨fact.1, inv.bounded⟩
      | cons =>
          obtain ⟨job, selected, rfl⟩ := Option.map_eq_some_iff.1 stepped
          exact fail_worked inv fact selected
  | _ => cases stepped

end Worker

/-! ## Callers and others -/

section Others

variable {shared : Shared ω} {result : Shared ω × Stage}

/-- A step of a caller, or from outside. -/
structure Moved (party : Party ω μ) (shared : Shared ω) (result : Shared ω × Stage) : Prop where
  inv : result.1.Inv
  fact : PartyFact result.1 party result.2
  frame : Frame none shared result.1

/-- A change that keeps a job for whoever holds it. -/
theorem Moved.keep {party : Party ω μ} (inv : shared.Inv) {id : JobId}
    (accepted : id < shared.accepted) {job : Job} (sound : job.Sound)
    (kept : (shared.jobs id).Kept job) {stage : Stage}
    (fact : PartyFact (shared.setJob id job) party stage) :
    Moved party shared (shared.setJob id job, stage) where
  inv := by
    have settled := inv.settled id accepted
    apply (setJob_touches id job).inv inv inv.setJob_agrees accepted (Nat.le_refl _) inv.failed
      (fun running => running)
    · intro running queued
      change shared.placement.place id = some .queued at queued
      rw [setJob_jobs_self]
      rw [queued] at settled
      exact fun pool => inv.unclosed running id accepted queued (kept.pool settled.2.1 pool)
    · rwa [setJob_jobs_self]
    · rw [setJob_jobs_self]
      exact kept.at settled
  fact := fact
  frame := by
    apply (setJob_touches id job).frame (fun stopped => stopped) (Nat.le_refl _)
      (fun empty => empty)
    · rw [setJob_jobs_self]
      exact kept.ended
    · intro _ doomed
      rw [Doomed, setJob_jobs_self, kept.discarded]
      exact doomed
    · intro _ _
      rw [setJob_jobs_self]
      exact ⟨rfl, rfl, kept⟩

theorem Moved.stay {party : Party ω μ} (inv : shared.Inv) {stage : Stage}
    (fact : PartyFact shared party stage) : Moved party shared (shared, stage) :=
  ⟨inv, fact, .refl _ _⟩

/-- A rejected submission leaves the pool as it is; an accepted one charges it. -/
theorem submit_moved {party : Party ω μ} (inv : shared.Inv) {token : ParkToken}
    {word : WaitWord} (active : word.phase = .active)
    (generation : word.generation = token.generation) {submitted : Shared ω}
    (accepts : shared.submit token word = .ok submitted) {stage : Stage}
    (fact : PartyFact submitted party stage) : Moved party shared (submitted, stage) := by
  rw [Shared.submit] at accepts
  split at accepts
  · cases accepts
  split at accepts
  · cases accepts
  split at accepts
  · cases accepts
  rename_i notFailed running room
  cases accepts
  have bound : word.phase ≠ .binding := by
    rw [active]
    nofun
  have nowhere : shared.placement.place shared.accepted = none := by
    by_contra placed
    exact Nat.lt_irrefl _ (inv.placed _ placed)
  have there : ∀ place : Place, place ≠ .queued →
      (shared.placement.move shared.accepted .queued).items place =
        shared.placement.items place :=
    fun place ne => Placement.move_items_other ne (by rw [nowhere]; nofun)
  have old : ∀ {id}, id < shared.accepted + 1 → id ≠ shared.accepted → id < shared.accepted :=
    fun below ne => Nat.lt_of_le_of_ne (Nat.le_of_lt_succ below) ne
  refine ⟨?_, fact, ?_⟩
  · constructor
    case queue =>
      change shared.state.queue ++ [shared.accepted] =
        (shared.placement.move shared.accepted .queued).items .queued
      rw [Placement.move_items_self (by rw [nowhere]; nofun), inv.queue]
    case completed => exact inv.completed.trans (there .completed (by decide)).symm
    case running =>
      exact inv.running.trans (congrArg List.length (there .running (by decide)).symm)
    case discarding =>
      exact inv.discarding.trans (congrArg List.length (there .discarding (by decide)).symm)
    case placed =>
      intro id placed
      by_cases new : id = shared.accepted
      · rw [new]
        exact Nat.lt_succ_self _
      · change (shared.placement.move shared.accepted .queued).place id ≠ none at placed
        rw [Placement.move_place_ne new] at placed
        exact Nat.lt_succ_of_lt (inv.placed id placed)
    case bounded =>
      change (shared.state.queue ++ [shared.accepted]).length + shared.state.completed.length +
        shared.state.running + shared.state.discarding ≤ shared.capacity
      rw [Shared.charged] at room
      rw [List.length_append, List.length_singleton]
      omega
    case failed => exact inv.failed
    case unclosed =>
      intro _ id below queued
      by_cases new : id = shared.accepted
      · subst new
        change (Function.update shared.jobs shared.accepted _ shared.accepted).ending ≠ _
        rw [Function.update_self]
        nofun
      · change (Function.update shared.jobs shared.accepted _ id).ending ≠ _
        rw [Function.update_of_ne new]
        apply inv.unclosed (Bool.eq_false_iff.2 running) id (old below new)
        exact (Placement.move_place_ne new).symm.trans queued
    case sound =>
      intro id below
      by_cases new : id = shared.accepted
      · subst new
        change (Function.update shared.jobs shared.accepted _ shared.accepted).Sound
        rw [Function.update_self]
        exact ⟨generation, bound, ⟨fun _ => active, fun _ => rfl⟩, nofun, nofun, nofun, nofun,
          Nat.zero_le _, Nat.zero_le _, nofun⟩
      · change (Function.update shared.jobs shared.accepted _ id).Sound
        rw [Function.update_of_ne new]
        exact inv.sound id (old below new)
    case settled =>
      intro id below
      by_cases new : id = shared.accepted
      · subst new
        change (Function.update shared.jobs shared.accepted _ shared.accepted).At
          ((shared.placement.move shared.accepted .queued).place shared.accepted)
        rw [Function.update_self, Placement.move_place_self]
        exact ⟨⟨rfl, rfl, rfl⟩, rfl, rfl⟩
      · change (Function.update shared.jobs shared.accepted _ id).At
          ((shared.placement.move shared.accepted .queued).place id)
        rw [Function.update_of_ne new, Placement.move_place_ne new]
        exact inv.settled id (old below new)
  · exact {
      capacity := rfl
      accepted := Nat.le_succ _
      stopped := fun stopped => stopped
      charged := fun stopped => (running stopped).elim
      queue := fun stopped => (running stopped).elim
      ended := by
        intro id below ended
        change (Function.update shared.jobs shared.accepted _ id).Ended
        rwa [Function.update_of_ne (Nat.ne_of_lt below)]
      doomed := fun stopped => (running stopped).elim
      held := by
        intro id below _ _
        have ne := Nat.ne_of_lt below
        change (shared.placement.move shared.accepted .queued).place id = _ ∧ _ ∧
          (shared.jobs id).Kept (Function.update shared.jobs shared.accepted _ id)
        rw [Placement.move_place_ne ne, Function.update_of_ne ne]
        exact ⟨rfl, rfl, .refl _⟩ }

theorem submit_accepted {token : ParkToken} {word : WaitWord} {submitted : Shared ω}
    (accepts : shared.submit token word = .ok submitted) :
    submitted.accepted = shared.accepted + 1 := by
  rw [Shared.submit] at accepts
  split at accepts
  · cases accepts
  split at accepts
  · cases accepts
  split at accepts
  · cases accepts
  · cases accepts
    rfl

theorem submitStep_moved {caller : μ} {choice : Choice} (inv : shared.Inv)
    (stepped : submitStep choice shared = some result) :
    Moved (.caller caller : Party ω μ) shared result := by
  rw [submitStep] at stepped
  split at stepped
  · rename_i begun
    split at stepped
    · rename_i submitted accepts
      cases stepped
      apply submit_moved inv begun.1 begun.2 accepts
      change shared.accepted < submitted.accepted
      rw [submit_accepted accepts]
      exact Nat.lt_succ_self _
    · cases stepped
      exact .stay inv trivial
  · cases stepped

theorem callerStep_moved {caller : μ} {choice : Choice} {stage : Stage} (inv : shared.Inv)
    (fact : PartyFact shared (.caller caller : Party ω μ) stage)
    (stepped : callerStep choice shared stage = some result) :
    Moved (.caller caller : Party ω μ) shared result := by
  cases stage with
  | rest | rejected => exact submitStep_moved inv stepped
  | leased job =>
      have sound := inv.sound job fact
      rw [callerStep] at stepped
      split at stepped
      · cases stepped
        apply Moved.keep inv fact
        · exact { sound with }
        · exact ⟨rfl, rfl, rfl, rfl, rfl, fun held => held, fun ended => ended,
            fun _ pool => pool⟩
        · exact fact
      · cases stepped
        apply Moved.keep inv fact
        · exact { sound with
            reclaimed := fun once => ⟨(sound.reclaimed once).1, .inl rfl⟩ }
        · exact ⟨rfl, rfl, rfl, rfl, rfl, fun _ => rfl, fun ended => ended, fun _ pool => pool⟩
        · exact fact
  | dropping job =>
      cases stepped
      exact .stay inv trivial
  | _ => cases stepped

theorem outsideStep_moved {choice : Choice} {stage : Stage} (inv : shared.Inv)
    (stepped : outsideStep choice shared stage = some result) :
    Moved (.outside : Party ω μ) shared result := by
  cases stage with
  | rest =>
      rw [outsideStep] at stepped
      split at stepped
      · cases stepped
        refine ⟨⟨inv.queue, inv.completed, inv.running, inv.discarding, inv.placed, inv.bounded,
          fun _ => rfl, nofun, inv.sound, inv.settled⟩, trivial, ?_⟩
        exact ⟨rfl, Nat.le_refl _, fun _ => rfl, fun _ => Nat.le_refl _, fun _ empty => empty,
          fun _ _ ended => ended, fun _ _ _ doomed => doomed,
          fun _ _ _ _ => ⟨rfl, rfl, .refl _⟩⟩
      · split at stepped
        · rename_i id move _ below
          obtain ⟨job, moved, rfl⟩ := Option.map_eq_some_iff.1 stepped
          obtain ⟨kept, sound⟩ := Job.outside_kept (inv.sound id below) moved
          exact .keep inv below sound kept trivial
        · cases stepped
  | _ => cases stepped

end Others

end VThread.Blocking

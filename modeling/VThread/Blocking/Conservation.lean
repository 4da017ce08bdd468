import VThread.Blocking.Custody

/-!
# Conservation of jobs

In every interleaving, the charges that are not released are exactly the queued, running,
discarding and retained jobs, and each job ends once in each of its parts.
-/

namespace VThread.Blocking

open VThread.Lib VThread.Wait

variable {ω μ : Type}

/-- All interleavings of workers and callers over one pool. -/
abbrev poolSystem (ω μ : Type) [DecidableEq ω] [DecidableEq μ] :
    System (Threads (Party ω μ) (Shared ω) Stage) :=
  (program ω μ).system

section Reachable

theorem new_inv (capacity : Nat) : (Shared.new ω capacity).Inv where
  queue := rfl
  completed := rfl
  running := rfl
  discarding := rfl
  placed := fun _ placed => (placed rfl).elim
  bounded := Nat.zero_le _
  failed := nofun
  unclosed := fun _ _ below => (Nat.not_lt_zero _ below).elim
  sound := fun _ below => (Nat.not_lt_zero _ below).elim
  settled := fun _ below => (Nat.not_lt_zero _ below).elim

variable [DecidableEq ω] [DecidableEq μ] {state : Threads (Party ω μ) (Shared ω) Stage}

/-- The worker whose step it is. -/
def Party.worker? : Party ω μ → Option ω
  | .worker id => some id
  | _ => none

omit [DecidableEq ω] [DecidableEq μ] in
theorem party_step {party : Party ω μ} {shared shared' : Shared ω} {stage stage' : Stage}
    (inv : shared.Inv) (fact : PartyFact shared party stage)
    (advance : (program ω μ).advance party shared stage shared' stage') :
    shared'.Inv ∧ PartyFact shared' party stage' ∧ Frame party.worker? shared shared' := by
  obtain ⟨choice, stepped⟩ := advance
  cases party with
  | worker id =>
      have worked := workerStep_worked inv fact stepped
      exact ⟨worked.inv, worked.fact, worked.frame⟩
  | caller id =>
      have moved := callerStep_moved inv fact stepped
      exact ⟨moved.inv, moved.fact, moved.frame⟩
  | outside =>
      have moved : Moved (.outside : Party ω μ) shared _ := outsideStep_moved inv stepped
      exact ⟨moved.inv, moved.fact, moved.frame⟩

theorem reachable_inv (reachable : (poolSystem ω μ).Reachable state) :
    state.shared.Inv ∧ ∀ party, PartyFact state.shared party (state.locals party) := by
  refine @Program.invariant _ _ _ _ _ Shared.Inv (fun party shared stage =>
    PartyFact shared party stage) ?_ ?_ ?_ _ reachable
  · rintro shared ⟨capacity, rfl⟩
    refine ⟨new_inv capacity, fun party => ?_⟩
    cases party <;> trivial
  · intro party shared stage shared' stage' inv fact advance
    obtain ⟨inv', fact', -⟩ := party_step inv fact advance
    exact ⟨inv', fact'⟩
  · intro party other shared stage otherStage shared' stage' ne inv fact otherFact advance
    obtain ⟨-, -, frame⟩ := party_step inv fact advance
    apply otherFact.frame frame
    rintro worker rfl same
    cases party with
    | worker id =>
        cases same
        exact ne rfl
    | caller id => cases same
    | outside => cases same

/-- Running and discarding charges stay with the workers that execute their jobs. -/
theorem reachable_custody (reachable : (poolSystem ω μ).Reachable state) (id : JobId)
    (held : Held (state.shared.placement.place id)) :
    ∃ worker, state.shared.holder id = some worker ∧
      (state.locals (.worker worker)).charge? = some id := by
  induction reachable with
  | initial isInitial =>
      obtain ⟨⟨capacity, new⟩, -⟩ := isInitial
      rw [new] at held
      exact (not_held_none held).elim
  | @step state next previous taken ih =>
      obtain ⟨inv, facts⟩ := reachable_inv previous
      cases taken with
      | mk party moved =>
          obtain ⟨choice, stepped⟩ := moved
          cases party with
          | worker actor =>
              have custody := workerStep_custody inv (facts (.worker actor)) stepped
              rcases custody id held with ⟨before, holder, other⟩ | ⟨holder, charge⟩
              · obtain ⟨worker, had, executes⟩ := ih before
                have ne : worker ≠ actor := by
                  rintro rfl
                  exact other executes
                exact ⟨worker, holder.trans had, by simpa [ne] using executes⟩
              · exact ⟨actor, holder, by simpa using charge⟩
          | caller actor =>
              obtain ⟨before, holder⟩ := callerStep_aloof stepped id held
              obtain ⟨worker, had, executes⟩ := ih before
              exact ⟨worker, holder.trans had, executes⟩
          | outside =>
              obtain ⟨before, holder⟩ := outsideStep_aloof stepped id held
              obtain ⟨worker, had, executes⟩ := ih before
              exact ⟨worker, holder.trans had, executes⟩

end Reachable

/-! ## The law -/

/-- The wait word shows the cause until the owner retires it. -/
def Job.EndedWith (job : Job) (cause : WakeCause) : Prop :=
  job.word.phase = .claim cause ∨ job.word.phase = .selected cause ∨ job.word.phase = .idle

/-- The wait has ended: with `Ready` when the body has stored a result, else with `Closed`,
unless someone else ended it before. -/
def Job.Served (job : Job) : Prop :=
  job.word.phase ≠ .active ∧
    (job.ending = some .elsewhere ∨
      job.ending = some (if job.stored then .body else .pool) ∧
        job.EndedWith (if job.stored then .ready else .closed))

/-- What holds of the pool in one state. -/
structure Law (state : Threads (Party ω μ) (Shared ω) Stage) : Prop where
  bounded : state.shared.charged ≤ state.shared.capacity
  /-- The charged jobs are the accepted ones whose charge is not released. -/
  charged : state.shared.charged =
    Nat.count (fun id => (state.shared.jobs id).releases = 0) state.shared.accepted
  /-- Body, reclaim closure and charge end once at most, and all of them by the release. -/
  once : ∀ id < state.shared.accepted,
    (state.shared.jobs id).bodies.length ≤ 1 ∧ (state.shared.jobs id).reclaims ≤ 1 ∧
      (state.shared.jobs id).releases ≤ 1
  released : ∀ id < state.shared.accepted, (state.shared.jobs id).releases = 1 →
    (state.shared.jobs id).bodies.length = 1 ∧ (state.shared.jobs id).reclaims = 1
  /-- A job is reclaimed after its body, once its lease is gone or it was discarded. -/
  reclaimed : ∀ id < state.shared.accepted, (state.shared.jobs id).reclaims = 1 →
    (state.shared.jobs id).bodies.length = 1 ∧
      ((state.shared.jobs id).abandoned = true ∨ (state.shared.jobs id).discarded = true)
  /-- A job that is no longer queued, running or discarding has ended the wait. -/
  served : ∀ id < state.shared.accepted, state.shared.placement.place id ≠ some .queued →
    ¬ Held (state.shared.placement.place id) → (state.shared.jobs id).Served
  /-- A running or discarding charge is with a worker that executes its job. -/
  custody : ∀ id, Held (state.shared.placement.place id) →
    ∃ worker, state.shared.holder id = some worker ∧
      (state.locals (.worker worker)).charge? = some id
  /-- Such a worker is never stuck, and each of its steps brings it closer to the end. -/
  progress : ∀ worker left charge stage flag,
    state.locals (.worker worker) = .execute left charge stage →
      ∃ shared' stage', executeStep flag left charge state.shared stage =
          some (shared', stage') ∧
        (stage' = afterJob left ∨ ∃ charge' next, stage' = .execute left charge' next ∧
          charge'.job = charge.job ∧ next.rank < stage.rank)
  /-- No worker returns before a stop or while a job is queued. -/
  returned : ∀ worker, state.locals (.worker worker) = .returned →
    state.shared.state.stopped = true ∧ state.shared.state.queue = []
  calm : ∀ party message, state.locals party ≠ .panicked message

section Law

variable {shared : Shared ω}

theorem Shared.Inv.sum_places (inv : shared.Inv) : shared.charged =
    ∑ place, (shared.placement.items place).length := by
  have univ : (Finset.univ : Finset Place) = {.queued, .completed, .running, .discarding} := rfl
  rw [univ, Finset.sum_insert (by decide), Finset.sum_insert (by decide),
    Finset.sum_insert (by decide), Finset.sum_singleton, ← inv.queue, ← inv.completed,
    ← inv.running, ← inv.discarding, Shared.charged]
  omega

theorem Shared.Inv.releases_eq_zero_iff (inv : shared.Inv) {id : JobId}
    (accepted : id < shared.accepted) :
    (shared.jobs id).releases = 0 ↔ (shared.placement.place id).isSome = true := by
  have settled := inv.settled id accepted
  cases place : shared.placement.place id with
  | none =>
      rw [place] at settled
      rw [settled.2.2]
      exact ⟨nofun, nofun⟩
  | some kind =>
      rw [place] at settled
      refine ⟨fun _ => rfl, fun _ => ?_⟩
      cases kind with
      | queued => exact settled.2.2
      | completed => exact settled.2.2
      | running => exact settled
      | discarding => exact settled

theorem Shared.Inv.charged_eq (inv : shared.Inv) :
    shared.charged = Nat.count (fun id => (shared.jobs id).releases = 0) shared.accepted := by
  rw [inv.sum_places, Placement.sum_length _ inv.placed]
  rw [Nat.count_eq_card_filter_range, Nat.count_eq_card_filter_range]
  apply congrArg Finset.card
  apply Finset.filter_congr
  intro id member
  exact (inv.releases_eq_zero_iff (Finset.mem_range.1 member)).symm

theorem Job.Sound.served {job : Job} (sound : job.Sound) (ended : job.Ended) : job.Served := by
  refine ⟨fun active => ended (sound.active.2 active), ?_⟩
  cases ending : job.ending with
  | none => exact (ended ending).elim
  | some kind =>
      cases kind with
      | elsewhere => exact .inl rfl
      | body =>
          right
          rw [sound.body ending]
          exact ⟨rfl, sound.cause _ _ ending rfl⟩
      | pool =>
          right
          rw [sound.pool ending]
          exact ⟨rfl, sound.cause _ _ ending rfl⟩

theorem Shared.Inv.served (inv : shared.Inv) {id : JobId} (accepted : id < shared.accepted)
    (unqueued : shared.placement.place id ≠ some .queued)
    (free : ¬ Held (shared.placement.place id)) : (shared.jobs id).Served := by
  apply (inv.sound id accepted).served
  have settled := inv.settled id accepted
  cases place : shared.placement.place id with
  | none =>
      rw [place] at settled
      exact settled.2.1
  | some kind =>
      rw [place] at settled unqueued free
      cases kind with
      | queued => exact (unqueued rfl).elim
      | completed => exact settled.1.stored settled.2.1
      | running => exact (free (.inl rfl)).elim
      | discarding => exact (free (.inr rfl)).elim

variable [DecidableEq ω] [DecidableEq μ] {state : Threads (Party ω μ) (Shared ω) Stage}

theorem reachable_law (reachable : (poolSystem ω μ).Reachable state) : Law state := by
  obtain ⟨inv, facts⟩ := reachable_inv reachable
  refine ⟨inv.bounded, inv.charged_eq, ?_, ?_, ?_, ?_, reachable_custody reachable, ?_, ?_, ?_⟩
  · intro id accepted
    have sound := inv.sound id accepted
    refine ⟨sound.bodies, sound.reclaims, ?_⟩
    have settled := inv.settled id accepted
    cases place : state.shared.placement.place id with
    | none =>
        rw [place] at settled
        exact Nat.le_of_eq settled.2.2
    | some kind =>
        have none : (state.shared.jobs id).releases = 0 :=
          (inv.releases_eq_zero_iff accepted).2 (by rw [place]; rfl)
        rw [none]
        exact Nat.zero_le 1
  · intro id accepted released
    have settled := inv.settled id accepted
    cases place : state.shared.placement.place id with
    | none =>
        rw [place] at settled
        exact ⟨settled.1.bodies, settled.1.reclaims⟩
    | some kind =>
        have none : (state.shared.jobs id).releases = 0 :=
          (inv.releases_eq_zero_iff accepted).2 (by rw [place]; rfl)
        rw [none] at released
        cases released
  · exact fun id accepted => (inv.sound id accepted).reclaimed
  · exact fun id accepted => inv.served accepted
  · intro worker left charge stage flag executes
    have fact := facts (.worker worker)
    rw [executes] at fact
    exact executeStep_progress inv fact flag
  · intro worker returned
    have fact := facts (.worker worker)
    rw [returned] at fact
    exact fact
  · intro party message panicked
    have fact := facts party
    rw [panicked] at fact
    cases party <;> exact fact

def scheduler (ω μ : Type) [DecidableEq ω] [DecidableEq μ] :
    (program ω μ).Scheduler Choice where
  next party choice shared stage := nextStep party choice shared stage
  sound _ choice _ _ _ taken := ⟨choice, taken⟩

/-- A pool of capacity two. -/
def fresh : Threads (Party Unit Unit) (Shared Unit) Stage := ⟨.new Unit 2, fun _ => .rest⟩

def begun (flag : Bool) : Choice :=
  ⟨flag, ⟨4, 1⟩, { WaitWord.initial with phase := .active, generation := 1 }, none⟩

abbrev Schedule := List (Party Unit Unit × Choice)

end Law

end VThread.Blocking

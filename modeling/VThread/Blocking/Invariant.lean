import VThread.Blocking.Pool

/-!
# The invariant of the pool

A charge is in one place from its submission to its release.  What has become of a job is
fixed by its place, and, while a worker holds it, by where that worker stands.
-/

namespace VThread.Blocking

open VThread.Lib VThread.Wait

variable {ω μ : Type}

/-! ## Jobs -/

/-- The cause with which the body or the pool ends a wait. -/
def Ending.cause : Ending → Option WakeCause
  | .body => some .ready
  | .pool => some .closed
  | .elsewhere => none

namespace Job

/-- The wait generation is no longer active. -/
abbrev Ended (job : Job) : Prop := job.ending ≠ none

structure Sound (job : Job) : Prop where
  token : job.word.generation = job.token.generation
  bound : job.word.phase ≠ .binding
  active : job.ending = none ↔ job.word.phase = .active
  cause : ∀ ending cause, job.ending = some ending → ending.cause = some cause →
    job.word.phase = .claim cause ∨ job.word.phase = .selected cause ∨ job.word.phase = .idle
  body : job.ending = some .body → job.stored = true
  pool : job.ending = some .pool → job.stored = false
  discarded : job.discarded = true → job.stored = false
  bodies : job.bodies.length ≤ 1
  reclaims : job.reclaims ≤ 1
  reclaimed : job.reclaims = 1 →
    job.bodies.length = 1 ∧ (job.abandoned = true ∨ job.discarded = true)

/-- Neither the body nor the reclaim closure has been consumed. -/
structure Fresh (job : Job) : Prop where
  bodies : job.bodies = []
  reclaims : job.reclaims = 0
  stored : job.stored = false

/-- The body has been consumed; a stored result has ended the wait. -/
structure Consumed (job : Job) (reclaims : Nat) : Prop where
  bodies : job.bodies.length = 1
  reclaims : job.reclaims = reclaims
  stored : job.stored = true → job.Ended

/-- What holds of an accepted job by the place of its charge; `none` once released. -/
def At (job : Job) : Option Place → Prop
  | some .queued => job.Fresh ∧ job.discarded = false ∧ job.releases = 0
  | some .completed => job.Consumed 0 ∧ job.stored = true ∧ job.releases = 0
  | some .running | some .discarding => job.releases = 0
  | none => job.Consumed 1 ∧ job.Ended ∧ job.releases = 1

/-- What others leave alone in a job, whoever holds it. -/
structure Kept (job job' : Job) : Prop where
  bodies : job'.bodies = job.bodies
  reclaims : job'.reclaims = job.reclaims
  releases : job'.releases = job.releases
  stored : job'.stored = job.stored
  discarded : job'.discarded = job.discarded
  abandoned : job.abandoned = true → job'.abandoned = true
  ended : job.Ended → job'.Ended
  pool : job.discarded = false → job'.ending = some .pool → job.ending = some .pool

variable {job job' : Job}

theorem Kept.refl (job : Job) : Kept job job :=
  ⟨rfl, rfl, rfl, rfl, rfl, fun held => held, fun ended => ended, fun _ pool => pool⟩

theorem Kept.fresh (kept : Kept job job') (fresh : job.Fresh) : job'.Fresh :=
  ⟨kept.bodies.trans fresh.bodies, kept.reclaims.trans fresh.reclaims,
    kept.stored.trans fresh.stored⟩

theorem Kept.consumed (kept : Kept job job') {reclaims : Nat} (consumed : job.Consumed reclaims) :
    job'.Consumed reclaims where
  bodies := by
    rw [kept.bodies]
    exact consumed.bodies
  reclaims := kept.reclaims.trans consumed.reclaims
  stored stored := kept.ended (consumed.stored (by rwa [kept.stored] at stored))

theorem Kept.at (kept : Kept job job') {place : Option Place} (holds : job.At place) :
    job'.At place := by
  cases place with
  | none =>
      obtain ⟨consumed, ended, releases⟩ := holds
      exact ⟨kept.consumed consumed, kept.ended ended, kept.releases.trans releases⟩
  | some place =>
      cases place with
      | queued =>
          obtain ⟨fresh, discarded, releases⟩ := holds
          exact ⟨kept.fresh fresh, kept.discarded.trans discarded, kept.releases.trans releases⟩
      | completed =>
          obtain ⟨consumed, stored, releases⟩ := holds
          exact ⟨kept.consumed consumed, kept.stored.trans stored,
            kept.releases.trans releases⟩
      | running => exact kept.releases.trans holds
      | discarding => exact kept.releases.trans holds

/-- A selection ends an active generation, and finds any other as it is. -/
theorem select_cases (sound : job.Sound) {cause : WakeCause} {ending : Ending}
    (selected : job.select cause ending = some job') :
    job.Ended ∧ job' = job ∨
      job.ending = none ∧
        job' = { job with word := job.word.claimed cause, ending := some ending } := by
  rw [select, selectGeneration] at selected
  split at selected
  · cases selected
  · rename_i next won decided
    cases selected
    split at decided
    · cases decided
    split at decided
    · cases decided
    split at decided
    · cases decided
    split at decided
    · cases decided
    · rename_i active
      cases decided
      exact .inr ⟨sound.active.2 (not_not.1 active), rfl⟩
  · rename_i noReload noExchange
    cases selected
    refine .inl ⟨fun none => ?_, rfl⟩
    have active := sound.active.1 none
    apply noExchange (job.word.claimed cause) (.claim cause false (.flag true))
    simp [active, sound.token]

theorem select_ended (sound : job.Sound) {cause : WakeCause} {ending : Ending}
    (selected : job.select cause ending = some job') : job'.Ended := by
  rcases select_cases sound selected with ⟨ended, rfl⟩ | ⟨-, rfl⟩
  · exact ended
  · nofun

/-- A selection keeps what the others rely on, unless the pool closes a job not discarded. -/
theorem select_kept (sound : job.Sound) {cause : WakeCause} {ending : Ending}
    (allowed : ending = .pool → job.discarded = true)
    (selected : job.select cause ending = some job') : Kept job job' := by
  rcases select_cases sound selected with ⟨-, rfl⟩ | ⟨none, rfl⟩
  · exact .refl _
  · refine ⟨rfl, rfl, rfl, rfl, rfl, fun held => held, fun ended => (ended none).elim, ?_⟩
    intro kept pool
    cases pool
    rw [allowed rfl] at kept
    cases kept

theorem select_sound (sound : job.Sound) {cause : WakeCause} {ending : Ending}
    (matched : ∀ other, ending.cause = some other → other = cause)
    (body : ending = .body → job.stored = true)
    (pool : ending = .pool → job.stored = true → job.Ended)
    (selected : job.select cause ending = some job') : job'.Sound := by
  rcases select_cases sound selected with ⟨-, rfl⟩ | ⟨none, rfl⟩
  · exact sound
  · exact { sound with
      bound := nofun
      active := ⟨nofun, nofun⟩
      cause := by
        intro ended other same caused
        cases same
        rw [matched other caused]
        exact .inl rfl
      body := fun same => body (Option.some.inj same)
      pool := fun same => Bool.eq_false_iff.2 fun stored =>
        pool (Option.some.inj same) stored none }

theorem Sound.consume (sound : job.Sound) (bodies : job.bodies = []) (reclaims : job.reclaims = 0)
    (ended : BodyEnd) : ({ job with bodies := job.bodies ++ [ended] } : Job).Sound :=
  { sound with
    bodies := by
      rw [bodies]
      exact Nat.le_refl 1
    reclaimed := fun reclaimed => by
      change job.reclaims = 1 at reclaimed
      rw [reclaims] at reclaimed
      cases reclaimed }

theorem Fresh.consumed (fresh : job.Fresh) (ended : BodyEnd) :
    ({ job with bodies := job.bodies ++ [ended] } : Job).Consumed 0 where
  bodies := by
    rw [fresh.bodies]
    rfl
  reclaims := fresh.reclaims
  stored := fun stored => by
    change job.stored = true at stored
    rw [fresh.stored] at stored
    cases stored

/-- The moves of others on the wait word. -/
theorem outside_kept (sound : job.Sound) {move : CellMove} (moved : job.outside move = some job') :
    Kept job job' ∧ job'.Sound := by
  cases move with
  | claim cause =>
      change job.select cause .elsewhere = some job' at moved
      exact ⟨select_kept sound (by rintro ⟨⟩) moved,
        select_sound sound (by rintro _ ⟨⟩) (by rintro ⟨⟩) (by rintro ⟨⟩) moved⟩
  | publish =>
      rw [outside, WaitWord.publishClaim] at moved
      cases phase : job.word.phase with
      | claim cause =>
          rw [phase] at moved
          cases moved
          refine ⟨⟨rfl, rfl, rfl, rfl, rfl, fun held => held, fun ended => ended,
            fun _ pool => pool⟩, { sound with bound := by rintro ⟨⟩, active := ?_, cause := ?_ }⟩
          · rw [sound.active, phase]
            exact ⟨by rintro ⟨⟩, by rintro ⟨⟩⟩
          · intro ending other ended caused
            rcases sound.cause ending other ended caused with claimed | selected | idle
            · rw [phase] at claimed
              cases claimed
              exact .inr (.inl rfl)
            · rw [phase] at selected
              cases selected
            · rw [phase] at idle
              cases idle
      | _ =>
          rw [phase] at moved
          cases moved
  | interest =>
      rw [outside] at moved
      split at moved
      · cases moved
        exact ⟨⟨rfl, rfl, rfl, rfl, rfl, fun held => held, fun ended => ended,
          fun _ pool => pool⟩, { sound with
            bound := sound.bound, active := sound.active, cause := sound.cause }⟩
      · cases moved
  | retire =>
      rw [outside] at moved
      split at moved
      · cases moved
      cases moved
      by_cases active : job.word.phase = .active
      · rw [if_pos active]
        exact ⟨⟨rfl, rfl, rfl, rfl, rfl, fun held => held, fun _ => by rintro ⟨⟩, by rintro _ ⟨⟩⟩,
          { sound with
            bound := by rintro ⟨⟩
            active := ⟨by rintro ⟨⟩, by rintro ⟨⟩⟩
            cause := fun _ _ _ _ => .inr (.inr rfl)
            body := by rintro ⟨⟩
            pool := by rintro ⟨⟩ }⟩
      · rw [if_neg active]
        refine ⟨⟨rfl, rfl, rfl, rfl, rfl, fun held => held, fun ended => ended,
          fun _ pool => pool⟩, { sound with
            bound := by rintro ⟨⟩
            active := ?_
            cause := fun _ _ _ _ => .inr (.inr rfl) }⟩
        rw [sound.active]
        exact ⟨fun held => (active held).elim, by rintro ⟨⟩⟩

end Job

/-! ## The pool -/

/-- The charge is with a worker. -/
def Held (place : Option Place) : Prop := place = some .running ∨ place = some .discarding

structure Shared.Inv (shared : Shared ω) : Prop where
  queue : shared.state.queue = shared.placement.items .queued
  completed : shared.state.completed = shared.placement.items .completed
  running : shared.state.running = (shared.placement.items .running).length
  discarding : shared.state.discarding = (shared.placement.items .discarding).length
  placed : ∀ id, shared.placement.place id ≠ none → id < shared.accepted
  bounded : shared.charged ≤ shared.capacity
  failed : shared.state.failed = true → shared.state.stopped = true
  unclosed : shared.state.stopped = false → ∀ id < shared.accepted,
    shared.placement.place id = some .queued → (shared.jobs id).ending ≠ some .pool
  sound : ∀ id < shared.accepted, (shared.jobs id).Sound
  settled : ∀ id < shared.accepted, (shared.jobs id).At (shared.placement.place id)

/-- A job that will not run. -/
def Doomed (shared : Shared ω) (id : JobId) : Prop :=
  shared.placement.place id = some .queued ∨ (shared.jobs id).discarded = true

/-- A worker holds the charge of a job. -/
structure Holds (worker : ω) (charge : Charge) (shared : Shared ω) : Prop where
  accepted : charge.job < shared.accepted
  holder : shared.holder charge.job = some worker
  place : shared.placement.place charge.job =
    some (if charge.discard then .discarding else .running)
  retained : charge.retained = false

/-- The job a worker holds, by where the worker stands. -/
def ExecuteFact (charge : Charge) (job : Job) : ExecuteStage → Prop
  | .selectClosed => charge.wake = true ∧ charge.discard = true ∧ job.discarded = true ∧ job.Fresh
  | .body => charge.wake = true ∧ job.Fresh ∧
      (charge.discard = true → job.discarded = true ∧ job.Ended) ∧
      (charge.discard = false → job.discarded = false ∧ job.ending ≠ some .pool)
  | .running | .store _ => charge.wake = true ∧ job.Fresh ∧ charge.discard = false ∧
      job.discarded = false ∧ job.ending ≠ some .pool
  | .selectReady _ => charge.wake = true ∧ charge.discard = false ∧ job.discarded = false ∧
      job.bodies = [] ∧ job.reclaims = 0 ∧ job.stored = true
  | .count _ | .settle => charge.wake = true ∧ job.Consumed 0 ∧
      (charge.discard = true → job.discarded = true) ∧
      (charge.discard = false → job.abandoned = true ∨ job.stored = true)
  | .destroy => job.Consumed 0 ∧ (job.abandoned = true ∨ job.discarded = true) ∧
      (charge.wake = false → job.Ended)
  | .countReclaim _ => job.Consumed 1 ∧ (charge.wake = false → job.Ended)
  | .retain => charge.wake = true ∧ charge.discard = false ∧ job.Consumed 0 ∧ job.stored = true
  | .close => job.Consumed 1
  | .release => job.Consumed 1 ∧ job.Ended

/-- What holds for a worker, by where it stands. -/
def WorkerFact (worker : ω) (shared : Shared ω) : Stage → Prop
  | .rest => True
  | .take left => ∀ rounds, left = some rounds →
      shared.state.stopped = true ∧ shared.charged ≤ rounds
  | .execute left charge stage =>
      Holds worker charge shared ∧ ExecuteFact charge (shared.jobs charge.job) stage ∧
          (∀ rounds, left = some rounds → shared.state.stopped = true ∧
            charge.discard = true ∧ shared.charged ≤ rounds + 1) ∨
        -- the result has been retained
        stage = .close ∧ charge.retained = true ∧ left = none ∧
          charge.job < shared.accepted ∧ (shared.jobs charge.job).Ended
  | .fail queued => shared.state.stopped = true ∧
      ∀ id ∈ queued, id < shared.accepted ∧ Doomed shared id
  | .returned => shared.state.stopped = true ∧ shared.state.queue = []
  | _ => False

def PartyFact (shared : Shared ω) : Party ω μ → Stage → Prop
  | .worker id, stage => WorkerFact id shared stage
  | .caller _, .rest | .caller _, .rejected _ => True
  | .caller _, .leased job | .caller _, .dropping job => job < shared.accepted
  | .outside, .rest => True
  | _, _ => False

/-! ## What a step leaves alone -/

/-- A step, by a worker or by nobody, leaves alone what the others rely on. -/
structure Frame (worker : Option ω) (shared shared' : Shared ω) : Prop where
  capacity : shared'.capacity = shared.capacity
  accepted : shared.accepted ≤ shared'.accepted
  stopped : shared.state.stopped = true → shared'.state.stopped = true
  charged : shared.state.stopped = true → shared'.charged ≤ shared.charged
  queue : shared.state.stopped = true → shared.state.queue = [] → shared'.state.queue = []
  ended : ∀ id < shared.accepted, (shared.jobs id).Ended → (shared'.jobs id).Ended
  doomed : shared.state.stopped = true → ∀ id < shared.accepted,
    Doomed shared id → Doomed shared' id
  held : ∀ id < shared.accepted, Held (shared.placement.place id) →
    shared.holder id ≠ worker →
    shared'.placement.place id = shared.placement.place id ∧
      shared'.holder id = shared.holder id ∧ (shared.jobs id).Kept (shared'.jobs id)

theorem Holds.held {worker : ω} {charge : Charge} {shared : Shared ω}
    (holds : Holds worker charge shared) : Held (shared.placement.place charge.job) := by
  rw [holds.place]
  cases charge.discard with
  | false => exact .inl rfl
  | true => exact .inr rfl

/-- What a worker relies on in the job it holds survives the steps of others. -/
theorem ExecuteFact.kept {charge : Charge} {job job' : Job} {stage : ExecuteStage}
    (kept : job.Kept job') (fact : ExecuteFact charge job stage) :
    ExecuteFact charge job' stage := by
  have discarded : ∀ {value}, job.discarded = value → job'.discarded = value :=
    fun same => kept.discarded.trans same
  have stored : ∀ {value}, job.stored = value → job'.stored = value :=
    fun same => kept.stored.trans same
  cases stage with
  | selectClosed =>
      obtain ⟨wake, discard, discarded', fresh⟩ := fact
      exact ⟨wake, discard, discarded discarded', kept.fresh fresh⟩
  | body =>
      obtain ⟨wake, fresh, dropped, run⟩ := fact
      refine ⟨wake, kept.fresh fresh, fun discard => ?_, fun discard => ?_⟩
      · exact (dropped discard).imp discarded kept.ended
      · obtain ⟨same, ending⟩ := run discard
        exact ⟨discarded same, fun pool => ending (kept.pool same pool)⟩
  | running | store =>
      obtain ⟨wake, fresh, discard, same, ending⟩ := fact
      exact ⟨wake, kept.fresh fresh, discard, discarded same,
        fun pool => ending (kept.pool same pool)⟩
  | selectReady =>
      obtain ⟨wake, discard, same, bodies, reclaims, held⟩ := fact
      exact ⟨wake, discard, discarded same, kept.bodies.trans bodies,
        kept.reclaims.trans reclaims, stored held⟩
  | count | settle =>
      obtain ⟨wake, consumed, dropped, run⟩ := fact
      exact ⟨wake, kept.consumed consumed, fun discard => discarded (dropped discard),
        fun discard => (run discard).imp kept.abandoned stored⟩
  | destroy =>
      obtain ⟨consumed, given, ended⟩ := fact
      exact ⟨kept.consumed consumed, given.imp kept.abandoned discarded,
        fun wake => kept.ended (ended wake)⟩
  | countReclaim =>
      exact ⟨kept.consumed fact.1, fun wake => kept.ended (fact.2 wake)⟩
  | retain =>
      obtain ⟨wake, discard, consumed, held⟩ := fact
      exact ⟨wake, discard, kept.consumed consumed, stored held⟩
  | close => exact kept.consumed fact
  | release => exact ⟨kept.consumed fact.1, kept.ended fact.2⟩

/-- A worker relies on nothing that the steps of others change. -/
theorem WorkerFact.frame {shared shared' : Shared ω} {worker : ω} {other : Option ω}
    {stage : Stage} (frame : Frame other shared shared') (ne : some worker ≠ other)
    (fact : WorkerFact worker shared stage) : WorkerFact worker shared' stage := by
  cases stage with
  | rest => trivial
  | take left =>
      intro rounds same
      obtain ⟨stopped, charged⟩ := fact rounds same
      exact ⟨frame.stopped stopped, Nat.le_trans (frame.charged stopped) charged⟩
  | execute left =>
      rcases fact with ⟨holds, fact, rounds⟩ | ⟨close, retained, left, accepted, ended⟩
      · left
        obtain ⟨place, holder, kept⟩ := frame.held _ holds.accepted holds.held
          (by rwa [holds.holder])
        refine ⟨⟨Nat.lt_of_lt_of_le holds.accepted frame.accepted, holder.trans holds.holder,
          place.trans holds.place, holds.retained⟩, fact.kept kept, fun left same => ?_⟩
        obtain ⟨stopped, discard, charged⟩ := rounds left same
        exact ⟨frame.stopped stopped, discard, Nat.le_trans (frame.charged stopped) charged⟩
      · exact .inr ⟨close, retained, left, Nat.lt_of_lt_of_le accepted frame.accepted,
          frame.ended _ accepted ended⟩
  | fail queued =>
      obtain ⟨stopped, queued⟩ := fact
      refine ⟨frame.stopped stopped, fun id member => ?_⟩
      obtain ⟨accepted, doomed⟩ := queued id member
      exact ⟨Nat.lt_of_lt_of_le accepted frame.accepted, frame.doomed stopped id accepted doomed⟩
  | returned => exact ⟨frame.stopped fact.1, frame.queue fact.1 fact.2⟩
  | _ => exact fact.elim

theorem PartyFact.frame {shared shared' : Shared ω} {party : Party ω μ} {other : Option ω}
    {stage : Stage} (frame : Frame other shared shared')
    (ne : ∀ worker, party = .worker worker → some worker ≠ other)
    (fact : PartyFact shared party stage) : PartyFact shared' party stage := by
  cases party with
  | worker id => exact WorkerFact.frame frame (ne id rfl) fact
  | caller id =>
      cases stage with
      | leased job => exact Nat.lt_of_lt_of_le fact frame.accepted
      | dropping job => exact Nat.lt_of_lt_of_le fact frame.accepted
      | _ => exact fact
  | outside => cases stage <;> exact fact

end VThread.Blocking

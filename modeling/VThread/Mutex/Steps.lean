import VThread.Mutex.Views

/-!
# Steps of the mutex

What each step of a thread leaves behind, for the thread itself and for all others.
-/

namespace VThread.Mutex

open VThread.Lib VThread.Wait

variable {ι : Type} [DecidableEq ι] {thread other task : ι} {shared shared' : Shared ι}
  {pc pc' : Pc ι}

/-- At most one ticket arrives or gets its fate. -/
inductive Settles (fate : Nat → Option Fate) : (Nat → Option Fate) → Prop where
  | same : Settles fate fate
  | settled (number : Nat) (final : Fate) : fate number = none ∨ fate number = some .queued →
      Settles fate (Function.update fate number (some final))

/-- A step of `thread` keeps the invariant, establishes what the thread knows next, and
respects what the others know. -/
structure Sound (thread : ι) (shared shared' : Shared ι) (pc' : Pc ι) : Prop where
  inv : shared'.Inv
  fits : Fits (shared'.view thread) pc'
  owing : Owing shared' thread pc'
  moves : ∀ other ≠ thread, (shared.view other).Move (shared'.view other)
  owes : ∀ other ≠ thread, ∀ task claimed, Owes shared other task claimed →
    Owes shared' other task claimed
  fates : Settles shared.fate shared'.fate

theorem View.Move.of_eq {view view' : View} (equal : view' = view) : view.Move view' := by
  rw [equal]
  exact .same

/-- A step that changes nothing. -/
theorem Sound.still (inv : shared.Inv) (fits : Fits (shared.view thread) pc')
    (owing : Owing shared thread pc') : Sound thread shared shared pc' :=
  ⟨inv, fits, owing, fun _ _ => .same, fun _ _ _ _ owes => owes, .same⟩

/-! ## The ownership -/

/-- An unlocked cell has no owner. -/
theorem Shared.Inv.free (inv : shared.Inv) (state : shared.value.state = 0) :
    shared.holder = .free ∧ shared.entries = [] := by
  constructor
  · by_contra held
    have locked := inv.locked held
    rw [state] at locked
    simp [LOCKED, HAS_WAITERS] at locked
  · by_contra waiting
    have marked := inv.marked waiting
    rw [state] at marked
    simp [LOCKED, HAS_WAITERS] at marked

/-- An owned cell accepts the ownership. -/
theorem Shared.Inv.accepts (inv : shared.Inv) (held : shared.holder ≠ .free)
    {ownership : Ownership} (identity : ownership.identity = shared.value.identity) :
    shared.value.accepts ownership = true := by
  rcases inv.locked held with state | state
  · simp [ExclusiveCell.accepts, identity, state, LOCKED]
  · simp [ExclusiveCell.accepts, identity, state, LOCKED, HAS_WAITERS]

/-- To another thread it looks the same when only the lock word and the place of the
ownership change. -/
theorem Shared.view_holder {value : ExclusiveCell} {handoff : OwnershipSlot} {guards : Nat}
    {holder : Holder ι} (identity : value.identity = shared.value.identity)
    (standing : holder.standing other = shared.holder.standing other) :
    { shared with value, handoff, guards, holder }.view other = shared.view other := by
  simp [Shared.view, identity, standing]

theorem standing_of_call (held : shared.holder = .call thread) (differ : other ≠ thread) :
    shared.holder.standing other = .none := by
  rw [held]
  exact Holder.standing_call differ.symm

theorem tryLock_sound (inv : shared.Inv) (away : (shared.view thread).Away .none)
    (last : Last) (locks : shared.tryLock = some shared') :
    Sound thread shared shared' (.rest last) := by
  rw [Shared.tryLock, ExclusiveCell.tryLock] at locks
  split at locks
  · rename_i unlocked
    cases locks
    obtain ⟨free, empty⟩ := inv.free unlocked
    have stands : ∀ other : ι, Holder.guard.standing other = shared.holder.standing other := by
      simp [free]
    refine ⟨?_, ?_, trivial, fun other _ => .of_eq (Shared.view_holder rfl (stands other)),
      fun _ _ _ _ owes => owes, .same⟩
    · exact { inv with
        unlocked := by rintro ⟨⟩
        locked := fun _ => .inl rfl
        marked := fun waiting => absurd empty waiting
        handoff := by simpa [free, Holder.inSlot] using inv.handoff
        guards := by simpa [free] using inv.guards }
    · obtain ⟨idle, queued, _, reserved⟩ := away
      exact ⟨idle, queued, rfl, reserved⟩
  · cases locks

/-- A guard is about to be dropped. -/
theorem drop_sound (inv : shared.Inv) (away : (shared.view thread).Away .none)
    (live : shared.guards ≠ 0) :
    Sound thread shared
      { shared with guards := shared.guards - 1, holder := .call thread } .tryRelease := by
  have guarded : shared.holder = .guard := by
    by_contra free
    exact live (by simpa [free] using inv.guards)
  have guards : shared.guards = 1 := by simpa [guarded] using inv.guards
  refine ⟨?_, ?_, trivial, ?_, fun _ _ _ _ owes => owes, .same⟩
  · exact { inv with
      unlocked := nofun
      locked := fun _ => inv.locked (by simp [guarded])
      handoff := by simpa [guarded, Holder.inSlot] using inv.handoff
      guards := by simp [guards] }
  · obtain ⟨idle, queued, _, reserved⟩ := away
    exact ⟨idle, queued, Holder.standing_call_self, reserved⟩
  · intro other differ
    apply View.Move.of_eq
    apply Shared.view_holder rfl
    rw [guarded]
    exact Holder.standing_call differ.symm

/-- The guard of the calling thread becomes a live guard. -/
theorem guard_inv (inv : shared.Inv) (held : shared.holder = .call thread) :
    { shared with guards := shared.guards + 1, holder := .guard }.Inv :=
  { inv with
    unlocked := nofun
    locked := fun _ => inv.locked (by simp [held])
    handoff := by simpa [held, Holder.inSlot] using inv.handoff
    guards := by simpa [held] using inv.guards }

theorem claim_sound (inv : shared.Inv) {ownership : Ownership}
    (fits : Fits (shared.view thread) (.claim ownership : Pc ι)) :
    Sound thread shared { shared with guards := shared.guards + 1, holder := .guard }
      (.rest (.ok ())) := by
  obtain ⟨⟨idle, queued, stands, reserved⟩, _, _⟩ := fits
  have held := Holder.eq_call stands
  refine ⟨guard_inv inv held, ⟨idle, queued, rfl, reserved⟩, trivial, ?_,
    fun _ _ _ _ owes => owes, .same⟩
  intro other differ
  exact .of_eq (Shared.view_holder rfl (standing_of_call held differ).symm)

/-- A guard releases the lock at once. -/
theorem unlock_inv (inv : shared.Inv) (held : shared.holder = .call thread)
    (empty : shared.entries = []) (handoff : OwnershipSlot) (free : handoff.identity = 0) :
    { shared with
      value := { shared.value with state := 0 }, handoff, holder := .free }.Inv :=
  { inv with
    unlocked := fun _ => rfl
    locked := fun held => absurd rfl held
    marked := fun waiting => absurd empty waiting
    handoff := free
    guards := by simpa [held] using inv.guards }

theorem tryRelease_sound (inv : shared.Inv) (away : (shared.view thread).Away .call)
    {value : ExclusiveCell} {kept : Option Ownership}
    (releases : shared.value.tryRelease = .ok (value, kept)) :
    match kept with
    | none => Sound thread shared { shared with value, holder := .free } (.rest (.ok ()))
    | some ownership => Sound thread shared { shared with value }
        (.release ownership (.ok ())) := by
  obtain ⟨idle, queued, stands, reserved⟩ := away
  have held := Holder.eq_call stands
  have handoff : shared.handoff.identity = 0 := by
    simpa [held, Holder.inSlot] using inv.handoff
  rw [ExclusiveCell.tryRelease] at releases
  split at releases
  · rename_i locked
    cases releases
    have empty : shared.entries = [] := by
      by_contra waiting
      have marked := inv.marked waiting
      rw [locked] at marked
      simp [LOCKED, HAS_WAITERS] at marked
    refine ⟨unlock_inv inv held empty shared.handoff handoff, ⟨idle, queued, rfl, reserved⟩,
      trivial, ?_, fun _ _ _ _ owes => owes, .same⟩
    intro other differ
    exact .of_eq (Shared.view_holder rfl (standing_of_call held differ).symm)
  · split at releases
    · cases releases
    · cases releases
      exact .still inv ⟨⟨idle, queued, stands, reserved⟩, rfl⟩ trivial

/-- An owned cell is never found without its lock bit. -/
theorem tryRelease_ok (inv : shared.Inv) (held : shared.holder ≠ .free) :
    ∃ result, shared.value.tryRelease = .ok result := by
  rcases inv.locked held with state | state
  · simp [ExclusiveCell.tryRelease, state]
  · simp [ExclusiveCell.tryRelease, state, LOCKED, HAS_WAITERS]

/-! ## Words -/

@[simp] theorem Shared.view_setWord_self (word : WaitWord) :
    (shared.setWord thread word).view thread = { shared.view thread with word } := by
  simp [Shared.view, Shared.setWord]

theorem Shared.view_setWord (differ : other ≠ thread) (word : WaitWord) :
    (shared.setWord thread word).view other = shared.view other := by
  simp [Shared.view, Shared.setWord, differ]

/-- A claim stays owed while its word only gains the interest of the owner. -/
theorem owes_setWord {word claimed : WaitWord} (owes : Owes shared other task claimed)
    (changes : (shared.word thread).isClaimed = false ∨
      word = (shared.word thread).withPermit true) :
    Owes (shared.setWord thread word) other task claimed := by
  obtain ⟨publisher, isClaimed, permit, held⟩ := owes
  refine ⟨publisher, isClaimed, permit, ?_⟩
  by_cases same : task = thread
  · subst same
    rw [Shared.setWord_word_self]
    exact .inr (WaitWord.held_of_gains held isClaimed changes)
  · simpa [Shared.setWord, same] using held

/-- A step of a thread on its own word. -/
theorem Sound.word (inv : shared.Inv) {word : WaitWord}
    (fits : Fits { shared.view thread with word } pc')
    (owing : Owing (shared.setWord thread word) thread pc')
    (changes : (shared.word thread).isClaimed = false ∨
      word = (shared.word thread).withPermit true) :
    Sound thread shared (shared.setWord thread word) pc' where
  inv := { inv with
    active := by
      intro other active
      by_cases same : other = thread
      · subst same
        rw [Shared.setWord_word_self] at active ⊢
        exact fits.active active
      · rw [Shared.setWord_word same] at active ⊢
        exact inv.active other active }
  fits := by
    rw [Shared.view_setWord_self]
    exact fits
  owing := owing
  moves _ differ := .of_eq (Shared.view_setWord differ word)
  owes _ _ _ _ owes := owes_setWord owes changes
  fates := .same

theorem elsewhere_sound (inv : shared.Inv) (away : (shared.view thread).Away .none)
    {word : WaitWord} (idle : word.phase = .idle) :
    Sound thread shared (shared.setWord thread word) (.rest (.ok ())) :=
  .word inv ⟨idle, away.2⟩ trivial (.inl (unclaimed_of_idle away.1))

/-- Recycling makes the word fresh, unless the cell is closed. -/
theorem recycle_sound (inv : shared.Inv) (away : (shared.view thread).Away .none) :
    match (recycle (shared.word thread) : Decision) with
    | .exchange next _ => Sound thread shared (shared.setWord thread next) .reserve
    | .give (.flag true) => Sound thread shared shared .reserve
    | .give _ => True
    | _ => False := by
  have idle : (shared.word thread).phase = .idle := away.1
  by_cases closed : (shared.word thread).closed
  · simp [recycle, closed]
  by_cases needs : (shared.word thread).needsRecycle
  · simp only [recycle, idle, closed, needs]
    refine .word inv ⟨⟨idle, away.2⟩, idle, ?_, rfl, rfl⟩ trivial
      (.inl (unclaimed_of_idle idle))
    simpa [WaitWord.withPermit, WaitWord.withResource] using closed
  · simp only [recycle, idle, closed, needs]
    have clean : (shared.word thread).permit = false ∧ (shared.word thread).resource = none := by
      simpa [WaitWord.needsRecycle] using needs
    exact .still inv ⟨away, idle, (Bool.not_eq_true _).mp closed, clean⟩ trivial

theorem waiting_sound (inv : shared.Inv) {stage : Parking}
    (fits : Fits (shared.view thread) (.waiting stage : Pc ι)) {word : WaitWord}
    {next : ParkNext} {choice : ParkChoice}
    (taken : stage.step true (shared.timed thread) choice (shared.word thread) =
      some (word, next)) :
    Sound thread shared (shared.setWord thread word) (Pc.afterPark next) := by
  have effect := Parking.step_effect fits.2.2.1 taken
  have owing : Owing (shared.setWord thread word) thread (Pc.afterPark next) := by
    cases next with
    | stay => trivial
    | returns result => cases result <;> trivial
    | panics => trivial
  rcases park_unclaimed fits.2.2.1 effect with unclaimed | gains | same
  · exact .word inv (park_fits fits effect) owing (.inl unclaimed)
  · exact .word inv (park_fits fits effect) owing (.inr gains)
  · have fits' := park_fits fits effect
    subst same
    have still : shared.setWord thread (shared.view thread).word = shared := by
      simp [Shared.setWord, Shared.view]
    rw [still] at owing ⊢
    exact .still inv fits' owing

theorem takeResource_sound (inv : shared.Inv) {error : Error}
    (fits : Fits (shared.view thread) (.takeResource error : Pc ι)) :
    match (tryTakeResource (shared.word thread) : Decision) with
    | .give _ => Sound thread shared shared (.rest (.error error))
    | .exchange next (.adjust (.resource (some .permit))) =>
        Sound thread shared (shared.setWord thread next) (.takeSelected error)
    | .exchange _ _ => False
    | _ => True := by
  obtain ⟨reserved, idle, ⟨stands, resource⟩ | ⟨stands, resource⟩⟩ := fits
  · have phase : (shared.word thread).phase = .idle := idle
    have permit : (shared.word thread).resource = some .permit := resource
    simp only [tryTakeResource, WaitWord.resourceTake, phase, permit, WaitWord.isClaimed]
    exact .word inv ⟨reserved, idle, stands.word _⟩ trivial (.inl (unclaimed_of_idle phase))
  · have none : (shared.word thread).resource = none := resource
    simp only [tryTakeResource, none]
    exact .still inv ⟨idle, stands.1, stands.2.1, reserved⟩ trivial

/-! ## Claims and publications -/

/-- A claim is owed by the thread that made it. -/
theorem owes_claim {claimed : WaitWord} (isClaimed : claimed.isClaimed = true)
    (permit : claimed.permit = false) :
    Owes (shared.claim thread task claimed) thread task claimed :=
  ⟨Function.update_self .., isClaimed, permit, .inl (Shared.setWord_word_self ..)⟩

/-- No claim is owed for an unclaimed word, so a new claim displaces none. -/
theorem owes_of_claim {claimed claimed' : WaitWord} {task' : ι}
    (unclaimed : (shared.word task).isClaimed = false)
    (owes : Owes shared other task' claimed') :
    Owes (shared.claim thread task claimed) other task' claimed' := by
  obtain ⟨publisher, isClaimed, permit, held⟩ := owes
  by_cases same : task' = task
  · subst same
    cases unclaimed.symm.trans (WaitWord.isClaimed_of_held held isClaimed)
  · refine ⟨?_, isClaimed, permit, ?_⟩
    · simpa [Shared.claim, same] using publisher
    · simpa [Shared.claim, Shared.setWord_word same] using held

omit [DecidableEq ι] in
/-- A live word belongs to another thread than a resting one. -/
theorem differs_of_live (idle : (shared.word thread).phase = .idle)
    (live : (shared.word task).phase ≠ .idle) : thread ≠ task := by
  intro same
  subst same
  exact live idle

theorem select_sound (inv : shared.Inv) (away : (shared.view thread).Away .none)
    {cause : WakeCause} (fires : shared.mayFire task cause = true)
    (active : (shared.word task).phase = .active) :
    Sound thread shared (shared.claim thread task ((shared.word task).claimed cause))
      (.publish task ((shared.word task).claimed cause) (.ok ())) := by
  have differ : thread ≠ task := differs_of_live away.1 (by simp [active])
  have same : ∀ other, other ≠ task →
      (shared.claim thread task ((shared.word task).claimed cause)).view other =
        shared.view other := fun other differ => Shared.view_setWord differ _
  have denies : Denies (shared.timed task) cause := by
    simpa [Shared.mayFire, Denies] using fires
  refine ⟨?_, ?_, owes_claim rfl (inv.active task active), ?_,
    fun other _ task' claimed' owes => owes_of_claim (unclaimed_of_active active) owes,
    .same⟩
  · exact { inv with
      active := by
        intro other active'
        by_cases equal : other = task
        · subst equal
          simp only [Shared.claim, Shared.setWord_word_self]
          exact inv.active other active
        · simp only [Shared.claim, Shared.setWord_word equal] at active' ⊢
          exact inv.active other active' }
  · rw [same thread differ]
    exact away
  · intro other _
    by_cases equal : other = task
    · subst equal
      have view : (shared.claim thread other ((shared.word other).claimed cause)).view other =
          { shared.view other with word := (shared.word other).claimed cause } :=
        Shared.view_setWord_self _
      rw [view]
      exact .selected cause active denies
    · exact .of_eq (same other equal)

theorem query_sound (inv : shared.Inv) (away : (shared.view thread).Away .none)
    (claimed : (shared.word task).isClaimed = true) :
    Sound thread shared (shared.setWord task ((shared.word task).withPermit true))
      (.rest (.ok ())) := by
  obtain ⟨cause, phase⟩ := WaitWord.isClaimed_iff.mp claimed
  have differ : thread ≠ task := differs_of_live away.1 (by simp [phase])
  refine ⟨?_, ?_, trivial, ?_, fun _ _ _ _ owes => owes_setWord owes (.inr rfl),
    .same⟩
  · exact { inv with
      active := by
        intro other active
        by_cases equal : other = task
        · subst equal
          rw [Shared.setWord_word_self, WaitWord.withPermit] at active
          simp [phase] at active
        · rw [Shared.setWord_word equal] at active ⊢
          exact inv.active other active }
  · rw [Shared.view_setWord differ]
    exact away
  · intro other _
    by_cases equal : other = task
    · subst equal
      rw [Shared.view_setWord_self]
      exact .queried claimed
    · exact .of_eq (Shared.view_setWord equal _)

/-- The claimant of a cell publishes it. -/
theorem publish_sound (inv : shared.Inv) (away : (shared.view thread).Away .none)
    {claimed : WaitWord} (owes : Owes shared thread task claimed) (last : Last) :
    ∃ published, shared.publishClaim task claimed = .ok published ∧
      Sound thread shared published (.rest last) := by
  obtain ⟨publisher, isClaimed, permit, held⟩ := owes
  obtain ⟨cause, phase⟩ := WaitWord.isClaimed_iff.mp isClaimed
  have phase' : (shared.word task).phase = .claim cause := by
    rcases held with held | held <;> simp [held, WaitWord.withPermit, phase]
  have differ : thread ≠ task := differs_of_live away.1 (by simp [phase'])
  refine ⟨_, by rw [Shared.publishClaim, WaitWord.publishObserved_eq phase permit held]; rfl,
    ?_, ?_, trivial, ?_, ?_, ?_⟩
  · exact { inv with
      active := by
        intro other active
        by_cases equal : other = task
        · subst equal
          simp only [Shared.setWord_word_self] at active
          cases active
        · simp only [Shared.setWord_word equal] at active ⊢
          exact inv.active other active }
  · have same := @Shared.view_setWord ι _ task thread shared differ
      (((shared.word task).withPhase (.selected cause)).withPermit false)
    exact same ▸ away
  · intro other _
    by_cases equal : other = task
    · subst equal
      have view := @Shared.view_setWord_self ι _ other shared
        (((shared.word other).withPhase (.selected cause)).withPermit false)
      have moved : (shared.view other).Move _ := .published cause phase'
      exact view ▸ moved
    · exact .of_eq (Shared.view_setWord equal _)
  · rintro other differs task' claimed' ⟨publisher', isClaimed', permit', held'⟩
    by_cases equal : task' = task
    · subst equal
      rw [publisher] at publisher'
      cases publisher'
      exact absurd rfl differs
    · refine ⟨?_, isClaimed', permit', ?_⟩
      · simpa [equal] using publisher'
      · simpa [Shared.setWord_word equal] using held'
  · exact .same

end VThread.Mutex

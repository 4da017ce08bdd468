import VThread.Gate.Views

/-!
# Steps on cells and permits

What the steps outside of the queue sections leave behind, for the thread itself and for all
others.
-/

namespace VThread.Gate

open VThread.Lib VThread.Wait

variable {ι : Type} [DecidableEq ι] {thread other task : ι} {shared shared' : Shared ι}
  {pc pc' : Pc ι}

/-- A step of `thread` keeps the invariant, establishes what the thread knows next, and
respects what the others know. -/
structure Sound (thread : ι) (shared shared' : Shared ι) (pc' : Pc ι) : Prop where
  inv : shared'.Inv
  fits : Fits (shared'.view thread) pc'
  owing : Owing shared' thread pc'
  moves : ∀ other ≠ thread, (shared.view other).Move (shared'.view other)
  owes : ∀ other ≠ thread, ∀ task claimed, Owes shared other task claimed →
    Owes shared' other task claimed

theorem View.Move.of_eq {view view' : View} (equal : view' = view) : view.Move view' := by
  rw [equal]
  exact .same

/-- A step that changes nothing. -/
theorem Sound.still (inv : shared.Inv) (fits : Fits (shared.view thread) pc')
    (owing : Owing shared thread pc') : Sound thread shared shared pc' :=
  ⟨inv, fits, owing, fun _ _ => .same, fun _ _ _ _ owes => owes⟩

/-! ## Words -/

@[simp] theorem Shared.view_setWord_self (word : WaitWord) :
    (shared.setWord thread word).view thread = { shared.view thread with word } := by
  simp [Shared.view, Shared.setWord]

theorem Shared.view_setWord (differ : other ≠ thread) (word : WaitWord) :
    (shared.setWord thread word).view other = shared.view other := by
  simp [Shared.view, Shared.setWord, differ]

/-- Words that change store no permit while they are active. -/
theorem Shared.Inv.setWord (inv : shared.Inv) {word : WaitWord}
    (active : word.phase = .active → word.permit = false) :
    (shared.setWord thread word).Inv :=
  { inv with
    active := by
      intro other active'
      by_cases same : other = thread
      · subst same
        rw [Shared.setWord_word_self] at active' ⊢
        exact active active'
      · rw [Shared.setWord_word same] at active' ⊢
        exact inv.active other active' }

/-- A claim stays owed while its word only gains the interest of the owner. -/
theorem owes_setWord {word claimed : WaitWord} (owes : Owes shared other task claimed)
    (changes : (shared.word thread).isClaimed = false ∨
      word = (shared.word thread).withPermit true) :
    Owes (shared.setWord thread word) other task claimed := by
  obtain ⟨publisher, isClaimed, permit, held⟩ := owes
  refine ⟨publisher, isClaimed, permit, ?_⟩
  by_cases same : task = thread
  · subst same
    rw [Shared.setWord_word_self]
    exact .inr (WaitWord.held_of_gains held isClaimed changes)
  · simpa [Shared.setWord, same] using held

/-- A step of a thread on its own word. -/
theorem Sound.word (inv : shared.Inv) {word : WaitWord}
    (fits : Fits { shared.view thread with word } pc')
    (owing : Owing (shared.setWord thread word) thread pc')
    (changes : (shared.word thread).isClaimed = false ∨
      word = (shared.word thread).withPermit true) :
    Sound thread shared (shared.setWord thread word) pc' where
  inv := inv.setWord fits.active
  fits := by
    rw [Shared.view_setWord_self]
    exact fits
  owing := owing
  moves _ differ := .of_eq (Shared.view_setWord differ word)
  owes _ _ _ _ owes := owes_setWord owes changes

theorem elsewhere_sound (inv : shared.Inv) (away : (shared.view thread).Away 0)
    {word : WaitWord} (idle : word.phase = .idle) (openCell : word.closed = false) (last : Last) :
    Sound thread shared (shared.setWord thread word) (.rest last) :=
  .word inv ⟨idle, openCell, away.queued, away.reserved, away.selected, away.carried⟩ trivial
    (.inl (unclaimed_of_idle away.idle))

/-- An open cell is recycled. -/
theorem recycle_sound (inv : shared.Inv) (away : (shared.view thread).Away 0) :
    match (recycle (shared.word thread) : Decision) with
    | .exchange next _ => Sound thread shared (shared.setWord thread next) .reserve
    | .give (.flag true) => Sound thread shared shared .reserve
    | _ => False := by
  have idle : (shared.word thread).phase = .idle := away.idle
  have openCell : (shared.word thread).closed = false := away.openCell
  by_cases needs : (shared.word thread).needsRecycle
  · simp only [recycle, idle, openCell, needs]
    exact .word inv ⟨⟨idle, openCell, away.queued, away.reserved, away.selected, away.carried⟩,
      idle, openCell, rfl, rfl⟩ trivial (.inl (unclaimed_of_idle idle))
  · simp only [recycle, idle, openCell, needs]
    have clean : (shared.word thread).permit = false ∧ (shared.word thread).resource = none := by
      simpa [WaitWord.needsRecycle] using needs
    exact .still inv ⟨away, idle, openCell, clean.1, clean.2⟩ trivial

theorem waiting_sound (inv : shared.Inv) {stage : Parking}
    (fits : Fits (shared.view thread) (.waiting stage : Pc ι)) {word : WaitWord}
    {next : ParkNext} {choice : ParkChoice}
    (taken : stage.step false (shared.timed thread) choice (shared.word thread) =
      some (word, next)) :
    Sound thread shared (shared.setWord thread word) (Pc.afterPark next) := by
  have effect := Parking.step_effect fits.2.1 taken
  have owing : Owing (shared.setWord thread word) thread (Pc.afterPark next) := by
    cases next with
    | stay => trivial
    | returns result => cases result <;> trivial
    | panics => trivial
  rcases park_unclaimed fits.2.1 effect with unclaimed | gains | same
  · exact .word inv (park_fits fits effect) owing (.inl unclaimed)
  · exact .word inv (park_fits fits effect) owing (.inr gains)
  · have fits' := park_fits fits effect
    subst same
    have still : shared.setWord thread (shared.view thread).word = shared := by
      simp [Shared.setWord, Shared.view]
    rw [still] at owing ⊢
    exact .still inv fits' owing

/-- What `try_take_resource` makes of an idle word. -/
theorem tryTakeResource_idle {word : WaitWord} (idle : word.phase = .idle) :
    (tryTakeResource word : Decision) = match word.resource with
      | none => .give (.resource none)
      | some selection =>
          .exchange (word.withResource none) (.adjust (.resource (some selection))) := by
  cases resource : word.resource with
  | none => simp [tryTakeResource, resource]
  | some =>
      simp [tryTakeResource, resource, WaitWord.resourceTake, idle, unclaimed_of_idle idle]

theorem takeResource_sound (inv : shared.Inv) {selection : ResourceSelection}
    (keeps : (shared.view thread).Keeps (.granted selection)) :
    (tryTakeResource (shared.word thread) : Decision) =
        .exchange ((shared.word thread).withResource none)
          (.adjust (.resource (some selection))) ∧
      Sound thread shared (shared.setWord thread ((shared.word thread).withResource none))
        (.complete selection) := by
  obtain ⟨idle, reserved, stands, openCell, resource⟩ := keeps
  have idle : (shared.word thread).phase = .idle := idle
  have resource : (shared.word thread).resource = some selection := resource
  refine ⟨by rw [tryTakeResource_idle idle, resource], ?_⟩
  refine .word inv ⟨⟨idle, ?_, reserved, stands.selected, stands.carried⟩, openCell⟩ trivial
    (.inl (unclaimed_of_idle idle))
  exact fun queued => nomatch stands.of_queued queued

/-- An idle cell is opened again. -/
theorem reset_sound (inv : shared.Inv) {selection : Option ResourceSelection}
    (leaves : (shared.view thread).Leaves selection) (error : Error) :
    match (resetClosedGate (shared.word thread) : Decision) with
    | .give (.flag true) => Sound thread shared shared (.release selection error)
    | .exchange next _ =>
        Sound thread shared (shared.setWord thread next) (.release selection error)
    | _ => False := by
  have idle : (shared.word thread).phase = .idle := leaves.idle
  by_cases closed : (shared.word thread).closed
  · simp only [resetClosedGate, idle, closed]
    exact .word inv ⟨⟨idle, leaves.queued, leaves.reserved, leaves.selected, leaves.carried⟩, rfl⟩
      trivial (.inl (unclaimed_of_idle idle))
  · simp only [resetClosedGate, idle, closed]
    exact .still inv ⟨leaves, (Bool.not_eq_true _).mp closed⟩ trivial

/-! ## Claims and publications -/

/-- A claim is owed by the thread that made it. -/
theorem owes_claim {claimed : WaitWord} (isClaimed : claimed.isClaimed = true)
    (permit : claimed.permit = false) :
    Owes (shared.claim thread task claimed) thread task claimed :=
  ⟨Function.update_self .., isClaimed, permit, .inl (Shared.setWord_word_self ..)⟩

/-- No claim is owed for an unclaimed word, so a new claim displaces none. -/
theorem owes_of_claim {claimed claimed' : WaitWord} {task' : ι}
    (unclaimed : (shared.word task).isClaimed = false)
    (owes : Owes shared other task' claimed') :
    Owes (shared.claim thread task claimed) other task' claimed' := by
  obtain ⟨publisher, isClaimed, permit, held⟩ := owes
  by_cases same : task' = task
  · subst same
    cases unclaimed.symm.trans (WaitWord.isClaimed_of_held held isClaimed)
  · refine ⟨?_, isClaimed, permit, ?_⟩
    · simpa [Shared.claim, same] using publisher
    · simpa [Shared.claim, Shared.setWord_word same] using held

omit [DecidableEq ι] in
/-- A live word belongs to another thread than a resting one. -/
theorem differs_of_live (idle : (shared.word thread).phase = .idle)
    (live : (shared.word task).phase ≠ .idle) : thread ≠ task := by
  intro same
  subst same
  exact live idle

theorem select_sound (inv : shared.Inv) (away : (shared.view thread).Away 0)
    {cause : WakeCause} (fires : shared.mayFire task cause = true)
    (active : (shared.word task).phase = .active) (last : Last) :
    Sound thread shared (shared.claim thread task ((shared.word task).claimed cause))
      (.publish task ((shared.word task).claimed cause) last) := by
  have differ : thread ≠ task := differs_of_live away.idle (by simp [active])
  have same : ∀ other, other ≠ task →
      (shared.claim thread task ((shared.word task).claimed cause)).view other =
        shared.view other := fun other differ => Shared.view_setWord differ _
  have denies : Denies (shared.timed task) cause := by
    simpa [Shared.mayFire, Denies] using fires
  refine ⟨?_, ?_, owes_claim rfl (inv.active task active), ?_,
    fun other _ task' claimed' owes => owes_of_claim (unclaimed_of_active active) owes⟩
  · have inv' := @Shared.Inv.setWord _ _ task shared inv ((shared.word task).claimed cause) nofun
    exact { inv' with }
  · rw [same thread differ]
    exact away
  · intro other _
    by_cases equal : other = task
    · subst equal
      have view : (shared.claim thread other ((shared.word other).claimed cause)).view other =
          { shared.view other with word := (shared.word other).claimed cause } :=
        Shared.view_setWord_self _
      rw [view]
      exact .selected cause active denies
    · exact .of_eq (same other equal)

theorem query_sound (inv : shared.Inv) (away : (shared.view thread).Away 0)
    (claimed : (shared.word task).isClaimed = true) (last : Last) :
    Sound thread shared (shared.setWord task ((shared.word task).withPermit true))
      (.rest last) := by
  obtain ⟨cause, phase⟩ := WaitWord.isClaimed_iff.mp claimed
  have differ : thread ≠ task := differs_of_live away.idle (by simp [phase])
  refine ⟨inv.setWord ?_, ?_, trivial, ?_, fun _ _ _ _ owes => owes_setWord owes (.inr rfl)⟩
  · intro active
    rw [WaitWord.withPermit] at active
    simp [phase] at active
  · rw [Shared.view_setWord differ]
    exact away
  · intro other _
    by_cases equal : other = task
    · subst equal
      rw [Shared.view_setWord_self]
      exact .queried claimed
    · exact .of_eq (Shared.view_setWord equal _)

/-- The claimant of a cell publishes it. -/
theorem publish_sound (inv : shared.Inv) (away : (shared.view thread).Away 0)
    {claimed : WaitWord} (owes : Owes shared thread task claimed) (last : Last) :
    ∃ published, shared.publishClaim task claimed = .ok published ∧
      Sound thread shared published (.rest last) := by
  obtain ⟨publisher, isClaimed, permit, held⟩ := owes
  obtain ⟨cause, phase⟩ := WaitWord.isClaimed_iff.mp isClaimed
  have phase' : (shared.word task).phase = .claim cause := by
    rcases held with held | held <;> simp [held, WaitWord.withPermit, phase]
  have differ : thread ≠ task := differs_of_live away.idle (by simp [phase'])
  refine ⟨_, by rw [Shared.publishClaim, WaitWord.publishObserved_eq phase permit held]; rfl,
    ?_, ?_, trivial, ?_, ?_⟩
  · have inv' := @Shared.Inv.setWord _ _ task shared inv
      (((shared.word task).withPhase (.selected cause)).withPermit false) (by rintro ⟨⟩)
    exact { inv' with }
  · have same := @Shared.view_setWord ι _ task thread shared differ
      (((shared.word task).withPhase (.selected cause)).withPermit false)
    exact same ▸ away
  · intro other _
    by_cases equal : other = task
    · subst equal
      have view := @Shared.view_setWord_self ι _ other shared
        (((shared.word other).withPhase (.selected cause)).withPermit false)
      have moved : (shared.view other).Move _ := .published cause phase'
      exact view ▸ moved
    · exact .of_eq (Shared.view_setWord equal _)
  · rintro other differs task' claimed' ⟨publisher', isClaimed', permit', held'⟩
    by_cases equal : task' = task
    · subst equal
      rw [publisher] at publisher'
      cases publisher'
      exact absurd rfl differs
    · refine ⟨?_, isClaimed', permit', ?_⟩
      · simpa [equal] using publisher'
      · simpa [Shared.setWord_word equal] using held'

end VThread.Gate

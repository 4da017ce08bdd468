import VThread.Channel.Sections

/-!
# Steps of a channel

What each step of a thread leaves behind, for the thread itself and for all others.
-/

namespace VThread.Channel

open VThread.Lib VThread.Wait

variable {ι α : Type} {thread other task : ι} {shared shared' : Shared ι α} {pc' : Pc ι α}
  {run : Run ι α} {call : Option (Op α)} {word word' : WaitWord}

/-- A step of `thread` keeps the invariant, establishes what the thread knows next, and
respects what the others know. -/
structure Sound (thread : ι) (shared : Shared ι α) (call : Option (Op α))
    (shared' : Shared ι α) (pc' : Pc ι α) : Prop where
  inv : shared'.Inv
  fits : Fits thread (shared'.view thread) pc'
  owing : Owing shared' thread pc'
  moves : ∀ other ≠ thread, (shared.view other).Move (shared'.view other)
  owes : ∀ other ≠ thread, ∀ task claimed, Owes shared other task claimed →
    Owes shared' other task claimed
  stay : OthersStay thread shared shared'
  effect : Effect thread shared call shared'.traffic pc'.op

/-- A step that changes nothing. -/
theorem Sound.still (inv : shared.Inv) (fits : Fits thread (shared.view thread) pc')
    (owing : Owing shared thread pc') (same : pc'.op = call) :
    Sound thread shared call shared pc' := by
  refine ⟨inv, fits, owing, fun _ _ => .refl _, fun _ _ _ _ => id, fun _ => .stays, ?_⟩
  rw [same]
  exact .quiet call

/-! ## Sections -/

/-- A section ends with its notifications. -/
theorem Sectioned.sound {after : Shared ι α} {next : Resume ι α}
    (sectioned : Sectioned thread shared call after next) (free : shared.lock = none)
    (idle : (shared.word thread).phase = .idle) :
    Sound thread shared call (after.hold thread) (.unlock next) where
  inv := sectioned.inv
  fits := by
    refine ⟨rfl, ?_, ?_⟩
    · change (after.word thread).phase = .idle
      rw [sectioned.word]
      exact idle
    · cases next with
      | park run =>
          exact ⟨sectioned.fits.1, sectioned.fits.2.1, sectioned.fits.2.2⟩
      | rest | enter | drop => exact sectioned.fits
  owing := trivial
  moves other differ := by
    constructor
    · change Follows (shared.word other) (after.word other)
      rw [sectioned.word]
      exact .refl _
    · funext direction
      exact propext (sectioned.stay.queued differ direction)
    · change some thread = some other ↔ shared.lock = some other
      rw [free]
      simp [differ.symm]
    · exact fun due => .inl (sectioned.due other differ due)
  owes _ _ _ _ owes := owes.keep sectioned.word sectioned.publisher
  stay := sectioned.stay
  effect := sectioned.effect

/-- The lock is released when nobody is left to notify. -/
theorem unlock_sound {next : Resume ι α} (inv : shared.Inv)
    (fits : Fits thread (shared.view thread) (.unlock next : Pc ι α))
    (told : shared.pending = []) :
    Sound thread shared next.op { shared with lock := none } next.pc := by
  obtain ⟨held, idle, knows⟩ := fits
  have held : shared.lock = some thread := held
  have released : ¬ ({ shared with lock := none }.view thread).holds := by rintro ⟨⟩
  refine ⟨{ inv with unlocked := fun _ => told }, ?_, ?_, ?_, fun _ _ _ _ owes =>
    owes.keep rfl rfl, fun _ => .stays, ?_⟩
  · cases next with
    | rest | enter | drop => exact ⟨released, idle, knows⟩
    | park run => exact ⟨released, knows.1, knows.2.1, idle, knows.2.2, by rintro _ ⟨⟩⟩
  · cases next <;> trivial
  · intro other differ
    refine ⟨.refl _, rfl, ?_, .inl⟩
    change none = some other ↔ shared.lock = some other
    rw [held]
    simp [differ.symm]
  · cases next <;> exact .quiet _

/-! ## Words -/

theorem Follows.of_live (live : word.phase ≠ .idle) (unbound : word.phase ≠ .binding)
    (generation : word'.generation = word.generation) (live' : word'.phase ≠ .idle)
    (unbound' : word'.phase ≠ .binding) (woken : Woken word') : Follows word word' where
  generation := generation
  idle := ⟨fun idle => absurd idle live', fun idle => absurd idle live⟩
  binding isBinding := absurd isBinding unbound
  unbound _ := unbound'
  woken _ := woken

theorem woken_claimed (cause : WakeCause) : Woken (word.claimed cause) :=
  .inr ⟨cause, .inl rfl⟩

theorem follows_claimed (active : word.phase = .active) (cause : WakeCause) :
    Follows word (word.claimed cause) :=
  .of_live (by simp [active]) (by simp [active]) rfl (by rintro ⟨⟩) (by rintro ⟨⟩)
    (woken_claimed cause)

theorem follows_permit (unbound : word.phase ≠ .binding) :
    Follows word (word.withPermit true) where
  generation := rfl
  idle := .rfl
  binding isBinding := absurd isBinding unbound
  unbound := id
  woken _ := .inl rfl

theorem follows_published {cause : WakeCause} (phase : word.phase = .claim cause) :
    Follows word ((word.withPhase (.selected cause)).withPermit false) :=
  .of_live (by simp [phase]) (by simp [phase]) rfl (by rintro ⟨⟩) (by rintro ⟨⟩)
    (.inr ⟨cause, .inr rfl⟩)

section Words

variable [DecidableEq ι]

theorem Shared.Inv.setWord (inv : shared.Inv) (isOpen : word.closed = false)
    (active : word.phase = .active → word.permit = false) :
    (shared.setWord task word).Inv :=
  { inv with
    openCell := by
      intro other
      by_cases same : other = task
      · subst same
        simpa [Shared.setWord] using isOpen
      · simpa [Shared.setWord, same] using inv.openCell other
    active := by
      intro other
      by_cases same : other = task
      · subst same
        simpa [Shared.setWord] using active
      · simpa [Shared.setWord, same] using inv.active other }

@[simp] theorem Shared.view_setWord_self (word : WaitWord) :
    (shared.setWord thread word).view thread = { shared.view thread with word } := by
  simp [Shared.view, Shared.setWord, Shared.Due, Shared.front, Shared.Ready]

theorem Shared.view_setWord (differ : other ≠ thread) (word : WaitWord) :
    (shared.setWord thread word).view other = shared.view other := by
  simp [Shared.view, Shared.setWord, differ, Shared.Due, Shared.front, Shared.Ready]

/-- The step of another thread on a word. -/
theorem View.Move.setWord (follows : Follows (shared.word task) word) (other : ι) :
    (shared.view other).Move ((shared.setWord task word).view other) := by
  by_cases same : other = task
  · subst same
    rw [Shared.view_setWord_self]
    exact ⟨follows, rfl, .rfl, .inl⟩
  · exact .of_eq (Shared.view_setWord same word)

/-- A claim stays owed while its word only gains the interest of the owner. -/
theorem Owes.setWord {claimed : WaitWord} (owes : Owes shared other task claimed) {target : ι}
    (changes : (shared.word target).isClaimed = false ∨
      word = (shared.word target).withPermit true) :
    Owes (shared.setWord target word) other task claimed := by
  refine ⟨owes.publisher, owes.isClaimed, owes.permit, ?_⟩
  by_cases same : task = target
  · subst same
    right
    simpa [Shared.setWord] using WaitWord.held_of_gains owes.held owes.isClaimed changes
  · simpa [Shared.setWord, same] using owes.held

/-- A step of a thread on its own word. -/
theorem Sound.setWord (inv : shared.Inv) (isOpen : word.closed = false)
    (active : word.phase = .active → word.permit = false)
    (fits : Fits thread { shared.view thread with word } pc')
    (owing : Owing (shared.setWord thread word) thread pc')
    (changes : (shared.word thread).isClaimed = false ∨
      word = (shared.word thread).withPermit true) (same : pc'.op = call) :
    Sound thread shared call (shared.setWord thread word) pc' where
  inv := inv.setWord isOpen active
  fits := by
    rw [Shared.view_setWord_self]
    exact fits
  owing := owing
  moves _ differ := .of_eq (Shared.view_setWord differ word)
  owes _ _ _ _ owes := owes.setWord changes
  stay _ := .stays
  effect := by
    rw [same]
    exact .quiet call

theorem unclaimed_of_idle (idle : word.phase = .idle) : word.isClaimed = false := by
  rw [WaitWord.isClaimed, idle]

/-- A claim is owed by the thread that made it. -/
theorem owes_claim {claimed : WaitWord} (isClaimed : claimed.isClaimed = true)
    (permit : claimed.permit = false) :
    Owes (shared.claim thread task claimed) thread task claimed :=
  ⟨Function.update_self .., isClaimed, permit, .inl (Function.update_self ..)⟩

/-- No claim is owed for an active word, so a new claim displaces none. -/
theorem Owes.claim {claimed claimed' : WaitWord} {task' : ι}
    (owes : Owes shared other task' claimed') (active : (shared.word task).phase = .active) :
    Owes (shared.claim thread task claimed) other task' claimed' := by
  have differ : task' ≠ task := by
    rintro rfl
    have isClaimed := owes.isClaimed
    rcases owes.held with held | held <;> rw [held] at active
    · rw [WaitWord.isClaimed, active] at isClaimed
      cases isClaimed
    · have active : claimed'.phase = .active := active
      rw [WaitWord.isClaimed, active] at isClaimed
      cases isClaimed
  refine ⟨?_, owes.isClaimed, owes.permit, ?_⟩
  · simpa [Shared.claim, differ] using owes.publisher
  · simpa [Shared.claim, Shared.setWord, differ] using owes.held

/-- A notified thread is awake, so it need not be told again. -/
theorem notified_move {rest : List ι} (pending : shared.pending = task :: rest)
    (follows : Follows (shared.word task) word) (woken : Woken word) (other : ι) :
    (shared.view other).Move ({ shared.setWord task word with pending := rest }.view other) := by
  have move := View.Move.setWord follows other
  refine ⟨move.word, move.queued, move.holds, ?_⟩
  rintro ⟨unnotified, first⟩
  by_cases same : other = task
  · right
    subst same
    change Woken (Function.update shared.word other word other)
    rwa [Function.update_self]
  · refine .inl ⟨?_, first⟩
    rw [pending]
    exact fun member => (List.mem_cons.mp member).elim same unnotified

/-- A notification of an active cell claims it. -/
theorem notify_claim {next : Resume ι α} {rest : List ι} (inv : shared.Inv)
    (fits : Fits thread (shared.view thread) (.unlock next : Pc ι α))
    (pending : shared.pending = task :: rest) (active : (shared.word task).phase = .active) :
    Sound thread shared next.op
      { shared.claim thread task ((shared.word task).claimed .ready) with pending := rest }
      (.publish task ((shared.word task).claimed .ready) (some next)) := by
  have follows := follows_claimed active .ready
  have moves := notified_move pending follows (woken_claimed .ready)
  have held : shared.lock ≠ none := by
    rw [show shared.lock = some thread from fits.1]
    rintro ⟨⟩
  have inv' : (shared.setWord task ((shared.word task).claimed .ready)).Inv :=
    inv.setWord (inv.openCell task) (by rintro ⟨⟩)
  refine ⟨{ inv' with unlocked := fun free => absurd free held }, ?_, ?_,
    fun other _ => moves other, fun _ _ _ _ owes => (owes.claim active).keep rfl rfl,
    fun _ => .stays, .quiet _⟩
  · exact fits.move (moves thread)
  · have owes : Owes (shared.claim thread task ((shared.word task).claimed .ready)) thread task
        ((shared.word task).claimed .ready) := owes_claim rfl (inv.active task active)
    exact owes.keep rfl rfl

/-- A notification of another cell stores a permit there. -/
theorem notify_store {next : Resume ι α} {rest : List ι} (inv : shared.Inv)
    (fits : Fits thread (shared.view thread) (.unlock next : Pc ι α))
    (pending : shared.pending = task :: rest) (unbound : (shared.word task).phase ≠ .binding)
    (inactive : (shared.word task).phase ≠ .active) :
    Sound thread shared next.op
      { shared.setWord task ((shared.word task).withPermit true) with pending := rest }
      (.unlock next) := by
  have moves := notified_move pending (follows_permit unbound) (.inl rfl)
  have held : shared.lock ≠ none := by
    rw [show shared.lock = some thread from fits.1]
    rintro ⟨⟩
  have inv' : (shared.setWord task ((shared.word task).withPermit true)).Inv :=
    inv.setWord (inv.openCell task) fun active => absurd active inactive
  refine ⟨{ inv' with unlocked := fun free => absurd free held }, fits.move (moves thread),
    trivial, fun other _ => moves other, ?_, fun _ => .stays, .quiet _⟩
  intro other _ task' claimed owes
  exact (owes.setWord (.inr rfl)).keep rfl rfl

/-- The holder of the lock notifies the next cell, or releases the lock. -/
theorem stepUnlock_sound {next : Resume ι α} (inv : shared.Inv)
    (fits : Fits thread (shared.view thread) (.unlock next : Pc ι α))
    (taken : stepUnlock thread shared next = some (shared', pc')) :
    Sound thread shared next.op shared' pc' := by
  rw [stepUnlock] at taken
  split at taken
  · rename_i told
    cases taken
    exact unlock_sound inv fits told
  · rename_i task rest pending
    simp only [notify, inv.openCell] at taken
    by_cases unbound : (shared.word task).phase = .binding
    · simp [unbound] at taken
    by_cases active : (shared.word task).phase = .active
    · rw [if_neg unbound, if_neg Bool.false_ne_true, if_pos active] at taken
      cases taken
      exact notify_claim inv fits pending active
    by_cases claimed : (shared.word task).isClaimed = true
    · simp [unbound, active, claimed] at taken
    · rw [if_neg unbound, if_neg Bool.false_ne_true, if_neg active, if_neg claimed] at taken
      cases taken
      exact notify_store inv fits pending unbound active

/-- The claimant of a cell publishes it. -/
theorem publish_sound (inv : shared.Inv) {claimed : WaitWord}
    {next : Option (Resume ι α)}
    (fits : Fits thread (shared.view thread) (.publish task claimed next : Pc ι α))
    (owes : Owes shared thread task claimed)
    (after : Pc ι α) (resumes : after = match next with
      | some next => .unlock next
      | none => .rest) :
    ∃ published, shared.publishClaim task claimed = .ok published ∧
      Sound thread shared (Pc.publish task claimed next).op published after := by
  obtain ⟨cause, phase⟩ := WaitWord.isClaimed_iff.mp owes.isClaimed
  have phase' : (shared.word task).phase = .claim cause := by
    rcases owes.held with held | held <;> simp [held, WaitWord.withPermit, phase]
  have moves := View.Move.setWord (follows_published phase')
  have inv' : (shared.setWord task
      (((shared.word task).withPhase (.selected cause)).withPermit false)).Inv :=
    inv.setWord (inv.openCell task) (by rintro ⟨⟩)
  refine ⟨{ shared.setWord task (((shared.word task).withPhase (.selected cause)).withPermit
    false) with publisher := Function.update shared.publisher task none }, ?_, { inv' with },
    ?_, ?_, fun other _ => moves other, ?_, fun _ => .stays, ?_⟩
  · rw [Shared.publishClaim, WaitWord.publishObserved_eq phase owes.permit owes.held]
    rfl
  · subst resumes
    cases next with
    | none | some => exact fits.move (moves thread)
  · subst resumes
    cases next <;> trivial
  · intro other differ task' claimed' owes'
    have apart : task' ≠ task := by
      rintro rfl
      exact differ (Option.some.inj (owes'.publisher.symm.trans owes.publisher))
    refine ⟨?_, owes'.isClaimed, owes'.permit, ?_⟩
    · simpa [Shared.setWord, apart] using owes'.publisher
    · simpa [Shared.setWord, apart] using owes'.held
  · subst resumes
    cases next <;> exact .quiet _

/-- A deadline or a cancellation claims an active cell. -/
theorem select_sound (inv : shared.Inv) (fits : Fits thread (shared.view thread) (.rest : Pc ι α))
    (active : (shared.word task).phase = .active) (cause : WakeCause) :
    Sound thread shared none (shared.claim thread task ((shared.word task).claimed cause))
      (.publish task ((shared.word task).claimed cause) none) := by
  have moves := View.Move.setWord (follows_claimed active cause)
  have inv' : (shared.setWord task ((shared.word task).claimed cause)).Inv :=
    inv.setWord (inv.openCell task) fun claimed => by cases claimed
  refine ⟨{ inv' with }, ?_, owes_claim rfl (inv.active task active), fun other _ => moves other,
    fun _ _ _ _ owes => owes.claim active, fun _ => .stays, .quiet _⟩
  exact fits.move (moves thread)

/-- A carrier leaves its interest on a claimed cell. -/
theorem query_sound (inv : shared.Inv) (fits : Fits thread (shared.view thread) (.rest : Pc ι α))
    (claimed : (shared.word task).isClaimed = true) :
    Sound thread shared none (shared.setWord task ((shared.word task).withPermit true))
      (.rest : Pc ι α) := by
  obtain ⟨cause, phase⟩ := WaitWord.isClaimed_iff.mp claimed
  have unbound : (shared.word task).phase ≠ .binding := by simp [phase]
  have moves := View.Move.setWord (follows_permit unbound)
  have inv' : (shared.setWord task ((shared.word task).withPermit true)).Inv :=
    inv.setWord (inv.openCell task) fun active => by cases phase.symm.trans active
  exact ⟨inv', fits.move (moves thread), trivial, fun other _ => moves other,
    fun _ _ _ _ owes => owes.setWord (.inr rfl), fun _ => .stays, .quiet _⟩

/-- Another wait of the thread leaves its cell idle. -/
theorem elsewhere_sound (inv : shared.Inv)
    (fits : Fits thread (shared.view thread) (.rest : Pc ι α)) (idle : word.phase = .idle)
    (isOpen : word.closed = false) :
    Sound thread shared none (shared.setWord thread word) (.rest : Pc ι α) :=
  .setWord inv isOpen (fun active => by cases idle.symm.trans active)
    ⟨fits.1, idle, fits.2.2⟩ trivial (.inl (unclaimed_of_idle fits.2.1)) rfl

end Words

/-! ## Parking -/

section Parking

variable {stage : Parking} {next : ParkNext}

/-- A thread that is first in line and can go on does not wait without a permit. -/
theorem unstored_not_due (fits : Fits thread (shared.view thread) (.parking run .begin))
    (permit : (shared.word thread).permit = false) : ¬ shared.Due thread := by
  obtain ⟨-, -, -, idle, awake, -⟩ := fits
  intro due
  have idle : (shared.word thread).phase = .idle := idle
  have woken : Woken (shared.word thread) := awake due
  rcases woken with stored | ⟨cause, phase | phase⟩
  · rw [permit] at stored
    cases stored
  · cases idle.symm.trans phase
  · cases idle.symm.trans phase

/-- What a thread knows after a step of `park_wait`. -/
theorem parking_fits (inv : shared.Inv)
    (fits : Fits thread (shared.view thread) (.parking run stage))
    (effect : ParkEffect false (shared.timed thread) (shared.word thread) stage word next) :
    Fits thread { shared.view thread with word } (afterPark run next) := by
  have begins := fits
  obtain ⟨apart, known, queued, stageFits, awake, blank⟩ := fits
  cases effect with
  | failed | stored => exact ⟨apart, stageFits, known, queued⟩
  | closed isClosed => exact absurd isClosed (by simp [inv.openCell])
  | activated _ _ unstored =>
      refine ⟨apart, known, queued, ⟨rfl, ?_, ?_⟩, fun due => ?_, ?_⟩
      · rintro ⟨⟩
      · rintro ⟨⟩
      · exact absurd due (unstored_not_due begins (by simpa using unstored))
      · rintro binding ⟨⟩
  | binds isOpen unstored =>
      have permit : (shared.word thread).permit = false := by simpa using unstored
      refine ⟨apart, known, queued, ⟨rfl, rfl⟩, fun due => ?_, ?_⟩
      · exact absurd due (unstored_not_due begins permit)
      · rintro binding ⟨⟩
        exact permit
  | bound =>
      refine ⟨apart, known, queued, ⟨rfl, ?_, ?_⟩, fun due => ?_, ?_⟩
      · rintro ⟨⟩
      · rintro ⟨⟩
      · have phase : (shared.word thread).phase = .binding := stageFits.2
        have permit : (shared.word thread).permit = false := blank _ rfl
        have woken : Woken (shared.word thread) := awake due
        rcases woken with stored | ⟨cause, other | other⟩
        · rw [permit] at stored
          cases stored
        · cases phase.symm.trans other
        · cases phase.symm.trans other
      · rintro binding ⟨⟩
  | fails | deferred =>
      refine ⟨apart, known, queued, stageFits, fun _ => trivial, ?_⟩
      rintro binding ⟨⟩
  | finished cause phase =>
      rw [if_neg (by simp)]
      cases selected cause (shared.timed thread) with
      | ok => exact ⟨apart, rfl, known, queued⟩
      | error error => exact ⟨apart, rfl, known, queued⟩
  | retired => exact ⟨apart, rfl, known, queued⟩

/-- A step of `park_wait`. -/
theorem parking_sound [DecidableEq ι] {choice : ParkChoice} (inv : shared.Inv)
    (fits : Fits thread (shared.view thread) (.parking run stage))
    (taken : stage.step false (shared.timed thread) choice (shared.word thread) =
      some (word, next)) :
    Sound thread shared (some run.op) (shared.setWord thread word) (afterPark run next) := by
  have stageFits : stage.Fits (shared.word thread) := fits.2.2.2.1
  have blank : ∀ binding, stage = .bind binding → (shared.word thread).permit = false :=
    fits.2.2.2.2.2
  have effect := Parking.step_effect stageFits taken
  have fits' := parking_fits inv fits effect
  have isOpen := inv.openCell thread
  have unchanged : shared.setWord thread (shared.word thread) = shared := by
    rw [Shared.setWord, Function.update_eq_self]
  cases effect with
  | failed | fails =>
      rw [unchanged]
      exact .still inv fits' trivial rfl
  | closed isClosed => exact absurd isClosed (by simp [isOpen])
  | stored =>
      refine .setWord inv isOpen (fun active => ?_) fits' trivial
        (.inl (unclaimed_of_idle stageFits)) rfl
      rfl
  | activated fallback _ unstored =>
      have permit : (shared.word thread).permit = false := by simpa using unstored
      refine .setWord inv isOpen (fun active => ?_) fits' trivial
        (.inl (unclaimed_of_idle stageFits)) rfl
      exact permit
  | binds =>
      refine .setWord inv isOpen (fun active => ?_) fits' trivial
        (.inl (unclaimed_of_idle stageFits)) rfl
      cases active
  | bound =>
      have phase : (shared.word thread).phase = .binding := stageFits.2
      refine .setWord inv isOpen (fun active => ?_) fits' trivial (.inl ?_) rfl
      · exact blank _ rfl
      · rw [WaitWord.isClaimed, phase]
  | finished cause phase =>
      rw [if_neg (by simp)] at fits' ⊢
      refine .setWord inv isOpen (fun active => ?_) fits' ?_ (.inl ?_) ?_
      · cases active
      · cases selected cause (shared.timed thread) <;> trivial
      · rw [WaitWord.isClaimed, phase]
      · cases selected cause (shared.timed thread) <;> rfl
  | deferred error claimed =>
      obtain ⟨cause, phase⟩ := WaitWord.isClaimed_iff.mp claimed
      refine .setWord inv isOpen (fun active => ?_) fits' trivial (.inr rfl) rfl
      cases phase.symm.trans active
  | retired error unclaimed =>
      refine .setWord inv isOpen (fun active => ?_) fits' trivial (.inl ?_) rfl
      · cases active
      · simpa using unclaimed

end Parking

/-! ## Calls -/

section Calls

/-- A call fails and returns. -/
theorem finish_sound (inv : shared.Inv) (fits : Fits thread (shared.view thread) (.rest : Pc ι α))
    (op : Op α) (error : Error) :
    Sound thread shared (some op) (shared.finish thread (op.fail error)) .rest :=
  ⟨inv.fail op error, fits, trivial, fun _ _ => .refl _, fun _ _ _ _ owes => owes.keep rfl rfl,
    fun _ => .stays, .fails op error⟩

/-- A call has taken its input. -/
def Shared.taking (shared : Shared ι α) (thread : ι) (op : Op α) : Shared ι α :=
  { shared with inputs := shared.inputs ++ (op.input.map (thread, ·)).toList }

theorem startCall_sound (inv : shared.Inv)
    (fits : Fits thread (shared.view thread) (.rest : Pc ι α)) (op : Op α) (blocking : Bool)
    (choice : Choice ι α) :
    Sound thread shared none (startCall op blocking thread choice (shared.taking thread op)).1
      (startCall op blocking thread choice (shared.taking thread op)).2 := by
  have inv' : (shared.taking thread op).Inv := { inv with }
  rw [startCall]
  split
  · rename_i error failed
    exact ⟨inv'.fail op error, fits, trivial, fun _ _ => .refl _,
      fun _ _ _ _ owes => owes.keep rfl rfl, fun _ => .stays, .refused op error⟩
  · refine ⟨inv', ⟨fits.1, fits.2.1, rfl, fun direction => ?_, rfl, ?_⟩, trivial,
      fun _ _ => .refl _, fun _ _ _ _ owes => owes.keep rfl rfl, fun _ => .stays, .begins op⟩
    · exact ⟨fun queued => absurd queued (fits.2.2 direction), fun queued => by cases queued.1⟩
    · rintro ⟨⟩

/-- A section with the lock. -/
theorem locked_sound {result : Checked (Shared ι α × Resume ι α)} {after : Shared ι α}
    {next : Resume ι α} (idle : (shared.word thread).phase = .idle)
    (ran : result = .ok (after, next)) (sectioned : Sectioned thread shared call after next)
    (taken : locked thread shared result = some (shared', pc')) :
    Sound thread shared call shared' pc' := by
  rw [locked, ran] at taken
  split at taken
  · rename_i free
    cases taken
    exact sectioned.sound free idle
  · cases taken

/-- An endpoint is cloned, or the thread panics. -/
theorem clone_sound {count : Nat} {message : String} {after : Shared ι α} (inv : shared.Inv)
    (fits : Fits thread (shared.view thread) (.rest : Pc ι α))
    (sectioned : Sectioned thread shared none after .rest)
    (named : Fits thread (shared.view thread) (.panicked message : Pc ι α))
    (taken : locked thread shared (do
      ensure (count + 1 ≤ endpointLimit) message
      pure (after, .rest)) = some (shared', pc')) :
    Sound thread shared none shared' pc' := by
  by_cases room : count + 1 ≤ endpointLimit
  · rw [ensure_of room, ok_bind] at taken
    exact locked_sound fits.2.1 rfl sectioned taken
  · rw [locked] at taken
    split at taken
    · rw [ensure, if_neg room] at taken
      cases taken
      exact .still inv named trivial rfl
    · cases taken

variable [DecidableEq ι]

/-- A call enters its `wait`, with a fresh cell. -/
theorem enter_sound {choice : Choice ι α} (inv : shared.Inv)
    (fits : Fits thread (shared.view thread) (.enter run))
    (taken : step thread choice shared (.enter run) = some (shared', pc')) :
    Sound thread shared (some run.op) shared' pc' := by
  obtain ⟨apart, idle, known, outside⟩ := fits
  have idle : (shared.word thread).phase = .idle := idle
  have unqueued : run.ticket.queued = false := by
    cases queued : run.ticket.queued with
    | false => rfl
    | true =>
        rw [known.entered queued] at outside
        cases outside
  have rests : Fits thread (shared.view thread) (.rest : Pc ι α) :=
    ⟨apart, idle, unqueued_of_known known unqueued⟩
  have attached : run.ticket.attach thread = .ok { run.ticket with wait := some thread } := by
    have wait : run.ticket.wait = none := by
      rw [known.wait, outside]
      rfl
    rw [Ticket.attach, ensure_of wait]
    rfl
  have enters : ({ run with
      entered := true, ticket := { run.ticket with wait := some thread } } : Run ι α).Known thread
        (shared.view thread).queued :=
    ⟨known.direction, known.queued, rfl, fun _ => rfl⟩
  have taken := Option.some.inj taken
  split at taken
  · cases taken
    exact finish_sound inv rests run.op _
  · split at taken
    · rename_i word won recycled
      rw [attached] at taken
      cases taken
      have idle' : word.phase = .idle ∧ word.closed = false := by
        rw [recycle, if_neg (by simp [idle, inv.openCell])] at recycled
        split at recycled
        · cases recycled
        · cases recycled
          exact ⟨idle, inv.openCell thread⟩
      exact .setWord inv idle'.2 (fun active => by cases idle'.1.symm.trans active)
        ⟨apart, idle'.1, enters⟩ trivial (.inl (unclaimed_of_idle idle)) rfl
    · rw [attached] at taken
      cases taken
      exact .still inv ⟨apart, idle, enters⟩ trivial rfl
    · cases taken
      exact finish_sound inv rests run.op _

/-- A resting thread makes a call. -/
theorem start_sound {choice : Choice ι α} {request : Call ι α} (inv : shared.Inv)
    (fits : Fits thread (shared.view thread) (.rest : Pc ι α))
    (taken : request.start thread choice shared = some (shared', pc')) :
    Sound thread shared none shared' pc' := by
  obtain ⟨apart, idle, quiet⟩ := fits
  have fits : Fits thread (shared.view thread) (.rest : Pc ι α) := ⟨apart, idle, quiet⟩
  have nothing : shared.taking thread .recv = shared := by simp [Shared.taking, Op.input]
  have starts : ∀ op blocking, startCall op blocking thread choice (shared.taking thread op) =
      (shared', pc') → Sound thread shared none shared' pc' := by
    intro op blocking started
    have sound := startCall_sound inv fits op blocking choice
    rwa [started] at sound
  cases request with
  | send value | trySend value =>
      rw [Call.start] at taken
      split at taken
      · cases taken
      · exact starts (.send value) _ (Option.some.inj taken)
  | recv | tryRecv =>
      rw [Call.start] at taken
      split at taken
      · cases taken
      · have started := Option.some.inj taken
        rw [← nothing] at started
        exact starts .recv _ started
  | close => exact locked_sound idle rfl (close_section inv quiet) taken
  | cloneSender =>
      rw [Call.start] at taken
      split at taken
      · cases taken
      · exact clone_sound inv fits (cloneSender_section inv quiet) ⟨.inl rfl, quiet⟩ taken
  | cloneReceiver =>
      rw [Call.start] at taken
      split at taken
      · cases taken
      · rename_i alive
        exact clone_sound inv fits (cloneReceiver_section inv quiet alive) ⟨.inr rfl, quiet⟩ taken
  | dropSender =>
      rw [Call.start] at taken
      split at taken
      · cases taken
      · exact locked_sound idle rfl (dropSender_section inv quiet) taken
  | dropReceiver =>
      rw [Call.start] at taken
      split at taken
      · cases taken
      · rename_i alive
        exact locked_sound idle rfl (dropReceiver_section inv quiet alive) taken
  | elsewhere word =>
      rw [Call.start] at taken
      split at taken
      · rename_i rests
        cases taken
        exact elsewhere_sound inv fits rests.1 rests.2
      · cases taken
  | select task cause =>
      rw [Call.start] at taken
      split at taken
      · split at taken
        · rename_i claimed won selected
          obtain ⟨active, rfl⟩ := selectGeneration_exchange selected
          cases taken
          exact select_sound inv fits active cause
        · cases taken
      · cases taken
  | query task =>
      rw [Call.start] at taken
      split at taken
      · rename_i next won published
        obtain ⟨claimed, rfl⟩ := publication_exchange published
        cases taken
        exact query_sound inv fits claimed
      · cases taken

/-- One step of a thread. -/
theorem step_sound {choice : Choice ι α} {pc : Pc ι α} (inv : shared.Inv)
    (fits : Fits thread (shared.view thread) pc) (owing : Owing shared thread pc)
    (taken : step thread choice shared pc = some (shared', pc')) :
    Sound thread shared pc.op shared' pc' := by
  cases pc with
  | rest => exact start_sound inv fits taken
  | «section» run =>
      obtain ⟨after, next, ran, sectioned⟩ := enter_section inv fits.2.2 choice.timed
      exact locked_sound fits.2.1 ran sectioned taken
  | enter run => exact enter_sound inv fits taken
  | parking =>
      obtain ⟨⟨word, next⟩, parked, same⟩ := Option.map_eq_some_iff.mp taken
      cases same
      exact parking_sound inv fits parked
  | check run =>
      cases failure : choice.failure with
      | some error =>
          rw [step, failure] at taken
          cases taken
          exact .still inv fits trivial rfl
      | none =>
          rw [step, failure] at taken
          cases taken
          exact .still inv ⟨fits.1, fits.2.1, fits.2.2.1⟩ trivial rfl
  | drop run error =>
      obtain ⟨apart, idle, known, queued⟩ := fits
      obtain ⟨after, ran, sectioned⟩ := dropTicket_section inv known queued error
      exact locked_sound idle ran sectioned taken
  | unlock next => exact stepUnlock_sound inv fits taken
  | publish _ _ next =>
      obtain ⟨published, ran, sound⟩ := publish_sound inv fits owing _ rfl
      cases next with
      | none | some =>
          rw [step, ran] at taken
          cases taken
          exact sound
  | panicked => cases taken

/-- The invariant, and what each thread knows and owes, in every reachable state. -/
theorem reachable_inv {state : Threads ι (Shared ι α) (Pc ι α)}
    (reachable : (program (ι := ι) (α := α)).system.Reachable state) :
    state.shared.Inv ∧ ∀ thread, Fits thread (state.shared.view thread) (state.locals thread) ∧
      Owing state.shared thread (state.locals thread) := by
  refine @Program.invariant ι _ _ _ program Shared.Inv
    (fun thread shared pc => Fits thread (shared.view thread) pc ∧ Owing shared thread pc)
    ?_ ?_ ?_ state reachable
  · rintro shared ⟨capacity, waitCapacity, -, -, rfl⟩
    refine ⟨?_, fun thread => ⟨⟨?_, rfl, fun direction => List.not_mem_nil⟩, trivial⟩⟩
    · exact {
        turns := fun direction => .nil
        buffered := Nat.zero_le _
        waiting := fun direction => Nat.zero_le _
        unlocked := fun _ => rfl
        fifo := .empty
        kept := fun _ => rfl
        openCell := fun thread => rfl
        active := by rintro thread ⟨⟩ }
    · rintro ⟨⟩
  · rintro thread shared pc shared' pc' inv ⟨fits, owing⟩ ⟨choice, taken⟩
    have sound := step_sound inv fits owing taken
    exact ⟨sound.inv, sound.fits, sound.owing⟩
  · rintro thread other shared pc otherPc shared' pc' differ inv ⟨fits, owing⟩
      ⟨otherFits, otherOwing⟩ ⟨choice, taken⟩
    have sound := step_sound inv fits owing taken
    refine ⟨otherFits.move (sound.moves other differ), ?_⟩
    cases otherPc with
    | publish task claimed next => exact sound.owes other differ task claimed otherOwing
    | _ => trivial

end Calls

end VThread.Channel

import Mathlib.Data.Fintype.Basic
import VThread.Recorded.Runs

/-!
# The order of wait events

In a run where no wake is recorded while the publication of its generation is owed, and no
finished generation is recorded after its cell was bound to another task, the sequence of
events is causal: every generation is published once and before its offers, selected once,
and resumed once, after its selection and with the same task and cause.  Without these two
conditions the code breaks the order.
-/

namespace VThread.Recorded

open VThread.Lib VThread.Wait

variable {κ ι τ ρ η : Type}

/-! ## The condition -/

/-- A step from a stance is orderly: it records no wake of a generation whose publication is
still owed, and reads the target of a finished generation only while the cell has its task. -/
def OrderlyFrom (state : Threads ι (Shared κ ι τ ρ η) (Local κ τ ρ η)) (home : κ) :
    Stance τ ρ η → Prop
  | .recording event _ _ => ∀ wait ∈ event.wake?, ∀ other,
      (state.locals other).stance.publishes? ≠ some wait
  | .readTask (.resumed token _ _) _ =>
      (state.shared.cells home).cell.task = state.shared.taskOf home token.generation
  | _ => True

def Orderly (state : Threads ι (Shared κ ι τ ρ η) (Local κ τ ρ η)) (thread : ι) : Prop :=
  OrderlyFrom state (state.locals thread).home (state.locals thread).stance

instance [Fintype ι] [DecidableEq τ] (state : Threads ι (Shared κ ι τ ρ η) (Local κ τ ρ η))
    (thread : ι) : Decidable (Orderly state thread) :=
  match at_ : (state.locals thread).stance with
  | .recording event _ _ => decidable_of_iff (∀ wait ∈ event.wake?, ∀ other,
      (state.locals other).stance.publishes? ≠ some wait) (by rw [Orderly, at_]; rfl)
  | .readTask (.resumed token _ _) _ => decidable_of_iff
      ((state.shared.cells (state.locals thread).home).cell.task =
        state.shared.taskOf (state.locals thread).home token.generation)
      (by rw [Orderly, at_]; rfl)
  | .call _ | .readTask (.registration _) _ | .readRoute .. | .readHub .. | .registering _
  | .registered _ | .panicked _ => .isTrue (by rw [Orderly, at_]; trivial)

/-- The generation and the task of a resumption whose target was read. -/
def Stance.resumedAs? : Stance τ ρ η → Option (WaitKey × τ)
  | .recording (.resumed task wait _) _ _ => some (wait, task)
  | .readRoute (.resumed wait _ _) _ task | .readHub (.resumed wait _ _) _ task =>
      some (wait, task)
  | _ => none

/-- A resumption names the task of its generation. -/
def Faithful (shared : Shared κ ι τ ρ η) (mine : Local κ τ ρ η) : Prop :=
  ∀ wait task, mine.stance.resumedAs? = some (wait, task) →
    shared.taskOf mine.home wait.generation = some task

section Faithful

theorem offer_resumedAs (task : Option τ) (token : ParkToken) (cause : WakeCause)
    (origin : WakeOrigin) (pc : Pc τ ρ η) (result : τ → EventKind τ) :
    (offer task token cause origin result pc).resumedAs? = none := by
  cases task <;> rfl

variable {thread : ι} {shared shared' : Shared κ ι τ ρ η} {mine mine' : Local κ τ ρ η}

theorem Turn.resumedAs {cell cell' : Wait.Shared ι τ ρ η} {origin : WakeOrigin} {op : Op τ ρ η}
    {stage : Stage τ ρ η} {pc : Pc τ ρ η} {stance : Stance τ ρ η}
    (turn : Turn thread cell mine origin op stage cell' pc stance) : stance.resumedAs? = none := by
  cases turn with
  | offered => exact offer_resumedAs ..
  | rejected => exact offer_resumedAs ..
  | _ => rfl

theorem Faithful.none (none : mine.stance.resumedAs? = none) : Faithful shared mine := by
  intro wait task resumed
  rw [none] at resumed
  cases resumed

variable [DecidableEq κ]

/-- A thread that resumes a generation has finished it. -/
theorem Local.Sound.resuming (sound : mine.Sound thread shared) {wait : WaitKey} {task : τ}
    (resumed : mine.stance.resumedAs? = some (wait, task)) :
    ∃ cause, Resuming thread shared mine.home wait cause := by
  have fact := sound.stance
  unfold Stance.resumedAs? at resumed
  split at resumed
  · rename_i task' wait' cause later pc at_
    rw [at_] at fact
    cases resumed
    cases fact with
    | resumption owner => exact ⟨cause, owner⟩
  · rename_i wait' cause pc word task' at_
    rw [at_] at fact
    cases resumed
    exact ⟨cause, fact.1⟩
  · rename_i wait' cause pc word task' at_
    rw [at_] at fact
    cases resumed
    exact ⟨cause, fact.1⟩
  · cases resumed

theorem Faithful.kept (faithful : Faithful shared mine) (inv : shared.Sound)
    (sound : mine.Sound thread shared) {other : ι} (moves : Moves other shared shared') :
    Faithful shared' mine := by
  intro wait task resumed
  obtain ⟨cause, owner⟩ := sound.resuming resumed
  have begun : wait.generation ≤ (shared.cells mine.home).cell.state.generation := by
    by_contra above
    have finishes := owner.finishes
    rw [Shared.record, (inv.cells _).future _ (Nat.not_le.mp above)] at finishes
    cases finishes
  rw [moves.task_kept begun]
  exact faithful wait task resumed

variable [DecidableEq ι] [DecidableEq τ] [DecidableEq ρ] [DecidableEq η]

/-- A step outside of a call names no other task, unless it reads the one of the cell. -/
theorem goStep_resumedAs (inv : shared.Sound) (sound : mine.Sound thread shared)
    {expired accepted : Bool} {origin : WakeOrigin}
    (taken : goStep thread expired accepted origin shared mine = some (shared', mine'))
    {wait : WaitKey} {task : τ} (resumed : mine'.stance.resumedAs? = some (wait, task)) :
    mine'.home = mine.home ∧ shared' = shared ∧
      (mine.stance.resumedAs? = some (wait, task) ∨
        ∃ cause pc word, mine.stance = .readTask (.resumed wait cause pc) word ∧
          (shared.cells mine.home).cell.task = some task) := by
  unfold goStep at taken
  cases at_ : mine.stance with
  | call pc =>
      rw [at_] at taken
      cases pc with
      | run op stage =>
          have fact := sound.calls mine.home
          rw [Local.view_self, at_] at fact
          have turn : Turn thread (shared.cells mine.home) mine origin op stage _ _ _ :=
            stage_turn (inv.cells mine.home) ⟨op, expired && mine.timed, accepted⟩ fact
          have silent := turn.resumedAs
          cases taken
          exact nomatch silent.symm.trans resumed
      | _ => cases taken
  | recording =>
      rw [at_] at taken
      have script := sound.stance
      rw [at_] at script
      cases taken
      cases script <;> cases resumed
  | readTask reader word =>
      rw [at_] at taken
      cases taken
      refine ⟨rfl, rfl, .inr ?_⟩
      dsimp only at resumed
      split at resumed
      · cases resumed
      · rename_i read
        cases reader with
        | resumed token cause pc =>
            cases resumed
            exact ⟨cause, pc, word, rfl, read⟩
        | registration since => cases resumed
  | readRoute reader =>
      rw [at_] at taken
      cases taken
      refine ⟨rfl, rfl, .inl ?_⟩
      dsimp only at resumed
      split at resumed
      · cases resumed
      · cases reader <;> exact resumed
  | readHub reader =>
      rw [at_] at taken
      cases taken
      refine ⟨rfl, rfl, .inl ?_⟩
      dsimp only at resumed
      split at resumed
      · cases resumed
      · cases reader with
        | resumed => exact resumed
        | registration since => cases resumed
  | registering cached =>
      rw [at_] at taken
      cases taken
      dsimp only at resumed
      split at resumed <;> cases resumed
  | _ =>
      rw [at_] at taken
      cases taken

/-- An orderly step of a thread leaves it faithful. -/
theorem Faithful.own (inv : shared.Sound) (sound : mine.Sound thread shared)
    (faithful : Faithful shared mine)
    (orderly : ∀ token cause pc word, mine.stance = .readTask (.resumed token cause pc) word →
      (shared.cells mine.home).cell.task = shared.taskOf mine.home token.generation)
    {choice : Choice κ τ ρ η}
    (taken : nextStep thread shared mine choice = some (shared', mine')) :
    Faithful shared' mine' := by
  intro wait task resumed
  cases choice with
  | go =>
      obtain ⟨sameHome, rfl, before | ⟨cause, pc, word, at_, read⟩⟩ :=
        goStep_resumedAs inv sound taken resumed
      · rw [sameHome]
        exact faithful wait task before
      · rw [sameHome, ← orderly wait cause pc word at_, read]
  | visit home =>
      simp only [nextStep] at taken
      split at taken <;> cases taken <;> cases resumed
  | call =>
      simp only [nextStep] at taken
      split at taken
      · split at taken <;> cases taken
        cases resumed
      · cases taken
  | register cached =>
      simp only [nextStep] at taken
      split at taken <;> cases taken
      cases resumed
  | select token cause origin =>
      simp only [nextStep] at taken
      split at taken
      · rename_i registration at_
        split at taken <;> cases taken
        rcases reject_cases registration.task origin (fun _ => .retiredGeneration)
            (.select token cause) (Op.call (shared.cells mine.home).cell.id (.select token cause))
          with same | ⟨token', cause', last, -, -, rejected⟩
        · rw [same] at resumed
          cases resumed
        · rw [rejected, offer_resumedAs] at resumed
          cases resumed
      · cases taken
  | noWait =>
      simp only [nextStep] at taken
      split at taken
      · split at taken <;> cases taken
        rw [offer_resumedAs] at resumed
        cases resumed
      · cases taken

end Faithful

/-! ## What a step records -/

theorem Announcing.begun {thread : ι} {shared : Shared κ ι τ ρ η} {home : κ} {task : τ}
    {wait : WaitKey} {cause : WakeCause} (inv : shared.Sound)
    (announcing : Announcing thread shared home task wait cause) :
    0 < wait.generation ∧ wait.generation ≤ (shared.cells home).issued := by
  have cell := inv.cells home
  obtain ⟨current, phase⟩ := cell.unpublished announcing.claims announcing.published
  have positive := (cell.started (by simp [phase])).1
  have issued := cell.generation_le_issued (by simp [phase])
  omega

/-- A finished generation was selected, with its task and the cause it was finished with. -/
theorem Resuming.selected {thread : ι} {shared : Shared κ ι τ ρ η} {home : κ} {wait : WaitKey}
    {cause : WakeCause} {task : τ} (inv : shared.Sound)
    (resuming : Resuming thread shared home wait cause)
    (faithful : shared.taskOf home wait.generation = some task) :
    selections shared.log wait = [(task, cause)] := by
  have cell := inv.cells home
  have finishes := resuming.finishes
  rcases cell.untouched_or_claimed wait.generation with untouched | ⟨winner, own, claims⟩
  · rw [Shared.record, untouched.finishes] at finishes
    cases finishes
  have published : (shared.record home wait.generation).published ≠ [] := by
    intro unpublished
    rw [Shared.record, (cell.unsettled claims unpublished).2.1] at finishes
    cases finishes
  have causeEq : own = cause := by
    rcases (cell.won claims published).finishes with none | once
    · rw [Shared.record, none] at finishes
      cases finishes
    · rw [Shared.record, once] at finishes
      cases finishes
      rfl
  obtain ⟨winner', cause', task', claims', taskEq, selected⟩ :=
    inv.announced home wait.generation published
  rw [Shared.record, claims] at claims'
  cases claims'
  rw [faithful] at taskEq
  cases taskEq
  rw [shared.key_generation resuming.wait, causeEq] at selected
  exact selected

section Allowed

variable {state : Threads ι (Shared κ ι τ ρ η) (Local κ τ ρ η)} [DecidableEq κ]

/-- A begun generation whose publication nobody owes is published. -/
theorem published_of_begun (inv : state.shared.Sound)
    (sound : ∀ thread, (state.locals thread).Sound thread state.shared) {wait : WaitKey}
    {home : κ} (own : wait.wait = (state.shared.cells home).cell.id)
    (begun : 0 < wait.generation ∧ wait.generation ≤ (state.shared.cells home).issued)
    (paid : ∀ other, (state.locals other).stance.publishes? ≠ some wait) :
    publications state.shared.log wait ≠ [] := by
  intro unpublished
  have started := (inv.beginner home wait.generation).mpr begun
  rw [state.shared.key_generation own] at started
  obtain ⟨owner, beginner⟩ := Option.isSome_iff_exists.mp started
  exact paid owner ((sound owner).publishes wait beginner unpublished)

/-- An orderly record is allowed. -/
theorem record_allowed (inv : state.shared.Sound)
    (sound : ∀ thread, (state.locals thread).Sound thread state.shared) {thread : ι}
    (faithful : Faithful state.shared (state.locals thread)) (orderly : Orderly state thread)
    {event : EventKind τ} {later : List (EventKind τ)} {pc : Pc τ ρ η}
    (at_ : (state.locals thread).stance = .recording event later pc) :
    Allowed state.shared.log event := by
  have script := (sound thread).stance
  rw [at_] at script
  rw [Orderly, at_] at orderly
  cases script with
  | publication beginner unpublished => exact unpublished
  | @offer task wait cause origin winner =>
      exact published_of_begun inv sound winner.wait (winner.begun inv) (orderly wait rfl)
  | @selection task wait cause origin winner =>
      refine ⟨published_of_begun inv sound winner.wait (winner.begun inv) (orderly wait rfl), ?_⟩
      have unselected := (sound thread).unannounced _ _ cause winner.claims winner.published
        (by rw [at_]; trivial)
      rwa [state.shared.key_generation winner.wait] at unselected
  | refusal returned => exact returned
  | rejection => trivial
  | @resumption task wait cause owner =>
      exact ⟨owner.selected inv (faithful wait task (by rw [at_]; rfl)), owner.resumptions⟩

end Allowed

/-! ## All runs -/

section Order

variable [DecidableEq κ] [DecidableEq ι] [DecidableEq τ] [DecidableEq ρ] [DecidableEq η]
  {first : κ} {state : Threads ι (Shared κ ι τ ρ η) (Local κ τ ρ η)}

/-- The runs all of whose steps are orderly. -/
abbrev orderlySystem (κ ι τ ρ η : Type) [DecidableEq κ] [DecidableEq ι] [DecidableEq τ]
    [DecidableEq ρ] [DecidableEq η] (first : κ) :
    System (Threads ι (Shared κ ι τ ρ η) (Local κ τ ρ η)) :=
  (program first).guarded Orderly

/-- The sequence of wait events is causally ordered. -/
structure Ordered (state : Threads ι (Shared κ ι τ ρ η) (Local κ τ ρ η)) : Prop where
  /-- Offers and selections follow the publication, and a resumption follows the one
  selection, with its task and cause. -/
  causal : Causal state.shared.log
  /-- No generation is published, selected or resumed twice. -/
  once : ∀ wait, (publications state.shared.log wait).length ≤ 1 ∧
    (selections state.shared.log wait).length ≤ 1 ∧
    (resumptions state.shared.log wait).length ≤ 1
  /-- A begun generation is published, or its begin has not returned. -/
  published : ∀ home generation, 0 < generation →
    generation ≤ (state.shared.cells home).issued →
    (publications state.shared.log (state.shared.key home generation)).length = 1 ∨
      ∃ thread, (state.locals thread).stance.publishes? = some (state.shared.key home generation)
  /-- A finished generation is resumed, or its finish has not returned. -/
  resumed : ∀ home generation, (state.shared.record home generation).finishes ≠ [] →
    (resumptions state.shared.log (state.shared.key home generation)).length = 1 ∨
      ∃ thread, (state.locals thread).stance.resumes? = some (state.shared.key home generation)

/-- A step of a thread extends the sequence only by the event it records. -/
theorem nextStep_log {thread : ι} {shared shared' : Shared κ ι τ ρ η} {mine mine' : Local κ τ ρ η}
    {choice : Choice κ τ ρ η}
    (taken : nextStep thread shared mine choice = some (shared', mine')) :
    shared'.log = shared.log ∨
      ∃ event later pc, mine.stance = .recording event later pc ∧
        shared'.log = shared.log ++ [event] := by
  cases choice with
  | go =>
      simp only [nextStep, goStep] at taken
      split at taken <;> cases taken
      · exact .inl (after_log _)
      · exact .inr ⟨_, _, _, ‹_›, rfl⟩
      · exact .inl rfl
      · exact .inl rfl
      · exact .inl rfl
      · exact .inl rfl
  | visit home =>
      simp only [nextStep] at taken
      split at taken <;> cases taken <;> exact .inl rfl
  | register cached =>
      simp only [nextStep] at taken
      split at taken <;> cases taken
      exact .inl rfl
  | _ =>
      simp only [nextStep] at taken
      split at taken
      · split at taken <;> cases taken
        exact .inl rfl
      · cases taken

theorem orderly_causal (reachable : (orderlySystem κ ι τ ρ η first).Reachable state) :
    Causal state.shared.log ∧
      ∀ thread, Faithful state.shared (state.locals thread) := by
  induction reachable with
  | initial initial =>
      obtain ⟨shared, locals⟩ := initial
      refine ⟨by rw [shared.log]; exact causal_nil, fun thread => .none ?_⟩
      rw [locals]
      rfl
  | @step state next previous taken ih =>
      obtain ⟨thread, shared', mine', orderly, ⟨choice, taken⟩, rfl⟩ := taken
      obtain ⟨causal, faithful⟩ := ih
      obtain ⟨inv, sound⟩ := reachable_sound (Program.guarded_reachable previous)
      have moves := (nextStep_own inv (sound thread) taken).moves
      constructor
      · rcases nextStep_log taken with same | ⟨event, later, pc, at_, appended⟩
        · rwa [same]
        · rw [appended]
          exact causal_snoc.mpr
            ⟨causal, record_allowed inv sound (faithful thread) orderly at_⟩
      · intro other
        dsimp only
        split
        · refine (faithful thread).own inv (sound thread) ?_ taken
          intro token cause pc word at_
          rw [Orderly, at_] at orderly
          exact orderly
        · exact (faithful other).kept inv (sound other) moves

/-- In every run whose steps are orderly, the sequence of wait events is causally ordered. -/
theorem events_ordered (reachable : (orderlySystem κ ι τ ρ η first).Reachable state) :
    Ordered state := by
  obtain ⟨causal, -⟩ := orderly_causal reachable
  obtain ⟨inv, sound⟩ := reachable_sound (Program.guarded_reachable reachable)
  refine ⟨causal, causal.once, ?_, ?_⟩
  · intro home generation positive begun
    by_cases unpublished : publications state.shared.log (state.shared.key home generation) = []
    · obtain ⟨thread, beginner⟩ :=
        Option.isSome_iff_exists.mp ((inv.beginner home generation).mpr ⟨positive, begun⟩)
      exact .inr ⟨thread, (sound thread).publishes _ beginner unpublished⟩
    · have some := List.length_pos_iff.mpr unpublished
      have once := (causal.once (state.shared.key home generation)).1
      exact .inl (by omega)
  · intro home generation finishes
    by_cases unresumed : resumptions state.shared.log (state.shared.key home generation) = []
    · obtain ⟨thread, finisher⟩ :=
        Option.isSome_iff_exists.mp ((inv.finisher home generation).mpr finishes)
      exact .inr ⟨thread, (sound thread).resumes _ finisher unresumed⟩
    · have some := List.length_pos_iff.mpr unresumed
      have once := (causal.once (state.shared.key home generation)).2.2
      exact .inl (by omega)

/-! ## Runs -/

abbrev Pair : Type :=
  Threads Bool (Shared Unit Bool Nat Nat Nat) (Local Unit Nat Nat Nat)

/-- Two threads at one new cell. -/
def fresh : Pair :=
  ⟨⟨fun _ => .initial 1, [], fun _ => none, fun _ => none⟩,
    fun _ => ⟨(), .call (.rest none), false, none⟩⟩

/-- A step of one of the two threads. -/
abbrev Move : Type := Bool × Choice Unit Nat Nat Nat

def play (moves : List Move) : Option Pair :=
  (scheduler ()).run moves fresh

def playOrderly (moves : List Move) : Option Pair :=
  (scheduler ()).runGuarded Orderly moves fresh

theorem fresh_initial : fresh.shared.Initial :=
  ⟨fun _ => rfl, fun _ _ _ => rfl, rfl, rfl, rfl⟩

theorem play_reachable {moves : List Move} {state : Pair}
    (played : play moves = some state) : (cellsSystem Unit Bool Nat Nat Nat ()).Reachable state :=
  (scheduler ()).run_reachable (.initial ⟨fresh_initial, fun _ => rfl⟩) played

theorem playOrderly_reachable {moves : List Move} {state : Pair}
    (played : playOrderly moves = some state) :
    (orderlySystem Unit Bool Nat Nat Nat ()).Reachable state :=
  (scheduler ()).runGuarded_reachable (.initial ⟨fresh_initial, fun _ => rfl⟩) played

/-- Steps of a thread without a decision. -/
def go (thread : Bool) (steps : Nat) : List Move :=
  List.replicate steps (thread, .go false false .external)

/-- An owner begins, up to its publication. -/
def begins (thread : Bool) (task : Nat) : List Move :=
  (thread, .call (.begin ⟨task, 3, 5⟩) false) :: go thread 9

/-- A notifier selects, up to its first record. -/
def notifies (thread : Bool) : List Move :=
  (thread, .call .notify false) :: go thread 4

/-- A notified generation is finished by its owner. -/
def resumes : List Move :=
  begins false 7 ++ go false 1 ++ notifies true ++ go true 5 ++
    [(false, .call (.finishPlainReady ⟨1, 1⟩) false)] ++ go false 5

theorem events_ordered_resumed :
    ∃ state, playOrderly resumes = some state ∧
      state.shared.log = [.waitPublished 7 ⟨1, 1⟩ false, .wakeOffered 7 ⟨1, 1⟩ .ready .external,
        .wakeSelected 7 ⟨1, 1⟩ .ready .external, .resumed 7 ⟨1, 1⟩ .ready] ∧ Ordered state := by
  have played : (playOrderly resumes).map (·.shared.log) =
      some [.waitPublished 7 ⟨1, 1⟩ false, .wakeOffered 7 ⟨1, 1⟩ .ready .external,
        .wakeSelected 7 ⟨1, 1⟩ .ready .external, .resumed 7 ⟨1, 1⟩ .ready] := by decide
  obtain ⟨state, played, log⟩ := Option.map_eq_some_iff.mp played
  exact ⟨state, played, log, events_ordered (playOrderly_reachable played)⟩

/-- The notifier records before the owner. -/
def earlySchedule : List Move :=
  begins false 7 ++ notifies true ++ go true 2 ++ go false 1

/-- The cell is bound to another task before the owner reads its target. -/
def reboundSchedule : List Move :=
  begins false 7 ++ go false 1 ++ notifies true ++ go true 5 ++
    [(false, .call (.finishPlainReady ⟨1, 1⟩) false)] ++ go false 1 ++ begins true 8 ++ go false 4

/-- Without the condition, an offer and a selection come before their publication, and a
resumption names a task that was not selected. -/
theorem events_disordered :
    (∃ state, (cellsSystem Unit Bool Nat Nat Nat ()).Reachable state ∧
      state.shared.log = [.wakeOffered 7 ⟨1, 1⟩ .ready .external,
        .wakeSelected 7 ⟨1, 1⟩ .ready .external, .waitPublished 7 ⟨1, 1⟩ false] ∧
      ¬ Causal state.shared.log) ∧
    ∃ state, (cellsSystem Unit Bool Nat Nat Nat ()).Reachable state ∧
      selections state.shared.log ⟨1, 1⟩ = [(7, .ready)] ∧
      resumptions state.shared.log ⟨1, 1⟩ = [(8, .ready)] := by
  constructor
  · have played : (play earlySchedule).map (·.shared.log) =
        some [.wakeOffered 7 ⟨1, 1⟩ .ready .external,
          .wakeSelected 7 ⟨1, 1⟩ .ready .external, .waitPublished 7 ⟨1, 1⟩ false] := by decide
    obtain ⟨state, played, log⟩ := Option.map_eq_some_iff.mp played
    refine ⟨state, play_reachable played, log, fun causal => ?_⟩
    rw [log] at causal
    exact causal 0 _ rfl rfl
  · have played : (play reboundSchedule).map (fun state =>
        (selections state.shared.log ⟨1, 1⟩, resumptions state.shared.log ⟨1, 1⟩)) =
          some ([(7, .ready)], [(8, .ready)]) := by decide
    obtain ⟨state, played, views⟩ := Option.map_eq_some_iff.mp played
    exact ⟨state, play_reachable played, congrArg Prod.fst views, congrArg Prod.snd views⟩

end Order

end VThread.Recorded

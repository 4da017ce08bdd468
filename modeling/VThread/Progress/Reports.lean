import Mathlib.Data.Fintype.Basic
import VThread.Progress.Snapshot

/-!
# Reports of suspension reasons

A report pairs a code with a task word that is read later, so it is only as good as the
pair.  In runs in which nobody tears the pair of a `Join`, no reader panics and every
reported reason was published.
-/

namespace VThread.Progress

open VThread.Lib

/-! ## The property and its condition -/

/-- A report gives back what the reader was given or a published reason. -/
def Report.Sound (published : List SuspensionReason) : Report → Prop
  | .status retained result => ∀ reason, result = .suspended reason →
      retained = .suspended reason ∨ reason ∈ published
  | .lastSuspension retained result => ∀ reason, result = some reason →
      retained = some reason ∨ reason ∈ published

/-- A reader that has read the code of `Join` and not yet its task word. -/
def Pc.holdsJoin : Pc → Bool
  | .status _ _ (.task code) | .lastSuspension _ (.task code) => code == joinCode
  | _ => false

section Runs

variable {ι : Type} [DecidableEq ι]

/-- The next step of a thread at `pc` tears no pair: the task word is not overwritten with
zero while a reader holds the code of `Join`, and no reader takes that code while the task
word is zero. -/
def Pc.Untorn (progress : TaskProgress) (readers : ι → Pc) : Pc → Prop
  | .suspending reason .task => (encodeReason reason).1 ≠ joinCode →
      ∀ reader, (readers reader).holdsJoin = false
  | .status _ _ .state => progress.state = joinCode → progress.suspensionTask ≠ 0
  | .lastSuspension _ .code =>
      progress.lastSuspension = joinCode → progress.suspensionTask ≠ 0
  | _ => True

def Untorn (state : Threads ι TaskProgress Pc) (thread : ι) : Prop :=
  (state.locals thread).Untorn state.shared state.locals

/-! ## The invariant -/

/-- The code of a published reason. -/
def Coded (published : List SuspensionReason) (code : Nat) : Prop :=
  ∃ reason ∈ published, (encodeReason reason).1 = code

/-- What a thread knows. -/
def Fact (progress : TaskProgress) : Pc → Prop
  | .rest last => ∀ report ∈ last, report.Sound progress.published
  | .suspending reason _ => reason ∈ progress.published
  | .status _ _ (.task code) => Coded progress.published code ∧
      (code = joinCode → progress.suspensionTask ≠ 0)
  | .lastSuspension _ (.task code) =>
      (code = recordCode ∨ Coded progress.published code) ∧
        (code = joinCode → progress.suspensionTask ≠ 0)
  | .panicked _ => False
  | _ => True

/-- Every word of the task is one that a suspension has stored. -/
structure TaskProgress.Inv (progress : TaskProgress) : Prop where
  unyielded : progress.yielded = false
  word : ∀ nonzero : progress.suspensionTask ≠ 0,
    .join ⟨progress.suspensionTask, nonzero⟩ ∈ progress.published
  state : progress.state = recordCode ∨ progress.state = readyCode ∨
    Coded progress.published progress.state
  last : progress.lastSuspension = recordCode ∨
    Coded progress.published progress.lastSuspension

section Facts

variable {published published' : List SuspensionReason} {progress progress' : TaskProgress}

theorem Report.Sound.mono {report : Report} (sound : report.Sound published)
    (grows : ∀ reason ∈ published, reason ∈ published') : report.Sound published' := by
  cases report with
  | status | lastSuspension =>
      intro reason equal
      exact (sound reason equal).imp_right (grows reason)

theorem Coded.mono {code : Nat} (coded : Coded published code)
    (grows : ∀ reason ∈ published, reason ∈ published') : Coded published' code := by
  obtain ⟨reason, member, equal⟩ := coded
  exact ⟨reason, grows reason member, equal⟩

/-- A thread keeps what it knows while the pair it reads is not torn. -/
theorem Fact.keep {pc : Pc} (fact : Fact progress pc)
    (grows : ∀ reason ∈ progress.published, reason ∈ progress'.published)
    (word : pc.holdsJoin = true → progress.suspensionTask ≠ 0 →
      progress'.suspensionTask ≠ 0) : Fact progress' pc := by
  cases pc with
  | rest last => exact fun report member => (fact report member).mono grows
  | suspending reason stage => exact grows reason fact
  | waking => trivial
  | status _ _ stage =>
      cases stage with
      | state => trivial
      | task code =>
          obtain ⟨coded, nonzero⟩ := fact
          exact ⟨coded.mono grows, fun equal => word (beq_iff_eq.2 equal) (nonzero equal)⟩
  | lastSuspension retained stage =>
      cases stage with
      | task code =>
          obtain ⟨coded, nonzero⟩ := fact
          exact ⟨coded.imp_right fun coded => coded.mono grows,
            fun equal => word (beq_iff_eq.2 equal) (nonzero equal)⟩
      | _ => trivial
  | panicked => exact fact

/-- A code and a task word that belong together decode to a published reason. -/
theorem Coded.decode {code : Nat} (coded : Coded progress.published code)
    (inv : progress.Inv) (nonzero : code = joinCode → progress.suspensionTask ≠ 0) :
    ∃ reason ∈ progress.published,
      decodeReason code progress.suspensionTask = .ok (some reason) := by
  by_cases join : code = joinCode
  · subst join
    exact ⟨_, inv.word (nonzero rfl), decode_join (nonzero rfl)⟩
  · obtain ⟨reason, member, rfl⟩ := coded
    exact ⟨reason, member, decode_code join _⟩

end Facts

/-! ## Steps -/

section Steps

variable {progress progress' : TaskProgress} {pc : Pc}

/-- What a step of `suspend` establishes. -/
theorem suspendStep_inv {reason : SuspensionReason} {stage : SuspendStage}
    (inv : progress.Inv) (member : reason ∈ progress.published)
    (taken : suspendStep progress reason stage = (progress', pc)) :
    progress'.Inv ∧ Fact progress' pc ∧ progress'.published = progress.published := by
  cases stage with
  | task =>
      cases taken
      refine ⟨{ inv with word := fun nonzero => ?_ }, member, rfl⟩
      exact join_of_word nonzero ▸ member
  | last =>
      cases taken
      exact ⟨{ inv with last := .inr ⟨reason, member, rfl⟩ }, member, rfl⟩
  | loadParks =>
      cases taken
      exact ⟨inv, member, rfl⟩
  | storeParks parks =>
      cases taken
      exact ⟨{ inv with }, member, rfl⟩
  | state =>
      cases taken
      exact ⟨{ inv with state := .inr (.inr ⟨reason, member, rfl⟩) }, nofun, rfl⟩

theorem wakeStep_inv {reason : WakeReason} {stage : WakeStage} (inv : progress.Inv)
    (taken : wakeStep progress reason stage = (progress', pc)) :
    progress'.Inv ∧ Fact progress' pc ∧ progress'.published = progress.published := by
  cases stage with
  | wake =>
      cases taken
      exact ⟨{ inv with }, trivial, rfl⟩
  | state =>
      cases taken
      exact ⟨{ inv with state := .inr (.inl rfl) }, nofun, rfl⟩

/-- What a reader of the status learns, unless it takes the code of a torn `Join`. -/
theorem statusStep_fact {retained : TaskStatus} {running : Bool} {stage : StatusStage}
    (inv : progress.Inv) (fact : Fact progress (.status retained running stage))
    (untorn : stage = .state → progress.state = joinCode → progress.suspensionTask ≠ 0) :
    Fact progress (statusStep progress retained running stage) := by
  cases stage with
  | state =>
      rw [statusStep]
      split
      · rintro _ ⟨⟩ reason equal
        revert equal
        cases running <;> exact nofun
      rename_i notReady
      split
      · rintro _ ⟨⟩ reason equal
        left
        rw [← equal]
        cases retained <;> cases running <;> first | rfl | cases equal
      · rename_i notRecord
        exact ⟨(inv.state.resolve_left notRecord).resolve_left notReady, untorn rfl⟩
  | task code =>
      obtain ⟨coded, nonzero⟩ := fact
      obtain ⟨reason, member, decoded⟩ := coded.decode inv nonzero
      simp only [statusStep, decoded]
      rintro _ ⟨⟩ other ⟨⟩
      exact .inr member

theorem lastStep_fact {retained : Option SuspensionReason} {stage : LastStage}
    (inv : progress.Inv) (fact : Fact progress (.lastSuspension retained stage))
    (untorn : stage = .code → progress.lastSuspension = joinCode →
      progress.suspensionTask ≠ 0) :
    Fact progress (lastStep progress retained stage) := by
  cases stage with
  | yielded =>
      rw [lastStep, if_neg (by simp [inv.unyielded])]
      trivial
  | code => exact ⟨inv.last, untorn rfl⟩
  | task code =>
      obtain ⟨rfl | coded, nonzero⟩ := fact
      · rintro _ ⟨⟩ reason equal
        exact .inl equal
      · obtain ⟨reason, member, decoded⟩ := coded.decode inv nonzero
        simp only [lastStep, decoded]
        rintro _ ⟨⟩ other ⟨⟩
        exact .inr member

theorem callStep_inv {writer thread : ι} {request : Request} (inv : progress.Inv)
    (taken : callStep writer thread progress request = some (progress', pc)) :
    progress'.Inv ∧ Fact progress' pc ∧ progress'.suspensionTask = progress.suspensionTask ∧
      ∀ reason ∈ progress.published, reason ∈ progress'.published := by
  cases request with
  | suspend reason =>
      rw [callStep] at taken
      split at taken
      · cases taken
        have grows : ∀ other ∈ progress.published, other ∈ reason :: progress.published :=
          fun _ member => List.mem_cons_of_mem _ member
        exact ⟨⟨inv.unyielded, fun nonzero => grows _ (inv.word nonzero),
          inv.state.imp_right fun state => state.imp_right fun coded => coded.mono grows,
          inv.last.imp_right fun coded => coded.mono grows⟩, List.mem_cons_self .., rfl, grows⟩
      · cases taken
  | wake reason =>
      rw [callStep] at taken
      split at taken
      · cases taken
        exact ⟨inv, trivial, rfl, fun _ member => member⟩
      · cases taken
  | status =>
      rw [callStep] at taken
      split at taken
      · cases taken
        refine ⟨inv, ?_, rfl, fun _ member => member⟩
        rintro _ ⟨⟩ reason equal
        exact .inl equal
      · cases taken
        exact ⟨inv, trivial, rfl, fun _ member => member⟩
  | lastSuspension =>
      cases taken
      exact ⟨inv, trivial, rfl, fun _ member => member⟩

end Steps

/-- What a guarded step keeps: the words, what the thread knows and what others know. -/
theorem nextStep_inv {writer thread : ι} {request : Request}
    {state : Threads ι TaskProgress Pc} {progress : TaskProgress} {pc : Pc}
    (inv : state.shared.Inv) (facts : ∀ other, Fact state.shared (state.locals other))
    (untorn : Untorn state thread)
    (taken : nextStep writer thread request state.shared (state.locals thread) =
      some (progress, pc)) :
    progress.Inv ∧ Fact progress pc ∧ ∀ other, Fact progress (state.locals other) := by
  have fact := facts thread
  rw [Untorn] at untorn
  generalize state.locals thread = mine at fact untorn taken
  have same : ∀ {progress' : TaskProgress}, progress'.published = state.shared.published →
      progress'.suspensionTask = state.shared.suspensionTask →
        ∀ other, Fact progress' (state.locals other) := by
    intro progress' published word other
    exact (facts other).keep (fun reason member => published ▸ member)
      fun _ nonzero => word ▸ nonzero
  cases mine with
  | rest last =>
      obtain ⟨inv', fact', word, grows⟩ := callStep_inv inv taken
      exact ⟨inv', fact', fun other => (facts other).keep grows fun _ nonzero => word ▸ nonzero⟩
  | suspending reason stage =>
      obtain ⟨inv', fact', published⟩ := suspendStep_inv inv fact (Option.some.inj taken)
      refine ⟨inv', fact', ?_⟩
      cases stage with
      | task =>
          cases taken
          intro other
          refine (facts other).keep (fun _ member => member) ?_
          -- The new word is zero only when no reader holds the code of a join.
          intro holds _ zero
          rw [untorn (word_eq_zero_iff.1 zero) other] at holds
          cases holds
      | _ =>
          cases taken
          exact same rfl rfl
  | waking reason stage =>
      obtain ⟨inv', fact', published⟩ := wakeStep_inv inv (Option.some.inj taken)
      refine ⟨inv', fact', ?_⟩
      cases stage <;> cases taken <;> exact same rfl rfl
  | status =>
      cases taken
      refine ⟨inv, statusStep_fact inv fact ?_, facts⟩
      rintro rfl
      exact untorn
  | lastSuspension =>
      cases taken
      refine ⟨inv, lastStep_fact inv fact ?_, facts⟩
      rintro rfl
      exact untorn
  | panicked => cases taken

/-- The invariant holds in every state of a run that tears no pair. -/
theorem untorn_inv {writer : ι} {state : Threads ι TaskProgress Pc}
    (reachable : ((program writer).guarded Untorn).Reachable state) :
    state.shared.Inv ∧ ∀ thread, Fact state.shared (state.locals thread) := by
  induction reachable with
  | initial isInitial =>
      obtain ⟨new, rests⟩ := isInitial
      rw [new]
      refine ⟨⟨rfl, fun nonzero => (nonzero rfl).elim, .inl rfl, .inl rfl⟩, fun thread => ?_⟩
      rw [rests]
      exact nofun
  | step _ taken ih =>
      obtain ⟨inv, facts⟩ := ih
      obtain ⟨thread, progress, pc, untorn, ⟨request, moved⟩, rfl⟩ := taken
      obtain ⟨inv', own, others⟩ := nextStep_inv inv facts untorn moved
      refine ⟨inv', fun other => ?_⟩
      by_cases equal : other = thread
      · simpa [equal] using own
      · simpa [equal] using others other

/-- No reader panics and every report is sound while no pair is torn. -/
theorem reports_published {writer : ι} {state : Threads ι TaskProgress Pc}
    (reachable : ((program writer).guarded Untorn).Reachable state) (thread : ι) :
    (∀ message, state.locals thread ≠ .panicked message) ∧
      ∀ report, state.locals thread = .rest (some report) →
        report.Sound state.shared.published := by
  obtain ⟨-, facts⟩ := untorn_inv reachable
  have fact := facts thread
  constructor
  · intro message panicked
    rw [panicked] at fact
    exact fact
  · intro report rests
    rw [rests] at fact
    exact fact report rfl

/-- A step that tears a pair can be followed by a panic of the reader. -/
theorem torn_panics {writer thread : ι} {request : Request}
    {state : Threads ι TaskProgress Pc} {progress : TaskProgress} {pc : Pc}
    (torn : ¬ Untorn state thread)
    (taken : nextStep writer thread request state.shared (state.locals thread) =
      some (progress, pc)) :
    ∃ reader message, nextStep writer reader request progress
      (if reader = thread then pc else state.locals reader) =
        some (progress, .panicked message) := by
  have decodes : decodeReason joinCode 0 = .error "task identity zero is reserved" := rfl
  rw [Untorn] at torn
  cases at_thread : state.locals thread with
  | suspending reason stage =>
      rw [at_thread] at torn taken
      cases stage with
      | task =>
          obtain ⟨other, readers⟩ := Classical.not_imp.1 torn
          obtain ⟨reader, holds⟩ := not_forall.1 readers
          cases taken
          have ne : reader ≠ thread := by
            rintro rfl
            rw [at_thread] at holds
            exact holds rfl
          refine ⟨reader, "task identity zero is reserved", ?_⟩
          rw [if_neg ne]
          cases at_reader : state.locals reader with
          | status _ _ stage =>
              rw [at_reader] at holds
              cases stage with
              | state => exact (holds rfl).elim
              | task code =>
                  have join : code = joinCode := by simpa [Pc.holdsJoin] using holds
                  simp only [nextStep, statusStep, join, word_eq_zero_iff.2 other, decodes]
          | lastSuspension retained stage =>
              rw [at_reader] at holds
              cases stage with
              | task code =>
                  have join : code = joinCode := by simpa [Pc.holdsJoin] using holds
                  simp only [nextStep, lastStep, join, word_eq_zero_iff.2 other, decodes]
              | _ => exact (holds rfl).elim
          | _ =>
              rw [at_reader] at holds
              exact (holds rfl).elim
      | _ => exact (torn trivial).elim
  | status _ _ stage =>
      rw [at_thread] at torn taken
      cases stage with
      | state =>
          obtain ⟨code, zero⟩ := Classical.not_imp.1 torn
          have word : state.shared.suspensionTask = 0 := not_not.1 zero
          cases taken
          refine ⟨thread, "task identity zero is reserved", ?_⟩
          rw [if_pos rfl, statusStep, code, if_neg (by decide), if_neg (by decide)]
          simp only [nextStep, statusStep, word, decodes]
      | task code => exact (torn trivial).elim
  | lastSuspension retained stage =>
      rw [at_thread] at torn taken
      cases stage with
      | code =>
          obtain ⟨code, zero⟩ := Classical.not_imp.1 torn
          have word : state.shared.suspensionTask = 0 := not_not.1 zero
          cases taken
          refine ⟨thread, "task identity zero is reserved", ?_⟩
          rw [if_pos rfl, lastStep, code]
          simp only [nextStep, lastStep, word, decodes]
      | _ => exact (torn trivial).elim
  | _ =>
      rw [at_thread] at torn
      exact (torn trivial).elim

/-! ## Joins that are reported and torn -/

instance [Fintype ι] (progress : TaskProgress) (readers : ι → Pc) :
    DecidablePred (Pc.Untorn progress readers)
  | .suspending reason .task => inferInstanceAs (Decidable ((encodeReason reason).1 ≠ joinCode →
      ∀ reader, (readers reader).holdsJoin = false))
  | .status _ _ .state => inferInstanceAs (Decidable (progress.state = joinCode →
      progress.suspensionTask ≠ 0))
  | .lastSuspension _ .code => inferInstanceAs (Decidable (progress.lastSuspension = joinCode →
      progress.suspensionTask ≠ 0))
  | .suspending _ .last | .suspending _ .loadParks | .suspending _ (.storeParks _)
  | .suspending _ .state | .rest _ | .waking _ _ | .status _ _ (.task _)
  | .lastSuspension _ .yielded | .lastSuspension _ (.task _) | .panicked _ =>
      inferInstanceAs (Decidable True)

instance [Fintype ι] (state : Threads ι TaskProgress Pc) (thread : ι) :
    Decidable (Untorn state thread) :=
  inferInstanceAs (Decidable ((state.locals thread).Untorn state.shared state.locals))

end Runs

/-- The writer `true` and a reader rest. -/
def unread : Threads Bool TaskProgress Pc := ⟨.new, fun _ => .rest none⟩

theorem unread_initial : (program true).system.initial unread := ⟨rfl, fun _ => rfl⟩

/-- The task joins task 7 and is woken. -/
def joinedSchedule : List (Bool × Request) :=
  List.replicate 6 (true, .suspend (.join ⟨7, nofun⟩)) ++ List.replicate 3 (true, .wake .ready)

/-- The reader takes the last suspension. -/
def reportedSchedule : List (Bool × Request) :=
  joinedSchedule ++ List.replicate 4 (false, .lastSuspension none)

/-- The reader takes the last suspension while the task parks. -/
def tornSchedule : List (Bool × Request) :=
  joinedSchedule ++ List.replicate 3 (false, .lastSuspension none) ++
    List.replicate 2 (true, .suspend .park) ++ [(false, .lastSuspension none)]

theorem reports_published_join :
    ∃ state, (scheduler true).runGuarded Untorn reportedSchedule unread = some state ∧
      state.locals false =
          .rest (some (.lastSuspension none (some (.join ⟨7, nofun⟩)))) ∧
        (Report.lastSuspension none (some (.join ⟨7, nofun⟩))).Sound state.shared.published := by
  have runs : ((scheduler true).runGuarded Untorn reportedSchedule unread).map
      (fun state => state.locals false) =
        some (.rest (some (.lastSuspension none (some (.join ⟨7, nofun⟩))))) := by decide
  obtain ⟨state, runs, rests⟩ := Option.map_eq_some_iff.mp runs
  have reachable := (scheduler true).runGuarded_reachable (.initial unread_initial) runs
  exact ⟨state, runs, rests, (reports_published reachable false).2 _ rests⟩

/-- A reader panics on the code of a join and the task word of a later park. -/
theorem torn_join_panics :
    ∃ state, (program true).system.Reachable state ∧
      state.locals false = .panicked "task identity zero is reserved" := by
  have runs : ((scheduler true).run tornSchedule unread).map (fun state => state.locals false) =
      some (.panicked "task identity zero is reserved") := by decide
  obtain ⟨state, runs, panicked⟩ := Option.map_eq_some_iff.mp runs
  exact ⟨state, (scheduler true).run_reachable (.initial unread_initial) runs, panicked⟩

end VThread.Progress

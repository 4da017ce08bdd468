import VThread.Blocking.Steps

/-!
# Custody of charges

Every running or discarding charge is in the hands of a worker that executes its job, and
such a worker reaches the end of the job in a bounded number of its own steps.
-/

namespace VThread.Blocking

open VThread.Lib VThread.Wait

variable {ω μ : Type}

/-- The job whose charge a worker holds where it stands. -/
def Stage.charge? : Stage → Option JobId
  | .execute _ charge _ => if charge.retained then none else some charge.job
  | _ => none

/-- After the step of a worker, a held charge is its own, or is another's as before. -/
def Custody (worker : ω) (shared : Shared ω) (stage : Stage) (result : Shared ω × Stage) : Prop :=
  ∀ id, Held (result.1.placement.place id) →
    Held (shared.placement.place id) ∧ result.1.holder id = shared.holder id ∧
        stage.charge? ≠ some id ∨
      result.1.holder id = some worker ∧ result.2.charge? = some id

section Worker

variable {shared : Shared ω} {worker : ω} {left : Option Nat} {charge : Charge} {flag : Bool}
  {result : Shared ω × Stage}

/-- A worker that goes on with its job, whatever it writes to it. -/
theorem Custody.go {shared' : Shared ω} {stage stage' : ExecuteStage}
    (holds : Holds worker charge shared) (place : shared'.placement = shared.placement)
    (holder : shared'.holder = shared.holder) :
    Custody worker shared (.execute left charge stage)
      (shared', .execute left charge stage') := by
  intro id held
  rw [holder]
  by_cases own : charge.job = id
  · right
    rw [Stage.charge?, holds.retained, ← own]
    exact ⟨holds.holder, rfl⟩
  · left
    rw [Stage.charge?, holds.retained]
    change Held (shared'.placement.place id) at held
    rw [place] at held
    exact ⟨held, rfl, fun same => own (Option.some.inj same)⟩

/-- A worker that gives its charge up. -/
theorem Custody.leave {shared' : Shared ω} {stage : ExecuteStage} {stage' : Stage}
    (holds : Holds worker charge shared)
    (free : ¬ Held (shared'.placement.place charge.job))
    (place : ∀ id, id ≠ charge.job → shared'.placement.place id = shared.placement.place id)
    (holder : ∀ id, id ≠ charge.job → shared'.holder id = shared.holder id) :
    Custody worker shared (.execute left charge stage) (shared', stage') := by
  intro id held
  by_cases own : id = charge.job
  · rw [own] at held
    exact (free held).elim
  · left
    change Held (shared'.placement.place id) at held
    rw [place id own] at held
    rw [Stage.charge?, holds.retained]
    exact ⟨held, holder id own, fun same => own (Option.some.inj same).symm⟩

theorem not_held_none : ¬ Held none := by
  rintro (held | held) <;> cases held

theorem releaseStep_custody (inv : shared.Inv) (holds : Holds worker charge shared)
    (fact : ExecuteFact charge (shared.jobs charge.job) .release)
    (rounds : Rounds left charge shared) :
    Custody worker shared (.execute left charge .release) (releaseStep left charge shared) := by
  have calm := (release_worked inv holds rounds fact).fact
  have released : ∀ state, Custody worker shared (.execute left charge .release)
      (shared.released charge.job state, afterJob left) := by
    intro state
    apply Custody.leave holds
    · change ¬ Held ((shared.placement.remove charge.job).place charge.job)
      rw [Placement.remove_place_self]
      exact not_held_none
    · exact fun id ne => Function.update_of_ne ne ..
    · exact fun id ne => Function.update_of_ne ne ..
  rw [releaseStep] at calm ⊢
  split at calm
  · rename_i discard
    rw [if_pos discard]
    split at calm
    · exact calm.elim
    · rename_i some
      rw [if_neg some]
      exact released _
  · rename_i run
    rw [if_neg run]
    split at calm
    · exact calm.elim
    · rename_i some
      rw [if_neg some]
      exact released _

theorem executeStep_custody {stage : ExecuteStage} (inv : shared.Inv)
    (fact : WorkerFact worker shared (.execute left charge stage))
    (stepped : executeStep flag left charge shared stage = some result) :
    Custody worker shared (.execute left charge stage) result := by
  have calm := (executeStep_worked inv fact stepped).fact
  rcases fact with ⟨holds, fact, rounds⟩ | ⟨rfl, retained, rfl, accepted, ended⟩
  · cases stage with
    | selectClosed | selectReady =>
        obtain ⟨job, selected, rfl⟩ := Option.map_eq_some_iff.1 stepped
        exact .go holds rfl rfl
    | body =>
        rw [executeStep] at stepped
        split at stepped
        · cases stepped
          exact .go holds rfl rfl
        · split at stepped
          · cases stepped
            exact .go holds rfl rfl
          · cases stepped
            exact .go holds rfl rfl
    | running | store | count | destroy | countReclaim =>
        cases stepped
        exact .go holds rfl rfl
    | settle =>
        rw [executeStep] at stepped
        split at stepped
        · cases stepped
          exact .go holds rfl rfl
        · cases stepped
          exact .go holds rfl rfl
    | retain =>
        rw [executeStep] at stepped
        split at stepped
        · cases stepped
          exact calm.elim
        · cases stepped
          apply Custody.leave holds
          · change ¬ Held ((shared.placement.move charge.job .completed).place charge.job)
            rw [Placement.move_place_self]
            rintro (held | held) <;> cases held
          · exact fun id ne => Placement.move_place_ne ne
          · exact fun id ne => Function.update_of_ne ne ..
    | close =>
        obtain ⟨job, selected, rfl⟩ := Option.map_eq_some_iff.1 stepped
        rw [holds.retained]
        exact .go holds rfl rfl
    | release =>
        cases stepped
        exact releaseStep_custody inv holds fact rounds
  · obtain ⟨job, selected, rfl⟩ := Option.map_eq_some_iff.1 stepped
    intro id held
    refine .inl ⟨held, rfl, ?_⟩
    rw [Stage.charge?, retained]
    rintro ⟨⟩

/-- A worker that takes a charge has it. -/
theorem Custody.hold {job : Job} {state : State} {stage : Stage} {stage' : ExecuteStage}
    (empty : stage.charge? = none) (retained : charge.retained = false) :
    Custody worker shared stage
      (shared.hold worker charge job state, .execute left charge stage') := by
  intro id held
  by_cases own : id = charge.job
  · right
    rw [Stage.charge?, retained, own]
    exact ⟨Function.update_self .., rfl⟩
  · left
    change Held ((shared.placement.move charge.job _).place id) at held
    rw [Placement.move_place_ne own] at held
    refine ⟨held, Function.update_of_ne own .., ?_⟩
    rw [empty]
    nofun

theorem take_custody {stage : Stage} (empty : stage.charge? = none)
    (taken : shared.take worker left = some result) : Custody worker shared stage result := by
  rw [Shared.take] at taken
  split at taken
  · cases taken
    exact .hold empty rfl
  · split at taken
    · split at taken
      · cases taken
        exact .hold empty rfl
      · cases taken
        exact .hold empty rfl
    · split at taken
      · cases taken
        exact fun id held => .inl ⟨held, rfl, by rw [empty]; rintro ⟨⟩⟩
      · cases taken

theorem workerStep_custody {choice : Choice} {stage : Stage} (inv : shared.Inv)
    (fact : WorkerFact worker shared stage)
    (stepped : workerStep worker choice shared stage = some result) :
    Custody worker shared stage result := by
  cases stage with
  | rest =>
      rw [workerStep] at stepped
      split at stepped
      · cases stepped
        exact fun id held => .inl ⟨held, rfl, by rintro ⟨⟩⟩
      · cases stepped
        exact fun id held => .inl ⟨held, rfl, by rintro ⟨⟩⟩
  | take left =>
      cases left with
      | none => exact take_custody rfl stepped
      | some left =>
          cases left with
          | zero =>
              cases stepped
              exact fun id held => .inl ⟨held, rfl, by rintro ⟨⟩⟩
          | succ left => exact take_custody rfl stepped
  | execute => exact executeStep_custody inv fact stepped
  | fail queued =>
      cases queued with
      | nil =>
          cases stepped
          exact fun id held => .inl ⟨held, rfl, by rintro ⟨⟩⟩
      | cons id rest =>
          obtain ⟨job, selected, rfl⟩ := Option.map_eq_some_iff.1 stepped
          exact fun id held => .inl ⟨held, rfl, by rintro ⟨⟩⟩
  | _ => cases stepped

end Worker

/-! ## Callers and others -/

section Others

variable {shared : Shared ω} {result : Shared ω × Stage} {choice : Choice} {stage : Stage}

/-- Callers and others touch no held charge. -/
def Aloof (shared shared' : Shared ω) : Prop :=
  ∀ id, Held (shared'.placement.place id) →
    Held (shared.placement.place id) ∧ shared'.holder id = shared.holder id

theorem Aloof.keep {shared' : Shared ω} (place : shared'.placement = shared.placement)
    (holder : shared'.holder = shared.holder) : Aloof shared shared' := by
  intro id held
  rw [place] at held
  exact ⟨held, congrFun holder id⟩

theorem submitStep_aloof (stepped : submitStep choice shared = some result) :
    Aloof shared result.1 := by
  rw [submitStep] at stepped
  split at stepped
  · split at stepped
    · rename_i submitted accepts
      cases stepped
      rw [Shared.submit] at accepts
      split at accepts
      · cases accepts
      split at accepts
      · cases accepts
      split at accepts
      · cases accepts
      cases accepts
      intro id held
      change Held ((shared.placement.move shared.accepted .queued).place id) at held
      by_cases new : id = shared.accepted
      · rw [new, Placement.move_place_self] at held
        rcases held with held | held <;> cases held
      · rw [Placement.move_place_ne new] at held
        exact ⟨held, rfl⟩
    · cases stepped
      exact .keep rfl rfl
  · cases stepped

theorem callerStep_aloof (stepped : callerStep choice shared stage = some result) :
    Aloof shared result.1 := by
  cases stage with
  | rest | rejected => exact submitStep_aloof stepped
  | leased job =>
      rw [callerStep] at stepped
      split at stepped
      · cases stepped
        exact .keep rfl rfl
      · cases stepped
        exact .keep rfl rfl
  | dropping job =>
      cases stepped
      exact .keep rfl rfl
  | _ => cases stepped

theorem outsideStep_aloof (stepped : outsideStep choice shared stage = some result) :
    Aloof shared result.1 := by
  cases stage with
  | rest =>
      rw [outsideStep] at stepped
      split at stepped
      · cases stepped
        exact .keep rfl rfl
      · split at stepped
        · obtain ⟨job, moved, rfl⟩ := Option.map_eq_some_iff.1 stepped
          exact .keep rfl rfl
        · cases stepped
  | _ => cases stepped

end Others

/-! ## Progress of a job -/

/-- A bound on the own steps to the end of a job. -/
def ExecuteStage.rank : ExecuteStage → Nat
  | .selectClosed => 11
  | .body => 10
  | .running => 9
  | .store _ => 8
  | .selectReady _ => 7
  | .count _ => 6
  | .settle => 5
  | .destroy => 4
  | .countReclaim _ => 3
  | .retain => 3
  | .close => 2
  | .release => 1

section Progress

variable {shared : Shared ω} {worker : ω} {left : Option Nat} {charge : Charge}

theorem Job.select_isSome {job : Job} (sound : job.Sound) (cause : WakeCause)
    (ending : Ending) : ∃ job', job.select cause ending = some job' := by
  rw [Job.select]
  split
  · rename_i reload
    rw [selectGeneration, if_neg sound.bound] at reload
    split at reload
    · cases reload
    split at reload
    · cases reload
    split at reload <;> cases reload
  · exact ⟨_, rfl⟩
  · exact ⟨_, rfl⟩

/-- A worker always comes closer to the end of its job. -/
theorem executeStep_progress {stage : ExecuteStage} (inv : shared.Inv)
    (fact : WorkerFact worker shared (.execute left charge stage)) (flag : Bool) :
    ∃ shared' stage', executeStep flag left charge shared stage = some (shared', stage') ∧
      (stage' = afterJob left ∨ ∃ charge' next, stage' = .execute left charge' next ∧
        charge'.job = charge.job ∧ next.rank < stage.rank) := by
  have calm : ∀ message shared', executeStep flag left charge shared stage ≠
      some (shared', .panicked message) :=
    fun message shared' stepped => (executeStep_worked inv fact stepped).fact
  have accepted : charge.job < shared.accepted := by
    rcases fact with ⟨holds, -⟩ | ⟨-, -, -, accepted, -⟩
    · exact holds.accepted
    · exact accepted
  have sound := inv.sound _ accepted
  have goes : ∀ {shared' charge' next}, executeStep flag left charge shared stage =
        some (shared', .execute left charge' next) →
      charge'.job = charge.job → next.rank < stage.rank →
      ∃ shared' stage', executeStep flag left charge shared stage = some (shared', stage') ∧
        (stage' = afterJob left ∨ ∃ charge' next, stage' = .execute left charge' next ∧
          charge'.job = charge.job ∧ next.rank < stage.rank) :=
    fun stepped same lower => ⟨_, _, stepped, .inr ⟨_, _, rfl, same, lower⟩⟩
  cases stage with
  | selectClosed =>
      obtain ⟨job, selected⟩ := Job.select_isSome sound .closed .pool
      exact goes (Option.map_eq_some_iff.2 ⟨job, selected, rfl⟩) rfl (by simp [ExecuteStage.rank])
  | body =>
      by_cases discard : charge.discard = true
      · exact goes (if_pos discard) rfl (by simp [ExecuteStage.rank])
      by_cases abandoned : (shared.jobs charge.job).abandoned = true
      · exact goes ((if_neg discard).trans (if_pos abandoned)) rfl (by simp [ExecuteStage.rank])
      · exact goes ((if_neg discard).trans (if_neg abandoned)) rfl (by simp [ExecuteStage.rank])
  | running | store | count | destroy => exact goes rfl rfl (by simp [ExecuteStage.rank])
  | selectReady =>
      obtain ⟨job, selected⟩ := Job.select_isSome sound .ready .body
      exact goes (Option.map_eq_some_iff.2 ⟨job, selected, rfl⟩) rfl (by simp [ExecuteStage.rank])
  | settle =>
      by_cases given : charge.discard = true ∨ (shared.jobs charge.job).abandoned = true
      · exact goes (if_pos given) rfl (by simp [ExecuteStage.rank])
      · exact goes (if_neg given) rfl (by simp [ExecuteStage.rank])
  | countReclaim =>
      cases wake : charge.wake with
      | true => exact goes (by rw [executeStep, wake]) rfl (by simp [ExecuteStage.rank])
      | false => exact goes (by rw [executeStep, wake]) rfl (by simp [ExecuteStage.rank])
  | retain =>
      by_cases none : shared.state.running = 0
      · exact (calm _ _ (if_pos none)).elim
      · exact goes (if_neg none) rfl (by simp [ExecuteStage.rank])
  | close =>
      obtain ⟨job, selected⟩ := Job.select_isSome sound .closed .pool
      have stepped : executeStep flag left charge shared .close =
          some (shared.setJob charge.job job,
            if charge.retained then afterJob left else .execute left charge .release) :=
        Option.map_eq_some_iff.2 ⟨job, selected, rfl⟩
      cases retained : charge.retained with
      | true =>
          rw [if_pos retained] at stepped
          exact ⟨_, _, stepped, .inl rfl⟩
      | false =>
          rw [if_neg (by rw [retained]; rintro ⟨⟩)] at stepped
          exact goes stepped rfl (by simp [ExecuteStage.rank])
  | release =>
      refine ⟨(releaseStep left charge shared).1, (releaseStep left charge shared).2, rfl,
        .inl ?_⟩
      have calm : WorkerFact worker (releaseStep left charge shared).1
          (releaseStep left charge shared).2 :=
        (@executeStep_worked _ _ _ _ _ flag _ _ inv fact rfl).fact
      rw [releaseStep] at calm ⊢
      split at calm
      · rename_i discard
        rw [if_pos discard]
        split at calm
        · exact calm.elim
        · rename_i some
          rw [if_neg some]
      · rename_i run
        rw [if_neg run]
        split at calm
        · exact calm.elim
        · rename_i some
          rw [if_neg some]

end Progress

end VThread.Blocking

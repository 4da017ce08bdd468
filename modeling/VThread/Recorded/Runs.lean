import VThread.Recorded.Calls

/-!
# Runs of recorded cells

Every step of a thread keeps the invariant, so it holds in every reachable state.
-/

namespace VThread.Recorded

open VThread.Lib VThread.Wait

variable {κ ι τ ρ η : Type}

/-! ## All steps -/

section Steps

variable {thread : ι} {shared shared' : Shared κ ι τ ρ η} {mine mine' : Local κ τ ρ η}

/-- A stance at rest between two calls. -/
theorem resting_stance (at_ : (∃ last, mine.stance = .call (.rest last)) ∨
    ∃ registration, mine.stance = .registered registration) :
    (∃ last, mine.stance.pc = .rest last) ∧ mine.stance.publishes? = none ∧
      mine.stance.resumes? = none := by
  rcases at_ with ⟨last, at_⟩ | ⟨registration, at_⟩
  · rw [at_]
    exact ⟨⟨last, rfl⟩, rfl, rfl⟩
  · rw [at_]
    exact ⟨⟨none, rfl⟩, rfl, rfl⟩

theorem select_token {log : List (EventKind τ)} {token : ParkToken} (cause : WakeCause)
    (returned : Returned log token) :
    ∀ other ∈ (Op.select token cause : Op τ ρ η).token?, Returned log other := by
  intro other member
  cases member
  exact returned

/-- A registration selects the task of the generation, or too late. -/
theorem select_fact (inv : shared.Sound) {registration : Registration τ} {token : ParkToken}
    {cause : WakeCause} {home : κ} (knows : Knows shared home registration.since registration.task)
    (fits : shared.Fits home registration token) :
    SelectFact shared home registration.task
      (Op.call (shared.cells home).cell.id (.select token cause) : Pc τ ρ η) := by
  rw [Op.call]
  split
  · rename_i own
    have wait := own token rfl
    have begun := Moves.begun_of_returned inv wait fits.1
    rcases fits.2 wait with known | ⟨some, same⟩
    · rcases knows.2 token.generation begun.1 known with passed | named
      · exact .inl ⟨passed, rfl⟩
      · exact .inr named
    · exact .inr ⟨some, same⟩
  · trivial

variable [DecidableEq κ] [DecidableEq ι] [DecidableEq τ] [DecidableEq ρ] [DecidableEq η]

theorem goStep_own (inv : shared.Sound) (sound : mine.Sound thread shared)
    {expired accepted : Bool} {origin : WakeOrigin}
    (taken : goStep thread expired accepted origin shared mine = some (shared', mine')) :
    Own thread shared shared' mine' := by
  unfold goStep at taken
  cases at_ : mine.stance with
  | call pc =>
      rw [at_] at taken
      cases pc with
      | run op stage =>
          have fact := sound.calls mine.home
          rw [Local.view_self, at_] at fact
          have runs : Runs thread shared mine origin op stage _ _ _ :=
            ⟨inv, sound, at_, advanceStage_own (inv.cells _)
                ⟨op, expired && mine.timed, accepted⟩ fact,
              stage_turn (inv.cells _) ⟨op, expired && mine.timed, accepted⟩ fact,
              advanceStage_op thread _ _ op stage⟩
          cases taken
          exact ⟨runs.after_sound, runs.moves, runs.after_mine⟩
      | _ => cases taken
  | recording =>
      rw [at_] at taken
      cases taken
      exact sound.record inv at_
  | readTask =>
      rw [at_] at taken
      cases taken
      exact sound.readTask inv at_
  | readRoute =>
      rw [at_] at taken
      cases taken
      exact sound.readRoute inv at_
  | readHub =>
      rw [at_] at taken
      cases taken
      exact sound.readHub inv at_
  | registering cached =>
      rw [at_] at taken
      cases taken
      have rests : ∃ last, mine.stance.pc = .rest last := ⟨none, by rw [at_]; rfl⟩
      have publishes : mine.stance.publishes? = none := by rw [at_]; rfl
      have resumes : mine.stance.resumes? = none := by rw [at_]; rfl
      split
      · rename_i tolerated
        exact sound.pause inv rests publishes resumes rfl
          (knows_none (inv.cells mine.home) tolerated.2)
      · exact sound.pause inv rests publishes resumes rfl (Nat.le_refl _)
  | _ =>
      rw [at_] at taken
      cases taken

theorem nextStep_own (inv : shared.Sound) (sound : mine.Sound thread shared)
    {choice : Choice κ τ ρ η}
    (taken : nextStep thread shared mine choice = some (shared', mine')) :
    Own thread shared shared' mine' := by
  cases choice with
  | visit home =>
      simp only [nextStep] at taken
      split at taken
      · rename_i last at_
        cases taken
        obtain ⟨rests, publishes, resumes⟩ := resting_stance (.inl ⟨_, at_⟩)
        exact sound.pause inv rests publishes resumes rfl trivial
      · rename_i registration at_
        cases taken
        obtain ⟨rests, publishes, resumes⟩ := resting_stance (.inr ⟨_, at_⟩)
        exact sound.pause inv rests publishes resumes rfl trivial
      · cases taken
  | call op timed =>
      simp only [nextStep] at taken
      split at taken
      · rename_i last at_
        split at taken
        · rename_i permits
          cases taken
          obtain ⟨rests, publishes, resumes⟩ := resting_stance (.inl ⟨_, at_⟩)
          refine sound.start inv rests publishes resumes rfl rfl permits.2 trivial ?_
          show SelectFact shared mine.home mine.registration (op.call _)
          rw [Op.call]
          split
          · cases op with
            | select => cases permits.1
            | _ => trivial
          · trivial
        · cases taken
      · cases taken
  | register cached =>
      simp only [nextStep] at taken
      split at taken
      · rename_i last at_
        cases taken
        obtain ⟨rests, publishes, resumes⟩ := resting_stance (.inl ⟨_, at_⟩)
        exact sound.pause inv rests publishes resumes rfl trivial
      · cases taken
  | select token cause origin =>
      simp only [nextStep] at taken
      split at taken
      · rename_i registration at_
        split at taken
        · rename_i fits
          cases taken
          obtain ⟨rests, publishes, resumes⟩ := resting_stance (.inr ⟨_, at_⟩)
          have knows := sound.stance
          rw [at_] at knows
          rcases reject_cases registration.task origin (fun _ => .retiredGeneration)
              (.select token cause) (Op.call (shared.cells mine.home).cell.id (.select token cause))
            with same | ⟨token', cause', last, equal, ended, rejected⟩
          · rw [same]
            exact sound.start inv rests publishes resumes rfl rfl
              (select_token cause fits.1) trivial (select_fact inv knows fits)
          · cases equal
            refine sound.start inv rests publishes resumes rfl ?_
              (select_token cause fits.1) ?_ ?_
            · rw [rejected]
              exact offer_pc ..
            · rw [rejected]
              cases registration.task with
              | none => trivial
              | some task => exact .refusal fits.1
            · show SelectFact _ _ _ (reject _ _ _ _ _).pc
              rw [rejected, offer_pc]
              exact select_fact inv knows fits
        · cases taken
      · cases taken
  | noWait =>
      simp only [nextStep] at taken
      split at taken
      · rename_i registration at_
        split at taken
        · rename_i returned
          cases taken
          obtain ⟨rests, publishes, resumes⟩ := resting_stance (.inr ⟨_, at_⟩)
          refine sound.pause inv rests publishes resumes (offer_pc ..) ?_
          cases registration.task with
          | none => trivial
          | some task => exact .refusal returned
        · cases taken
      · cases taken
  | go => exact goStep_own inv sound taken

end Steps

/-! ## All runs -/

section Runs

theorem initial_sound {shared : Shared κ ι τ ρ η} (initial : shared.Initial) : shared.Sound where
  cells home := by
    rw [initial.cells]
    exact initial_inv _
  distinct := initial.distinct
  beginner home generation := by
    rw [initial.beginner, initial.cells]
    refine ⟨(nomatch ·), fun begun => ?_⟩
    exact absurd (Nat.lt_of_lt_of_le begun.1 begun.2) (Nat.lt_irrefl 0)
  published wait recorded := by
    rw [initial.log] at recorded
    exact (recorded rfl).elim
  unclaimed home generation claims := by
    rw [initial.log]
    rfl
  announced home generation published := by
    rw [Shared.record, initial.cells] at published
    exact (published rfl).elim
  finisher home generation := by
    rw [initial.finisher, Shared.record, initial.cells]
    exact ⟨(nomatch ·), fun finishes => (finishes rfl).elim⟩
  resumed wait recorded := by
    rw [initial.log] at recorded
    exact (recorded rfl).elim

variable [DecidableEq κ] {first : κ}

theorem initial_mine {shared : Shared κ ι τ ρ η} (initial : shared.Initial) (thread : ι) :
    (⟨first, .call (.rest none), false, none⟩ : Local κ τ ρ η).Sound thread shared where
  calls home := by
    have none : (⟨first, .call (.rest none), false, none⟩ : Local κ τ ρ η).view home =
        .rest none := ite_self _
    rw [none, initial.cells]
    exact initial_local _ thread
  stance := trivial
  tokens op stage run := nomatch run
  select := trivial
  rank outside := nomatch outside
  publishes wait beginner := by
    rw [initial.beginner] at beginner
    cases beginner
  resumes wait finisher := by
    rw [initial.finisher] at finisher
    cases finisher
  unannounced home generation cause claims := by
    rw [Shared.record, initial.cells] at claims
    cases claims
  announced home generation cause claims := by
    rw [Shared.record, initial.cells] at claims
    cases claims

variable [DecidableEq ι] [DecidableEq τ] [DecidableEq ρ] [DecidableEq η]

/-- The interleavings of all calls on all cells. -/
abbrev cellsSystem (κ ι τ ρ η : Type) [DecidableEq κ] [DecidableEq ι] [DecidableEq τ]
    [DecidableEq ρ] [DecidableEq η] (first : κ) :
    System (Threads ι (Shared κ ι τ ρ η) (Local κ τ ρ η)) :=
  (program first).system

/-- The invariant holds in every reachable state. -/
theorem reachable_sound {state : Threads ι (Shared κ ι τ ρ η) (Local κ τ ρ η)}
    (reachable : (cellsSystem κ ι τ ρ η first).Reachable state) :
    state.shared.Sound ∧ ∀ thread, (state.locals thread).Sound thread state.shared := by
  apply Program.invariant ?_ ?_ ?_ reachable
  · intro shared initial
    exact ⟨initial_sound initial, initial_mine initial⟩
  · rintro thread shared mine shared' mine' inv sound ⟨choice, taken⟩
    have own := nextStep_own inv sound taken
    exact ⟨own.sound, own.mine⟩
  · rintro thread other shared mine otherMine shared' mine' ne inv sound others ⟨choice, taken⟩
    exact (nextStep_own inv sound taken).moves.others inv ne others

end Runs

end VThread.Recorded

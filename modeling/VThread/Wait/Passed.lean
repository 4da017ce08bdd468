import VThread.Wait.Winner

/-!
# Generations that are no longer active

A generation that has been claimed or retired never becomes active again, a selection
leaves its generation in that state, and no generation exceeds the largest one.
-/

namespace VThread.Wait

open VThread.Lib

variable {ι τ ρ η : Type}

/-! ## Passed generations -/

/-- The generation has been activated and is no longer active. -/
def Shared.Passed (shared : Shared ι τ ρ η) (generation : Nat) : Prop :=
  generation < shared.cell.state.generation ∨
    generation = shared.cell.state.generation ∧ shared.cell.state.phase ≠ .binding ∧
      shared.cell.state.phase ≠ .active

section Passed

variable {thread : ι} {shared shared' : Shared ι τ ρ η} {generation : Nat}

theorem Shared.passed_of_phase (phase : shared.cell.state.phase ≠ .binding ∧
    shared.cell.state.phase ≠ .active) (le : generation ≤ shared.cell.state.generation) :
    shared.Passed generation := by
  rcases Nat.lt_or_eq_of_le le with lt | equal
  · exact .inl lt
  · exact .inr ⟨equal, phase⟩

/-- A later state with the same generation keeps passed generations if it stays out of the
live phases. -/
theorem Shared.Passed.mono (passed : shared.Passed generation)
    (le : shared.cell.state.generation ≤ shared'.cell.state.generation)
    (live : shared'.cell.state.generation = shared.cell.state.generation →
      shared.cell.state.phase ≠ .binding → shared.cell.state.phase ≠ .active →
        shared'.cell.state.phase ≠ .binding ∧ shared'.cell.state.phase ≠ .active) :
    shared'.Passed generation := by
  rcases passed with lt | ⟨rfl, notBinding, notActive⟩
  · exact .inl (Nat.lt_of_lt_of_le lt le)
  · rcases Nat.lt_or_eq_of_le le with lt | equal
    · exact .inl lt
    · exact .inr ⟨equal, live equal.symm notBinding notActive⟩

theorem Change.passed (change : Change thread shared shared')
    (passed : shared.Passed generation) : shared'.Passed generation := by
  apply passed.mono change.generation_le
  intro same notBinding notActive
  cases change with
  | same | interest | hand | complete => exact ⟨notBinding, notActive⟩
  | adjust next _ _ phase => simp only [Shared.setState_cell, phase]; exact ⟨notBinding, notActive⟩
  | activate | bind =>
      simp only [Shared.note_cell, Shared.setState_cell] at same
      omega
  | write cell binding => exact (notBinding binding).elim
  | opened _ _ binding => exact (notBinding binding).elim
  | claim cause next active => exact (notActive active).elim
  | publish cause next _ _ _ next_eq =>
      subst next_eq
      exact ⟨nofun, nofun⟩
  | retire _ _ _ idle =>
      simp only [Shared.note_cell, Shared.setState_cell, idle]
      exact ⟨nofun, nofun⟩

/-- A passed generation was claimed or retired. -/
theorem Shared.Passed.settled (passed : shared.Passed generation) (inv : shared.Inv)
    (positive : 0 < generation) :
    (∃ winner cause, (shared.history generation).claims = [(winner, cause)]) ∨
      (shared.history generation).retired = true := by
  rcases passed with lt | ⟨rfl, notBinding, notActive⟩
  · exact .inr ((inv.past generation lt).1 positive)
  · have current := inv.current
    rw [Record.Current] at current
    cases phase : shared.cell.state.phase with
    | idle =>
        rw [phase] at current
        exact .inr (current.1 positive)
    | binding => exact (notBinding phase).elim
    | active => exact (notActive phase).elim
    | claim cause =>
        rw [phase] at current
        obtain ⟨winner, claims, -⟩ := current
        exact .inl ⟨winner, cause, claims⟩
    | selected cause =>
        rw [phase] at current
        obtain ⟨winner, won, -⟩ := current
        exact .inl ⟨winner, cause, won.claims⟩

end Passed

/-! ## Selections -/

/-- Where a selection of `token` stands: it may still compare and exchange, or it owes a
notice, a publication or a signal for a generation that has passed. -/
def Selecting (shared : Shared ι τ ρ η) (token : ParkToken) : Stage τ ρ η → Prop
  | .load => True
  | .exchange expected next won => expected.phase = .active ∧
      expected.generation = token.generation ∧ (∃ cause carrier outcome,
        won = .claim cause carrier outcome ∧ next = expected.claimed cause)
  | stage => (stage.owes ≠ none ∨ stage.owesCompletion ≠ none) ∧ shared.Passed token.generation

section Selecting

variable {shared shared' : Shared ι τ ρ η} {token : ParkToken} {cause : WakeCause}

theorem Selecting.keep {stage : Stage τ ρ η} (selecting : Selecting shared token stage)
    (passed : shared.Passed token.generation → shared'.Passed token.generation) :
    Selecting shared' token stage := by
  cases stage with
  | load => trivial
  | exchange => exact selecting
  | _ => exact ⟨selecting.1, passed selecting.2⟩

theorem Selecting.of_owes {stage : Stage τ ρ η}
    (owes : stage.owes ≠ none ∨ stage.owesCompletion ≠ none)
    (passed : shared.Passed token.generation) : Selecting shared token stage := by
  cases stage with
  | load => trivial
  | exchange => exact (owes.elim (· rfl) (· rfl)).elim
  | _ => exact ⟨owes, passed⟩

/-- A decided selection continues, or its generation has passed. -/
theorem settle_select (inv : shared.Inv) (cause : WakeCause)
    (issued : token.generation ≤ shared.issued) :
    (∃ stage, settle (.select token cause) shared.cell.state
        (selectGeneration token cause shared.cell.state : Attempt τ ρ η) =
          .run (.select token cause) stage ∧ Selecting shared token stage) ∨
      (∃ outcome, settle (.select token cause) shared.cell.state
        (selectGeneration token cause shared.cell.state : Attempt τ ρ η) =
          .rest (some (.select token cause, outcome))) ∧
        shared.Passed token.generation := by
  have bound := inv.issued_eq
  rw [selectGeneration]
  split
  · exact .inl ⟨.load, rfl, trivial⟩
  rename_i notBinding
  rw [if_neg notBinding] at bound
  split
  · rename_i idle
    have ended : shared.cell.state.phase ≠ .binding ∧ shared.cell.state.phase ≠ .active := by
      rw [idle]
      exact ⟨by rintro ⟨⟩, by rintro ⟨⟩⟩
    exact .inr ⟨⟨_, rfl⟩, Shared.passed_of_phase ended (by omega)⟩
  split
  · exact .inr ⟨⟨_, rfl⟩, .inl (by omega)⟩
  rename_i same
  split
  · rename_i notActive
    exact .inr ⟨⟨_, rfl⟩, Shared.passed_of_phase ⟨notBinding, notActive⟩ (by omega)⟩
  · rename_i active
    exact .inl ⟨_, rfl, Decidable.not_not.1 active, Decidable.not_not.1 same, cause, false,
      .flag true, rfl, rfl⟩

variable [DecidableEq ι] [DecidableEq τ] [DecidableEq ρ] [DecidableEq η]

/-- A call that owes something goes on owing until it returns. -/
theorem advanceStage_owing {thread : ι} {choice : Choice τ ρ η} {op op' : Op τ ρ η}
    {stage stage' : Stage τ ρ η} (owes : stage.owes ≠ none ∨ stage.owesCompletion ≠ none)
    (taken : (advanceStage thread choice shared op stage).2 = .run op' stage') :
    op' = op ∧ (stage'.owes ≠ none ∨ stage'.owesCompletion ≠ none) := by
  cases stage with
  | readTask | readRoute =>
      rw [advanceStage] at taken
      split at taken
      · cases taken
      · cases taken
        exact ⟨rfl, owes⟩
  | readHub use =>
      rw [advanceStage] at taken
      split at taken
      · cases taken
      cases use with
      | enqueue =>
          dsimp only at taken
          split at taken <;> cases taken <;> exact ⟨rfl, .inl (Option.some_ne_none _)⟩
      | complete =>
          cases taken
          exact ⟨rfl, .inl (Option.some_ne_none _)⟩
      | clone => exact (owes.elim (· rfl) (· rfl)).elim
  | hand =>
      cases taken
      exact ⟨rfl, .inl (Option.some_ne_none _)⟩
  | publish =>
      rw [advanceStage] at taken
      split at taken
      · cases taken
      split at taken
      · cases taken
      split at taken
      · cases taken
      split at taken
      · cases taken
      · cases taken
        exact ⟨rfl, .inl (Option.some_ne_none _)⟩
  | republish =>
      rw [advanceStage] at taken
      split at taken
      · cases taken
      split at taken
      · cases taken
        exact ⟨rfl, .inr (Option.some_ne_none _)⟩
      · cases taken
  | complete => cases taken
  | _ => exact (owes.elim (· rfl) (· rfl)).elim

/-- A step of a selection continues it, or ends it with its generation passed. -/
theorem advanceStage_select (inv : shared.Inv) (thread : ι) (choice : Choice τ ρ η)
    {stage : Stage τ ρ η} (mine : Local thread shared (.run (.select token cause) stage))
    (issued : token.generation ≤ shared.issued) (selecting : Selecting shared token stage)
    {pc : Pc τ ρ η}
    (taken : advanceStage thread choice shared (.select token cause) stage = (shared', pc)) :
    (∃ stage', pc = .run (.select token cause) stage' ∧ Selecting shared' token stage') ∨
      (∃ last, pc = .rest last) ∧ shared'.Passed token.generation := by
  have own := advanceStage_own inv choice mine
  rw [taken] at own
  obtain ⟨change, mine'⟩ := own
  have fact := mine'.fact
  cases stage with
  | load =>
      cases taken
      rcases settle_select inv cause issued with ⟨stage', equal, selecting'⟩ |
        ⟨⟨outcome, equal⟩, passed⟩
      · exact .inl ⟨stage', equal, selecting'⟩
      · exact .inr ⟨⟨_, equal⟩, passed⟩
  | exchange =>
      obtain ⟨active, same, cause', carrier, outcome, rfl, rfl⟩ := selecting
      rw [advanceStage] at taken
      split at taken
      · cases taken
        refine .inl ⟨_, rfl, .inl (Option.some_ne_none _), ?_⟩
        exact Shared.passed_of_phase ⟨by rintro ⟨⟩, by rintro ⟨⟩⟩ (Nat.le_of_eq same.symm)
      split at taken
      · cases taken
        rcases settle_select inv cause issued with ⟨stage', equal, selecting'⟩ |
          ⟨⟨outcome, equal⟩, passed⟩
        · exact .inl ⟨stage', equal, selecting'⟩
        · exact .inr ⟨⟨_, equal⟩, passed⟩
      · cases taken
        exact .inl ⟨.load, rfl, trivial⟩
  | _ =>
      have passed' := change.passed selecting.2
      cases pc with
      | rest last => exact .inr ⟨⟨last, rfl⟩, passed'⟩
      | panicked => exact fact.elim
      | run op stage' =>
          obtain ⟨rfl, owes⟩ := advanceStage_owing selecting.1 (congrArg Prod.snd taken)
          exact .inl ⟨stage', rfl, Selecting.of_owes owes passed'⟩

end Selecting

/-! ## The largest generation -/

/-- A generation that a decision or a stage would start. -/
def Attempt.starts (word : WaitWord) : Attempt τ ρ η → Prop
  | .lookup _ => word.generation + 1 ≤ maxGeneration
  | .exchange _ (.activate _) | .exchange _ (.bind _) => False
  | _ => True

def Stage.Bounded : Stage τ ρ η → Prop
  | .cachedTask _ word | .cachedRoute _ word | .cachedPrimary _ word | .cachedFallback _ word =>
      word.generation + 1 ≤ maxGeneration
  | .exchange _ next (.activate _) | .exchange _ next (.bind _) =>
      next.generation ≤ maxGeneration
  | _ => True

def Pc.Bounded : Pc τ ρ η → Prop
  | .run _ stage => stage.Bounded
  | _ => True

section Bounded

variable {shared : Shared ι τ ρ η}

theorem attempt_starts (op : Op τ ρ η) (expired : Bool) (word : WaitWord) :
    (op.attempt expired word).starts word := by
  cases op with
  | begin target =>
      rw [Op.attempt, beginResident]
      split
      · trivial
      split
      · trivial
      split
      · trivial
      split
      · trivial
      split
      · trivial
      · rename_i next room
        rw [nextGeneration] at room
        split at room
        · assumption
        · cases room
  | offer =>
      rw [Op.attempt, claimResource]
      split
      · trivial
      split
      · trivial
      split <;> trivial
  | take =>
      rw [Op.attempt, tryTakeResource]
      split
      · trivial
      split <;> trivial
  | finish | finishPlainReady | finishPermitReady =>
      rw [Op.attempt, finishSlow]; (repeat' split) <;> trivial
  | notify => rw [Op.attempt, notify]; (repeat' split) <;> trivial
  | cancel => rw [Op.attempt, selectCurrent]; (repeat' split) <;> trivial
  | close => rw [Op.attempt, close]; (repeat' split) <;> trivial
  | select => rw [Op.attempt, selectGeneration]; (repeat' split) <;> trivial
  | publication token => rw [Op.attempt, publication]; (repeat' split) <;> trivial
  | retire token => rw [Op.attempt, retireWait]; (repeat' split) <;> trivial
  | tryRetire token => rw [Op.attempt, tryRetire]; (repeat' split) <;> trivial
  | recycle => rw [Op.attempt, recycle]; (repeat' split) <;> trivial
  | resetClosedGate => rw [Op.attempt, resetClosedGate]; (repeat' split) <;> trivial

theorem WaitWord.publishClaim_generation {word next : WaitWord}
    (published : word.publishClaim = .ok next) : next.generation = word.generation := by
  rw [WaitWord.publishClaim] at published
  split at published
  · cases published
    rfl
  · cases published

theorem settle_bounded {op : Op τ ρ η} {word : WaitWord} {attempt : Attempt τ ρ η}
    (starts : attempt.starts word) : (settle op word attempt).Bounded := by
  cases attempt with
  | exchange next won => cases won <;> trivial
  | lookup target => exact starts
  | _ => trivial

theorem activation_bounded (op : Op τ ρ η) (target : Target τ ρ η) {word : WaitWord}
    (room : word.generation + 1 ≤ maxGeneration) (cached : Option Bool) :
    (activation op target word cached).Bounded := by
  cases cached <;> exact room

variable [DecidableEq ι] [DecidableEq τ] [DecidableEq ρ] [DecidableEq η]

theorem advanceStage_bounded (thread : ι) (choice : Choice τ ρ η) (op : Op τ ρ η)
    {stage : Stage τ ρ η} (bounded : stage.Bounded) :
    (advanceStage thread choice shared op stage).2.Bounded := by
  have decided : (settle op shared.cell.state
      (op.attempt choice.expired shared.cell.state)).Bounded :=
    settle_bounded (attempt_starts op choice.expired shared.cell.state)
  cases stage with
  | load => exact decided
  | exchange _ _ won =>
      rw [advanceStage]
      split
      · cases won <;> trivial
      split
      · exact decided
      · trivial
  | cachedTask target word =>
      rw [advanceStage]
      split
      · exact bounded
      · dsimp only
        exact activation_bounded op target bounded _
  | cachedRoute target word =>
      rw [advanceStage]
      split
      · exact bounded
      · dsimp only
        exact activation_bounded op target bounded _
  | cachedPrimary target word =>
      rw [advanceStage]
      split
      · dsimp only
        exact activation_bounded op target bounded _
      split
      · dsimp only
        exact activation_bounded op target bounded _
      · exact bounded
  | cachedFallback target word =>
      rw [advanceStage]
      split
      · dsimp only
        exact activation_bounded op target bounded _
      · dsimp only
        exact activation_bounded op target bounded _
  | readHub use =>
      rw [advanceStage]
      split
      · trivial
      cases use with
      | enqueue =>
          dsimp only
          split <;> trivial
      | _ => trivial
  | _ =>
      rw [advanceStage]
      (repeat' split) <;> trivial

/-- A step of a bounded call keeps the generation in bounds. -/
theorem stage_bounded {thread : ι} {shared' : Shared ι τ ρ η} {choice : Choice τ ρ η}
    {op : Op τ ρ η} {stage : Stage τ ρ η} (mine : Local thread shared (.run op stage))
    (bounded : stage.Bounded) (room : shared.cell.state.generation ≤ maxGeneration)
    (taken : shared' = (advanceStage thread choice shared op stage).1) :
    shared'.cell.state.generation ≤ maxGeneration := by
  obtain ⟨-, fact⟩ := mine.fact
  subst taken
  cases stage with
  | exchange _ _ won =>
      rw [advanceStage]
      split
      · rename_i equal
        subst equal
        cases won with
        | adjust =>
            obtain ⟨-, -, -, generation, -⟩ := fact
            exact generation ▸ room
        | activate target => exact bounded
        | bind target => exact bounded
        | claim =>
            obtain ⟨-, -, generation, -⟩ := fact
            exact generation ▸ room
        | interest =>
            obtain ⟨-, -, -, next_eq, -⟩ := fact
            rw [next_eq]
            exact room
        | finish cause =>
            obtain ⟨-, -, generation, -⟩ := fact
            exact generation ▸ room
        | retire hub =>
            rw [fact.2]
            exact room
      split <;> exact room
  | bindStore _ word =>
      obtain ⟨binder, -⟩ := fact
      show word.generation ≤ _
      rw [← binder.state]
      exact room
  | publish =>
      rw [advanceStage]
      split
      · exact room
      rename_i next published
      split
      · rename_i equal
        show next.generation ≤ _
        rw [WaitWord.publishClaim_generation published, ← equal]
        exact room
      split
      · exact room
      split <;> exact room
  | republish =>
      rw [advanceStage]
      split
      · exact room
      rename_i next published
      split
      · rename_i equal
        show next.generation ≤ _
        rw [WaitWord.publishClaim_generation published, ← equal]
        exact room
      · exact room
  | readTask use word => cases use <;> exact room
  | readRoute use => cases use <;> exact room
  | readHub use =>
      rw [advanceStage]
      split
      · cases use <;> exact room
      cases use with
      | enqueue =>
          dsimp only
          split <;> exact room
      | _ => exact room
  | _ =>
      rw [advanceStage]
      (repeat' split) <;> exact room

/-- No generation exceeds the largest one. -/
theorem reachable_bounded {state : Threads ι (Shared ι τ ρ η) (Pc τ ρ η)}
    (reachable : (cellSystem ι τ ρ η).Reachable state) :
    state.shared.cell.state.generation ≤ maxGeneration := by
  have both : state.shared.cell.state.generation ≤ maxGeneration ∧
      ∀ thread, (state.locals thread).Bounded := by
    induction reachable with
    | initial initial =>
        obtain ⟨⟨id, shared_eq⟩, started⟩ := initial
        rw [shared_eq]
        refine ⟨Nat.zero_le _, fun thread => ?_⟩
        rw [started]
        trivial
    | @step state next reachable step ih =>
        obtain ⟨room, bounded⟩ := ih
        obtain ⟨-, locals⟩ := reachable_inv reachable
        cases step with
        | @mk thread _ shared' pc advance =>
            have own : shared'.cell.state.generation ≤ maxGeneration ∧ pc.Bounded := by
              have mine := locals thread
              have bound := bounded thread
              obtain ⟨choice, moved⟩ := advance
              cases at_pc : state.locals thread with
              | rest last =>
                  rw [at_pc] at moved
                  obtain ⟨-, rfl, rfl⟩ := moved
                  refine ⟨room, ?_⟩
                  rw [Op.call]
                  split
                  · cases choice.op <;> trivial
                  · trivial
              | run op stage =>
                  rw [at_pc] at moved mine bound
                  have shared_eq := congrArg Prod.fst moved
                  have pc_eq : pc = _ := congrArg Prod.snd moved
                  rw [pc_eq]
                  exact ⟨stage_bounded mine bound room shared_eq,
                    advanceStage_bounded thread choice op bound⟩
              | panicked =>
                  rw [at_pc] at moved
                  exact moved.elim
            refine ⟨own.1, fun other => ?_⟩
            by_cases equal : other = thread
            · simpa [equal] using own.2
            · simpa [equal] using bounded other
  exact both.1

end Bounded

end VThread.Wait

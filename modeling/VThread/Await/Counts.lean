import VThread.Await.Steps

/-!
# Counts in a run

Every admitted task is accounted for, and the number of threads that wait for a target is the
one that carriers read.
-/

namespace VThread.Await

open VThread.Lib

variable {ι : Type} [DecidableEq ι]

abbrev awaitSystem (ι : Type) [DecidableEq ι] : System (Threads (Party ι) (Shared ι) (Pc ι)) :=
  (program ι).system

/-- A step of one of the parties. -/
inductive Moves (shared : Shared ι) : Party ι → Pc ι → Shared ι → Pc ι → Prop where
  | waiter {id : ι} {shared' : Shared ι} {pc pc' : Pc ι} : Waits id shared pc shared' pc' →
      Moves shared (.waiter id) pc shared' pc'
  | carrier {id : ι} {shared' : Shared ι} {pc pc' : Pc ι} : Completes shared pc shared' pc' →
      Moves shared (.carrier id) pc shared' pc'
  | client {id : ι} {shared' : Shared ι} {pc pc' : Pc ι} : Submits shared pc shared' pc' →
      Moves shared (.client id) pc shared' pc'

theorem advance_moves {party : Party ι} {shared shared' : Shared ι} {pc pc' : Pc ι}
    (advance : (program ι).advance party shared pc shared' pc') :
    Moves shared party pc shared' pc' := by
  obtain ⟨choice, taken⟩ := advance
  cases party with
  | waiter id => exact .waiter (waitStep_waits taken)
  | carrier id => exact .carrier (completeStep_completes taken)
  | client id => exact .client (clientStep_submits taken)

/-! ## Counts in a run -/

/-- Every admitted task is retired, live or with one party, and the counted threads are those
that wait for a target. -/
structure Counted (state : Threads (Party ι) (Shared ι) (Pc ι)) : Prop where
  tasks : ∀ scope, state.shared.admitted scope = state.shared.retired scope +
    liveCount scope state.shared.live + total (Pc.holds scope) state.locals
  /-- What a thread has read is not more than what is retired. -/
  read : ∀ id wait observed retired,
    state.locals (.waiter id) = .loadAdmitted wait observed retired →
    retired ≤ state.shared.retired wait.scope
  targets : state.shared.targetWaiters = total Pc.listens state.locals

omit [DecidableEq ι] in
theorem Counted.retired_le {state : Threads (Party ι) (Shared ι) (Pc ι)} (counted : Counted state)
    (scope : ScopeId) : state.shared.retired scope ≤ state.shared.admitted scope := by
  have tasks := counted.tasks scope
  omega

/-- A thread counts itself when it starts to wait and when it returns. -/
theorem Waits.listens {id : ι} {shared shared' : Shared ι} {pc pc' : Pc ι}
    (taken : Waits id shared pc shared' pc') (enough : pc.listens ≤ shared.targetWaiters)
    (survives : pc' ≠ .panicked) :
    shared'.targetWaiters + pc.listens = shared.targetWaiters + pc'.listens := by
  have checks (wait : Wait) (observed active : Nat) (done : Bool) :
      (wait.checked observed active done : Pc ι).listens = wait.listens := by
    rw [Wait.checked]
    split <;> rfl
  cases taken with
  | drained wait | loadDone wait =>
      rw [checks]
      rfl
  | unregister => exact Nat.sub_add_cancel enough
  | panic => exact absurd rfl survives
  | _ => rfl

theorem Waits.survives {id : ι} {shared shared' : Shared ι} {pc pc' : Pc ι}
    (taken : Waits id shared pc shared' pc') (fits : ∀ wait observed retired,
      pc = .loadAdmitted wait observed retired → retired ≤ shared.admitted wait.scope) :
    pc' ≠ .panicked := by
  cases taken with
  | panic wait observed retired exceeds =>
      exact absurd exceeds (Nat.not_lt_of_le (fits wait observed retired rfl))
  | drained | loadDone =>
      rw [Wait.checked]
      split <;> rintro ⟨⟩
  | _ => rintro ⟨⟩

theorem Waits.reads {id : ι} {shared shared' : Shared ι} {pc : Pc ι} {wait : Wait}
    {observed retired : Nat}
    (taken : Waits id shared pc shared' (.loadAdmitted wait observed retired)) :
    retired = shared.retired wait.scope := by
  generalize same : Pc.loadAdmitted wait observed retired = pc' at taken
  cases taken with
  | loadRetired =>
      cases same
      rfl
  | drained | loadDone =>
      rw [Wait.checked] at same
      split at same <;> cases same
  | _ => cases same

/-- What is retired stays retired. -/
theorem Completes.retires {shared shared' : Shared ι} {pc pc' : Pc ι}
    (taken : Completes shared pc shared' pc') (scope : ScopeId) :
    shared.retired scope ≤ shared'.retired scope := by
  cases taken with
  | retire kept batch =>
      by_cases own : scope = batch.scope
      · subst own
        simp
      · simp [Function.update_of_ne own]
  | notify taken => rw [taken.frame.2.1]
  | _ => exact Nat.le_refl _

theorem Counted.move {state : Threads (Party ι) (Shared ι) (Pc ι)} {party : Party ι}
    {shared : Shared ι} {pc : Pc ι}
    (started : {party | state.locals party ≠ .idle none}.Finite) (counted : Counted state)
    (moves : Moves state.shared party (state.locals party) shared pc) :
    Counted ⟨shared, fun other => if other = party then pc else state.locals other⟩ := by
  have held (scope : ScopeId) := total_move (Pc.holds scope) rfl started party pc
  have heard := total_move Pc.listens rfl started party pc
  have targets := counted.targets
  cases party with
  | waiter id =>
      cases moves with
      | waiter taken =>
          obtain ⟨admitted, retired, live, -, -, holds⟩ := taken.frame
          have survives := taken.survives fun wait observed read stage =>
            (counted.read id wait observed read stage).trans (counted.retired_le wait.scope)
          have enough := targets ▸ le_total Pc.listens rfl started (.waiter id)
          have listens := taken.listens enough survives
          refine ⟨fun scope => ?_, fun other wait observed read stage => ?_, ?_⟩
          · have tasks := counted.tasks scope
            have same := held scope
            obtain ⟨before, after⟩ := holds scope
            rw [before, after] at same
            dsimp only
            rw [admitted, retired, live]
            omega
          · dsimp only at stage ⊢
            rw [retired]
            by_cases own : other = id
            · subst own
              rw [if_pos rfl] at stage
              subst stage
              exact Nat.le_of_eq taken.reads
            · rw [if_neg (by simpa using own)] at stage
              exact counted.read other wait observed read stage
          · dsimp only
            omega
  | carrier id =>
      cases moves with
      | carrier taken =>
          obtain ⟨admitted, same, before, after, exchange⟩ := taken.exchange
          refine ⟨fun scope => ?_, fun other wait observed read stage => ?_, ?_⟩
          · have tasks := counted.tasks scope
            have moved := held scope
            have balance := exchange scope
            dsimp only
            rw [admitted]
            omega
          · exact (counted.read other wait observed read stage).trans (taken.retires wait.scope)
          · dsimp only
            omega
  | client id =>
      cases moves with
      | client taken =>
          have enough (scope : ScopeId) :
              (state.locals (.client id)).holds scope ≤ state.shared.admitted scope := by
            have tasks := counted.tasks scope
            have part := le_total (Pc.holds scope) rfl started (.client id)
            omega
          obtain ⟨retired, same, before, after⟩ := taken.frame
          refine ⟨fun scope => ?_, fun other wait observed read stage => ?_, ?_⟩
          · have tasks := counted.tasks scope
            have moved := held scope
            have balance := taken.exchange scope (enough scope)
            dsimp only
            rw [retired]
            omega
          · dsimp only
            rw [retired]
            exact counted.read other wait observed read stage
          · dsimp only
            omega

theorem reachable_counted {state : Threads (Party ι) (Shared ι) (Pc ι)}
    (reachable : (awaitSystem ι).Reachable state) : Counted state := by
  induction reachable with
  | @initial state isInitial =>
      obtain ⟨isNew, started⟩ := isInitial
      have nothing (scope : ScopeId) : total (Pc.holds scope) state.locals = 0 :=
        total_eq_zero fun party => by
          rw [started party]
          rfl
      refine ⟨fun scope => ?_, fun id wait observed read stage => ?_, ?_⟩
      · rw [nothing scope, isNew]
        rfl
      · rw [started] at stage
        cases stage
      · rw [isNew]
        refine (total_eq_zero fun party => ?_).symm
        rw [started party]
        rfl
  | step previous taken ih =>
      cases taken with
      | mk party moved => exact ih.move (Program.started previous) (advance_moves moved)

end VThread.Await

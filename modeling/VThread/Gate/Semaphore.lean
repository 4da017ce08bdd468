import VThread.Gate.Balance

/-!
# Semaphores

A semaphore is a gate that starts with all its permits and stores no more.  `acquire` is `take`
and `try_acquire` is `try_take`; a live guard is dropped by `signal`.
-/

namespace VThread.Gate

open VThread.Lib VThread.Wait

variable {ι : Type} [DecidableEq ι] {permits : Nat} {state : Threads ι (Shared ι) (Pc ι)}

/-- The guards that successful calls have made and no call has dropped. -/
def Shared.guards (shared : Shared ι) (permits : Nat) : Nat :=
  shared.successes + permits - shared.issued

/-- What the users of a semaphore can call: who drops a guard has one. -/
def Allowed (permits : Nat) (shared : Shared ι) : Call ι → Prop
  | .signal => 0 < shared.guards permits
  | .broadcast => False
  | _ => True

instance (permits : Nat) (shared : Shared ι) : DecidablePred (Allowed permits shared)
  | .signal => inferInstanceAs (Decidable (0 < shared.guards permits))
  | .broadcast => .isFalse id
  | .tryTake | .take | .close | .elsewhere _ | .select _ _ | .query _ => .isTrue trivial

/-- Any number of threads over one semaphore with a positive waiter limit. -/
def semaphore (permits : Nat) : Program ι (Shared ι) (Pc ι) where
  initial := (program permits permits).initial
  start := .rest (.ok ())
  advance thread shared pc shared' pc' :=
    ∃ choice, (pc.rests = true → Allowed permits shared choice.call) ∧
      step thread choice shared pc = some (shared', pc')

theorem semaphore_reachable (reachable : (semaphore permits).system.Reachable state) :
    (program permits permits).system.Reachable state := by
  induction reachable with
  | initial isInitial => exact .initial isInitial
  | step _ taken ih =>
      cases taken with
      | mk thread moved =>
          obtain ⟨choice, -, moved⟩ := moved
          exact .step ih (.mk thread ⟨choice, moved⟩)

/-- Every guard dropped was one that a call had made, and no permit is lost in the store. -/
structure Guarded (permits : Nat) (shared : Shared ι) : Prop where
  issued : shared.issued ≤ permits + shared.successes
  coalesced : shared.permits.count .coalesced = 0

/-- An open semaphore has all its permits: live, stored, selected or on their way back. -/
theorem Balance.conserved (balance : Balance state) (guarded : Guarded permits state.shared)
    (isOpen : state.shared.closed = false) :
    state.shared.guards permits + state.shared.available + state.shared.recipients.length +
      state.shared.carriers.length = permits := by
  have issued := balance.issued
  have bounded := guarded.issued
  rw [balance.kept isOpen, guarded.coalesced] at issued
  rw [Shared.guards]
  omega

/-- A step makes and drops guards only as its call says. -/
theorem Flow.issues {thread : ι} {call : Call ι} {shared shared' : Shared ι} {pc pc' : Pc ι}
    (flow : Flow thread call shared shared' pc pc') :
    shared'.issued = shared.issued ∧ shared.successes ≤ shared'.successes ∨
      pc.rests = true ∧ call = .signal ∧ shared'.issued = shared.issued + 1 ∧
        shared'.successes = shared.successes := by
  cases flow with
  | start starts =>
      cases starts with
      | signal same =>
          right
          rw [same]
          exact ⟨rfl, rfl, rfl, rfl⟩
      | broadcast broadcasts =>
          exact .inl ⟨broadcasts.still.issued, Nat.le_of_eq broadcasts.still.successes.symm⟩
      | close closes =>
          obtain ⟨-, successes, issued, -⟩ := Call.start_closed closes
          exact .inl ⟨issued, Nat.le_of_eq successes.symm⟩
      | other _ _ _ still => exact .inl ⟨still.issued, Nat.le_of_eq still.successes.symm⟩
  | take _ same =>
      left
      rw [same]
      exact ⟨rfl, Nat.le_succ _⟩
  | retry same =>
      left
      rw [same]
      exact ⟨rfl, Nat.le_refl _⟩
  | subscribe subscribes =>
      left
      cases subscribes with
      | closed _ still => exact ⟨still.issued, Nat.le_of_eq still.successes.symm⟩
      | granted _ _ _ _ successes issued => exact ⟨issued, Nat.le_of_eq successes.symm⟩
      | queued _ _ still => exact ⟨still.issued, Nat.le_of_eq still.successes.symm⟩
  | complete selection same =>
      left
      cases selection with
      | permit =>
          rw [same]
          exact ⟨rfl, Nat.le_succ _⟩
      | broadcast =>
          rw [same]
          exact ⟨rfl, Nat.le_refl _⟩
  | pass _ same =>
      left
      rw [same]
      exact ⟨rfl, Nat.le_refl _⟩
  | release _ _ same =>
      left
      rw [same]
      exact ⟨rfl, Nat.le_refl _⟩
  | signal signals => cases signals <;> exact .inl ⟨rfl, Nat.le_refl _⟩
  | still _ still => exact .inl ⟨still.issued, Nat.le_of_eq still.successes.symm⟩

/-- Who carries a permit keeps the store from being full. -/
theorem semaphore_guarded (reachable : (semaphore permits).system.Reachable state) :
    Guarded permits state.shared := by
  induction reachable with
  | initial isInitial =>
      obtain ⟨⟨capacity, -, isNew⟩, -⟩ := isInitial
      rw [isNew]
      exact ⟨Nat.le_refl _, by simp [Shared.new, List.count_replicate]⟩
  | @step state state' before taken guarded =>
      cases taken with
      | mk thread moved =>
          obtain ⟨choice, allowed, moved⟩ := moved
          have isGate := semaphore_reachable before
          have flow := reachable_flow isGate moved
          refine ⟨?_, ?_⟩
          · have bounded := guarded.issued
            rcases flow.issues with ⟨issued, successes⟩ | ⟨rests, call, issued, successes⟩
            · simp only [issued]
              omega
            · have live := allowed rests
              rw [call] at live
              change 0 < state.shared.successes + permits - state.shared.issued at live
              simp only [issued, successes]
              omega
          · by_contra merged
            obtain ⟨carries, isOpen, -, full⟩ := flow.coalesces (by rwa [guarded.coalesced])
            have balance := reachable_balance isGate
            have all := balance.conserved guarded isOpen
            rw [reachable_maximum isGate] at full
            have carrier : thread ∈ state.shared.carriers := (balance.carriers.2 thread).mpr carries
            have positive := List.length_pos_of_mem carrier
            omega

/-- The law of a semaphore in one state. -/
structure SemaphoreLaw (permits : Nat) (state : Threads ι (Shared ι) (Pc ι)) : Prop where
  balance : Balance state
  /-- Until close, every permit is live, stored, selected for a ticket, or on its way back. -/
  conserved : state.shared.closed = false →
    state.shared.guards permits + state.shared.available + state.shared.recipients.length +
      state.shared.carriers.length = permits
  unmerged : state.shared.permits.count .coalesced = 0
  dropped : state.shared.issued ≤ permits + state.shared.successes

/-- The law of one step of a thread. -/
structure SemaphoreStep (thread : ι) (choice : Choice ι) (shared : Shared ι) (pc : Pc ι)
    (shared' : Shared ι) (pc' : Pc ι) : Prop where
  flow : Flow thread choice.call shared shared' pc pc'
  /-- No call takes a stored permit while a ticket is queued. -/
  overtakes : ∀ waits available, pc = .tryTake waits (.exchange available) →
    pc' = .rest (.ok ()) → shared.entries = []
  /-- No permit that comes back is merged with the stored ones. -/
  stores : shared'.permits.count .coalesced = shared.permits.count .coalesced

theorem permits_conserved {ι : Type} [DecidableEq ι] (permits : Nat) :
    (∀ state : Threads ι (Shared ι) (Pc ι), (semaphore permits).system.Reachable state →
      SemaphoreLaw permits state) ∧
    ∀ (state : Threads ι (Shared ι) (Pc ι)) (thread : ι) (choice : Choice ι) shared' pc',
      (semaphore permits).system.Reachable state →
        ((state.locals thread).rests = true → Allowed permits state.shared choice.call) →
        step thread choice state.shared (state.locals thread) = some (shared', pc') →
          SemaphoreStep thread choice state.shared (state.locals thread) shared' pc' := by
  constructor
  · intro state reachable
    have balance := reachable_balance (semaphore_reachable reachable)
    have guarded := semaphore_guarded reachable
    exact ⟨balance, balance.conserved guarded, guarded.coalesced, guarded.issued⟩
  · intro state thread choice shared' pc' reachable allowed taken
    have isGate := semaphore_reachable reachable
    have flow := reachable_flow isGate taken
    have balance := reachable_balance isGate
    refine ⟨flow, ?_, ?_⟩
    · rintro waits available exchanges rfl
      rw [exchanges] at flow
      generalize resting : (Pc.rest (.ok ()) : Pc ι) = pc' at flow
      cases flow with
      | take some _ =>
          by_contra waiting
          exact some (balance.idle waiting)
      | retry same =>
          rw [Pc.observed] at resting
          split at resting <;> cases resting
      | still moves => cases moves
    · have next : (semaphore permits).system.Reachable
          ⟨shared', fun other => if other = thread then pc' else state.locals other⟩ :=
        .step reachable (.mk thread ⟨choice, allowed, taken⟩)
      exact (semaphore_guarded next).coalesced.trans (semaphore_guarded reachable).coalesced.symm

/-- The steps of a semaphore as a scheduler. -/
def semaphoreScheduler (ι : Type) [DecidableEq ι] (permits : Nat) :
    (semaphore permits : Program ι (Shared ι) (Pc ι)).Scheduler (Choice ι) where
  next thread choice shared pc :=
    if pc.rests = true → Allowed permits shared choice.call then step thread choice shared pc
    else none
  sound thread choice shared pc result taken := by
    split at taken
    · rename_i allowed
      exact ⟨choice, allowed, taken⟩
    · cases taken

/-- Thread 2 waits for the permit of thread 1, which drops it.  Thread 2 is cancelled before it has
taken the permit, and passes it on to thread 3. -/
def handedSchedule : List (Nat × Choice Nat) :=
  steps 1 .take 4 ++ steps 2 .take 8 ++ steps 3 .take 8 ++ steps 4 .tryTake 3 ++
    steps 1 .signal 2 ++ steps 2 .take 1 ++ [(2, calls .take (some .cancelled))] ++
      steps 2 .take 4 ++ steps 3 .take 4

theorem permits_conserved_handed :
    ∃ state, (semaphoreScheduler Nat 1).run handedSchedule (unused 1 1 2) = some state ∧
      state.shared.guards 1 = 0 ∧ state.shared.recipients = [3] ∧ SemaphoreLaw 1 state ∧
      ∃ shared' pc', step 3 (calls .take none) state.shared (state.locals 3) =
          some (shared', pc') ∧ shared'.guards 1 = 1 ∧
        SemaphoreStep 3 (calls .take none) state.shared (state.locals 3) shared' pc' := by
  have runs : ((semaphoreScheduler Nat 1).run handedSchedule (unused 1 1 2)).map (fun state =>
      (state.shared.guards 1, state.shared.recipients, (state.locals 3).rests,
        (step 3 (calls .take none) state.shared (state.locals 3)).map fun result =>
          result.1.guards 1)) = some (0, [3], false, some 1) := by decide
  obtain ⟨state, runs, view⟩ := Option.map_eq_some_iff.mp runs
  simp only [Prod.mk.injEq] at view
  obtain ⟨guards, recipients, running, next⟩ := view
  obtain ⟨⟨shared', pc'⟩, taken, live⟩ := Option.map_eq_some_iff.mp next
  have reachable := (semaphoreScheduler Nat 1).run_reachable
    (.initial ⟨⟨2, Nat.two_pos, rfl⟩, fun _ => rfl⟩) runs
  refine ⟨state, runs, guards, recipients, (permits_conserved 1).1 state reachable, shared', pc',
    taken, live, (permits_conserved 1).2 state 3 _ shared' pc' reachable (fun rests => ?_) taken⟩
  rw [running] at rests
  cases rests

end VThread.Gate

import VThread.Gate.Balance

/-!
# Notifications

A `Notify` is a gate that starts without a permit and stores at most one.  `notify_one` is
`signal`, and `notify_waiters` is `broadcast`.
-/

namespace VThread.Gate

open VThread.Lib VThread.Wait

variable {ι : Type} [DecidableEq ι] {state : Threads ι (Shared ι) (Pc ι)}

/-- Any number of threads over one notification source. -/
def notify : Program ι (Shared ι) (Pc ι) := program 0 1

/-- The law of an open source in one state. -/
structure NotifyLaw (state : Threads ι (Shared ι) (Pc ι)) : Prop where
  balance : Balance state
  stored : state.shared.available ≤ 1
  /-- The calls of `notify_one` that no successful call has consumed are merged with a stored
  notification, stored, selected or still on their way. -/
  conserved : state.shared.issued = state.shared.successes +
    (state.shared.permits.count .coalesced + state.shared.available +
      state.shared.recipients.length + state.shared.carriers.length)

/-- The law of one step of a thread. -/
structure NotifyStep (thread : ι) (choice : Choice ι) (shared : Shared ι) (pc : Pc ι)
    (shared' : Shared ι) (pc' : Pc ι) : Prop where
  flow : Flow thread choice.call shared shared' pc pc'
  /-- A notification is merged only with a stored one, while no ticket is queued. -/
  coalesces : shared'.permits.count .coalesced ≠ shared.permits.count .coalesced →
    pc.carries = true ∧ shared.entries = [] ∧ shared.available = 1
  /-- A call of `notified` or `try_notified` that succeeds consumes one notification, unless a
  broadcast has served it. -/
  succeeds : pc.taking = true → pc' = .rest (.ok ()) →
    shared'.successes = shared.successes + 1 ∨ pc = .complete .broadcast

theorem notify_law (reachable : (notify : Program ι _ _).system.Reachable state)
    (isOpen : state.shared.closed = false) : NotifyLaw state := by
  have balance := reachable_balance reachable
  refine ⟨balance, reachable_stored (Nat.zero_le 1) reachable, ?_⟩
  have issued := balance.issued
  rw [balance.kept isOpen] at issued
  omega

theorem Flow.succeeds {thread : ι} {choice : Choice ι} {shared shared' : Shared ι} {pc : Pc ι}
    (flow : Flow thread choice.call shared shared' pc (.rest (.ok ())))
    (taken : step thread choice shared pc = some (shared', .rest (.ok ())))
    (taking : pc.taking = true) :
    shared'.successes = shared.successes + 1 ∨ pc = .complete .broadcast := by
  rcases taking_succeeds taking taken with ⟨waits, available, rfl⟩ | ⟨selection, rfl⟩
  · generalize resting : (Pc.rest (.ok ()) : Pc ι) = pc' at flow
    cases flow with
    | take _ same =>
        rw [same]
        exact .inl rfl
    | retry same =>
        rw [Pc.observed] at resting
        split at resting <;> cases resting
    | still moves => cases moves
  · cases flow with
    | complete _ same =>
        cases selection with
        | permit =>
            rw [same]
            exact .inl rfl
        | broadcast => exact .inr rfl
    | still moves => cases moves

theorem notify_step {thread : ι} {choice : Choice ι} {shared' : Shared ι} {pc' : Pc ι}
    (reachable : (notify : Program ι _ _).system.Reachable state)
    (taken : step thread choice state.shared (state.locals thread) = some (shared', pc')) :
    NotifyStep thread choice state.shared (state.locals thread) shared' pc' := by
  have flow := reachable_flow reachable taken
  refine ⟨flow, fun merged => ?_, ?_⟩
  · obtain ⟨carries, -, empty, full⟩ := flow.coalesces merged
    rw [reachable_maximum reachable] at full
    exact ⟨carries, empty, Nat.le_antisymm (reachable_stored (Nat.zero_le 1) reachable) full⟩
  · rintro taking rfl
    exact flow.succeeds taken taking

/-- No notification of an open source is lost. -/
theorem notifications_conserved {ι : Type} [DecidableEq ι] :
    (∀ state : Threads ι (Shared ι) (Pc ι), notify.system.Reachable state →
      state.shared.closed = false → NotifyLaw state) ∧
    ∀ (state : Threads ι (Shared ι) (Pc ι)) (thread : ι) (choice : Choice ι) shared' pc',
      notify.system.Reachable state → state.shared.closed = false →
        step thread choice state.shared (state.locals thread) = some (shared', pc') →
          NotifyStep thread choice state.shared (state.locals thread) shared' pc' :=
  ⟨fun _ => notify_law, fun _ _ _ _ _ reachable _ => notify_step reachable⟩

/-- Two threads wait.  The first one is notified and cancelled at once, so that it passes its
notification on to the second one; of two further notifications one is stored. -/
def passedSchedule : List (Nat × Choice Nat) :=
  steps 1 .take 8 ++ steps 2 .take 8 ++ steps 0 .signal 2 ++ steps 1 .take 1 ++
    [(1, calls .take (some .cancelled))] ++ steps 1 .take 4 ++ steps 2 .take 5 ++
      steps 0 .signal 4

theorem notifications_conserved_passed :
    ∃ state, (scheduler Nat 0 1).run passedSchedule (unused 0 1 2) = some state ∧
      state.shared.issued = 3 ∧ state.shared.successes = 1 ∧ state.shared.available = 1 ∧
      state.shared.permits.count .coalesced = 1 ∧ state.shared.outstanding = 0 ∧
      NotifyLaw state ∧
      (∀ choice shared' pc', step 0 choice state.shared (state.locals 0) = some (shared', pc') →
        NotifyStep 0 choice state.shared (state.locals 0) shared' pc') := by
  have runs : ((scheduler Nat 0 1).run passedSchedule (unused 0 1 2)).map (fun state =>
      (state.shared.closed, state.shared.issued, state.shared.successes, state.shared.available,
        state.shared.permits.count .coalesced, state.shared.outstanding)) =
      some (false, 3, 1, 1, 1, 0) := by decide
  obtain ⟨state, runs, view⟩ := Option.map_eq_some_iff.mp runs
  simp only [Prod.mk.injEq] at view
  obtain ⟨isOpen, issued, successes, available, coalesced, outstanding⟩ := view
  have reachable := (scheduler Nat 0 1).run_reachable (unused_reachable 0 1 Nat.two_pos) runs
  exact ⟨state, runs, issued, successes, available, coalesced, outstanding,
    notifications_conserved.1 state reachable isOpen,
    fun choice shared' pc' => notifications_conserved.2 state 0 choice shared' pc' reachable isOpen⟩

end VThread.Gate

import VThread.Readiness.Registrations

/-!
# What becomes of a registration

An entry is removed once and selected at most once, by the removal that took it.  When the driver
has exited, all entries are settled but those that a close has yet to select.
-/

namespace VThread.Readiness

open VThread.Lib

variable {ι : Type} [DecidableEq ι]

/-! ## Closes -/

/-- The next steps of a caller that closes select all that it took. -/
theorem closed_finishes {state : State ι} {caller : ι} {taken : List (Nat × Entry)}
    {lease : Option Nat} (closed : state.calls caller = .closed taken lease) :
    ∃ state', Relation.ReflTransGen
        (fun before after => Step before (.advance caller) after) state state' ∧
      (∀ selection ∈ state.selections, selection ∈ state'.selections) ∧
        ∀ item ∈ taken, item.2.select item.1 .closed ∈ state'.selections := by
  induction taken generalizing state with
  | nil => exact ⟨state, .refl, fun _ => id, fun _ member => absurd member List.not_mem_nil⟩
  | cons first rest ih =>
      let next := (state.selected (first.2.select first.1 .closed)).moved caller
        (.closed rest lease)
      have selects : Step state (.advance caller) next := by
        refine .advance ?_
        rw [State.advance, closed]
      have goes : next.calls caller = .closed rest lease := Function.update_self ..
      obtain ⟨state', steps, keeps, selected⟩ := ih goes
      refine ⟨state', .head selects steps, ?_, ?_⟩
      · exact fun selection member => keeps selection (List.mem_cons_of_mem _ member)
      · intro item member
        rcases List.mem_cons.mp member with rfl | member
        · exact keeps _ List.mem_cons_self
        · exact selected item member

/-! ## The law -/

/-- What a driver leaves that has exited. -/
structure Exited (state : State ι) : Prop where
  complete : state.inner.cleanupComplete true = true
  refuses : ∀ entry, ∃ rejection, state.inner.register entry = .error rejection ∧
    state.inner.check = some rejection
  settled : ∀ key entry, (key, entry) ∈ state.accepted →
    (key, .lease) ∈ state.removals ∨ (∃ selection ∈ state.selections, selection.key = key) ∨
      ∃ caller taken lease, state.calls caller = .closed taken lease ∧ (key, entry) ∈ taken

/-- What holds of the entries in every state. -/
structure Law (state : State ι) : Prop where
  bounded : state.inner.entries.items.length ≤ state.inner.capacity
  distinct : (state.accepted.map Prod.fst).Nodup
  present : ∀ item, item ∈ state.inner.entries ↔
    item ∈ state.accepted ∧ item.1 ∉ state.removals.map Prod.fst
  removedOnce : (state.removals.map Prod.fst).Nodup
  removed : ∀ key ∈ state.removals.map Prod.fst, key ∈ state.accepted.map Prod.fst
  selectedOnce : (state.selections.map Selection.key).Nodup
  selected : ∀ selection ∈ state.selections, ∃ entry, (selection.key, entry) ∈ state.accepted ∧
    selection.token = entry.token ∧ selection.wake = entry.wake ∧
      (selection.cause = .ready ∧ (selection.key, .event) ∈ state.removals ∧
          ⟨selection.key, true⟩ ∈ state.reported ∨
        selection.cause = .closed ∧ ∃ caller, (selection.key, .close caller) ∈ state.removals)
  reported : ∀ event ∈ state.reported, event.key = 0 ∨ ∃ entry, (event.key, entry) ∈ state.accepted
  finishes : ∀ caller taken lease, state.calls caller = .closed taken lease →
    ∃ state', Relation.ReflTransGen
        (fun before after => Step before (.advance caller) after) state state' ∧
      ∀ item ∈ taken, item.2.select item.1 .closed ∈ state'.selections
  exited : state.driver = .exited → Exited state

/-- What a step does to the table. -/
structure StepLaw (state : State ι) (choice : Choice ι) (state' : State ι) : Prop where
  capacity : state'.inner.capacity = state.inner.capacity
  stopped : state.inner.stopped = true →
    state'.inner.stopped = true ∧ state'.accepted = state.accepted
  exits : state.driver = .exited → state'.driver = .exited
  synchronised : ∀ deleteFails registerFails, choice = .synchronise deleteFails registerFails →
    state'.driver = .waiting →
      state'.installed.items = state'.inner.entries.items.map Prod.fst ∧
        state'.inner.registered = state'.inner.entries.items.length
  spurious : ∀ event events recovery, choice = .drive →
    state.driver = .delivering (event :: events) recovery →
      event.key ∉ state.inner.entries.items.map Prod.fst →
        state' = { state with driver := .delivering events recovery }

omit [DecidableEq ι] in
theorem Invariant.exited {state : State ι} (holds : Invariant state)
    (exited : state.driver = .exited) : Exited state := by
  have stopped : state.inner.stopped = true := holds.halt.halted (by rw [exited]; rfl)
  have gone := holds.halt.emptied stopped
  refine ⟨?_, fun entry => Inner.register_stopped stopped, ?_⟩
  · have empty : state.inner.entries.items = [] := List.eq_nil_iff_forall_not_mem.mpr gone
    rw [Inner.cleanupComplete, empty, holds.halt.cleared exited]
    rfl
  · intro key entry isAccepted
    -- the table is empty, so that something has removed the entry
    have taken : key ∈ state.removals.map Prod.fst := by
      by_contra kept
      exact gone (key, entry) ((holds.ledger.present _).mpr ⟨isAccepted, kept⟩)
    obtain ⟨⟨_, removal⟩, isRemoved, rfl⟩ := List.mem_map.mp taken
    cases owes : removal.cause with
    | none =>
        cases removal with
        | lease => exact .inl isRemoved
        | event => cases owes
        | close caller => cases owes
    | some cause =>
        rcases holds.account.settled _ removal cause isRemoved owes with
          ⟨selection, member, same, -⟩ | keys
        · exact .inr (.inl ⟨selection, member, same⟩)
        · obtain ⟨⟨_, other⟩, waits, rfl⟩ := List.mem_map.mp keys
          have known := (holds.account.held removal _ waits).1
          rw [holds.ledger.eq_of_key known isAccepted] at waits
          -- a driver that has exited has nothing pending
          cases removal with
          | event =>
              change _ ∈ state.driver.chosen at waits
              rw [exited] at waits
              cases waits
          | lease => cases owes
          | close closer =>
              cases closer with
              | none =>
                  change _ ∈ state.driver.taken at waits
                  rw [exited] at waits
                  cases waits
              | some caller =>
                  change _ ∈ (state.calls caller).taken at waits
                  cases closed : state.calls caller with
                  | closed taken lease =>
                      rw [closed] at waits
                      exact .inr (.inr ⟨caller, taken, lease, closed, waits⟩)
                  | idle | waking | dropping | dropped | closing =>
                      rw [closed] at waits
                      cases waits

theorem Invariant.law {state : State ι} (holds : Invariant state) : Law state where
  bounded := holds.ledger.bounded
  distinct := holds.ledger.distinct
  present := holds.ledger.present
  removedOnce := holds.ledger.once
  removed := holds.ledger.covered
  selectedOnce := holds.account.once
  selected selection member := by
    obtain ⟨entry, removal, isAccepted, isRemoved, owes, same⟩ :=
      holds.account.owed selection member
    refine ⟨entry, isAccepted, congrArg Selection.token same, congrArg Selection.wake same, ?_⟩
    cases removal with
    | event =>
        exact .inl ⟨(Option.some.inj owes).symm, isRemoved, holds.polled.evented _ isRemoved⟩
    | lease => cases owes
    | close caller => exact .inr ⟨(Option.some.inj owes).symm, caller, isRemoved⟩
  reported event member := by
    rcases holds.polled.answered event member with waker | ⟨entry, isKnown⟩
    · exact .inl waker
    · exact .inr ⟨entry, holds.polled.told _ isKnown⟩
  finishes caller taken lease closed := by
    obtain ⟨state', steps, -, selected⟩ := closed_finishes closed
    exact ⟨state', steps, selected⟩
  exited := holds.exited

/-! ## Steps -/

/-- What a locked section makes of the table, other than that of a registration. -/
inductive Changed (inner : Inner) : Inner → Prop where
  | same : Changed inner inner
  | remove (key : Nat) : Changed inner (inner.remove key).1
  | close (error : Option String) : Changed inner (inner.close error).1
  | registered (count : Nat) : Changed inner { inner with registered := count }

namespace Step

variable {state state' : State ι} {choice : Choice ι}

/-- Only a registration accepts an entry. -/
theorem changed (step : Step state choice state') :
    (∃ caller entry, choice = .register caller entry ∧ state' = state.register caller entry) ∨
      state'.accepted = state.accepted ∧ Changed state.inner state'.inner := by
  cases step with
  | register entry idle => exact .inl ⟨_, entry, rfl, rfl⟩
  | wake woken =>
      right
      rw [State.wake] at woken
      split at woken
      · split at woken <;> cases woken
        · exact ⟨rfl, .same⟩
        · exact ⟨rfl, .same⟩
      · split at woken <;> cases woken
        · exact ⟨rfl, .same⟩
        · exact ⟨rfl, .same⟩
      · cases woken
  | drop | stop | interrupted | failed | events | panic => exact .inr ⟨rfl, .same⟩
  | advance advanced =>
      right
      rw [State.advance] at advanced
      split at advanced
      · split at advanced <;> cases advanced
        · exact ⟨rfl, .remove _⟩
        · exact ⟨rfl, .remove _⟩
      · cases advanced
        exact ⟨rfl, .close _⟩
      · cases advanced
        exact ⟨rfl, .same⟩
      · cases advanced
        exact ⟨rfl, .same⟩
      · cases advanced
        exact ⟨rfl, .same⟩
      · cases advanced
  | synchronise =>
      right
      rw [State.synchronised]
      split
      · exact ⟨rfl, .same⟩
      · split
        · exact ⟨rfl, .same⟩
        · exact ⟨rfl, .registered _⟩
  | drive driven =>
      right
      rw [State.drive] at driven
      split at driven
      · cases driven
        exact ⟨rfl, .same⟩
      · cases driven
        exact ⟨rfl, .same⟩
      · split at driven
        · split at driven <;> cases driven
          · exact ⟨rfl, .remove _⟩
          · exact ⟨rfl, .remove _⟩
        · cases driven
          exact ⟨rfl, .same⟩
      · cases driven
        exact ⟨rfl, .same⟩
      · cases driven
        exact ⟨rfl, .close _⟩
      · cases driven
        exact ⟨rfl, .same⟩
      · cases driven
        exact ⟨rfl, .registered 0⟩
      · cases driven

theorem capacity (step : Step state choice state') :
    state'.inner.capacity = state.inner.capacity := by
  rcases step.changed with ⟨caller, entry, rfl, rfl⟩ | ⟨-, changed⟩
  · rw [State.register]
    split
    · rfl
    · rename_i inner key accepts
      obtain ⟨-, -, -, -, rfl⟩ := Inner.register_eq_ok accepts
      rfl
  · generalize state'.inner = inner at changed ⊢
    cases changed <;> rfl

/-- A stopped reactor stays so, and accepts nothing. -/
theorem stopped (step : Step state choice state') (stopped : state.inner.stopped = true) :
    state'.inner.stopped = true ∧ state'.accepted = state.accepted := by
  rcases step.changed with ⟨caller, entry, rfl, rfl⟩ | ⟨accepted, changed⟩
  · have refuses : ∃ rejection, state.inner.register entry = .error rejection ∧
        state.inner.check = some rejection :=
      Inner.register_stopped stopped
    obtain ⟨rejection, rejects, -⟩ := refuses
    rw [State.register, rejects]
    exact ⟨stopped, rfl⟩
  · refine ⟨?_, accepted⟩
    generalize state'.inner = inner at changed ⊢
    cases changed with
    | same | remove | registered => exact stopped
    | close error => rfl

/-- A driver that has exited stays so. -/
theorem exits (step : Step state choice state') (exited : state.driver = .exited) :
    state'.driver = .exited := by
  cases step with
  | register =>
      rw [State.register]
      split <;> exact exited
  | wake woken =>
      rw [State.wake] at woken
      split at woken
      · split at woken <;> cases woken <;> exact exited
      · split at woken <;> cases woken <;> exact exited
      · cases woken
  | drop => exact exited
  | stop idle => exact exited
  | advance advanced =>
      rw [State.advance] at advanced
      split at advanced
      · split at advanced <;> cases advanced <;> exact exited
      · cases advanced
        exact exited
      · cases advanced
        exact exited
      · cases advanced
        exact exited
      · cases advanced
        exact exited
      · cases advanced
  | synchronise _ _ synchronising =>
      rw [synchronising] at exited
      cases exited
  | interrupted waiting | failed error waiting | events recovery waiting reports =>
      rw [waiting] at exited
      cases exited
  | drive driven =>
      rw [State.drive, exited] at driven
      cases driven
  | panic message runs =>
      rw [exited] at runs
      rcases runs with runs | runs | ⟨_, _, runs⟩ <;> cases runs

/-- After a round the poll has the keys of the table. -/
theorem synchronised {deleteFails registerFails : Nat → Option String}
    (step : Step state (.synchronise deleteFails registerFails) state')
    (waits : state'.driver = .waiting) :
    state'.installed.items = state'.inner.entries.items.map Prod.fst ∧
      state'.inner.registered = state'.inner.entries.items.length := by
  cases step with
  | synchronise =>
      rw [State.synchronised] at waits ⊢
      split at waits
      · cases waits
      · rename_i running
        rw [if_neg running]
        split at waits
        · cases waits
        · rename_i installed rounds
          have keys := synchronise_items rounds
          refine ⟨keys, ?_⟩
          change installed.items.length = _
          rw [keys, List.length_map]

/-- An event for a key that has no entry is skipped. -/
theorem spurious {event : Event} {events : List Event} {recovery : Option String}
    (step : Step state .drive state')
    (delivering : state.driver = .delivering (event :: events) recovery)
    (absent : event.key ∉ state.inner.entries.items.map Prod.fst) :
    state' = { state with driver := .delivering events recovery } := by
  have gone : (state.inner.remove event.key).2 = none :=
    Ordered.find?_eq_none.mpr fun item member same =>
      absent (List.mem_map.mpr ⟨item, member, same⟩)
  cases step with
  | drive driven =>
      rw [State.drive, delivering] at driven
      dsimp only at driven
      rw [gone, State.taken_absent gone, ite_self] at driven
      exact (Option.some.inj driven).symm

theorem law (step : Step state choice state') : StepLaw state choice state' where
  capacity := step.capacity
  stopped := step.stopped
  exits := step.exits
  synchronised := by
    rintro deleteFails registerFails rfl waits
    exact step.synchronised waits
  spurious := by
    rintro event events recovery rfl delivering absent
    exact step.spurious delivering absent

end Step

/-! ## Whole runs -/

end VThread.Readiness

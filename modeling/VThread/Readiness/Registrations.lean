import VThread.Readiness.Accounts

/-!
# Registrations over whole runs

Every step of the reactor keeps the accounts of its entries.  A driver that has exited leaves an
empty table behind, and what it has not selected is pending in the one close that took it.
-/

namespace VThread.Readiness

open VThread.Lib

variable {ι : Type}

/-! ## Pending selections -/

namespace Driver

def chosen : Driver → List (Nat × Entry)
  | .selecting key entry _ _ => [(key, entry)]
  | _ => []

def taken : Driver → List (Nat × Entry)
  | .closed taken => taken
  | _ => []

/-- The events that are still to be delivered. -/
def batch : Driver → List Event
  | .delivering events _ | .selecting _ _ events _ => events
  | _ => []

def halted : Driver → Bool
  | .closed _ | .exited => true
  | _ => false

end Driver

def Call.taken : Call → List (Nat × Entry)
  | .closed taken _ => taken
  | _ => []

namespace State

/-- The entries that a removal has taken and not yet selected. -/
def pending (state : State ι) : Removal ι → List (Nat × Entry)
  | .event => state.driver.chosen
  | .lease => []
  | .close none => state.driver.taken
  | .close (some caller) => (state.calls caller).taken

variable {state : State ι} {caller : ι} {call : Call} {removal : Removal ι}

theorem pending_moved_self [DecidableEq ι] :
    (state.moved caller call).pending (.close (some caller)) = call.taken := by
  change (Function.update state.calls caller call caller).taken = _
  rw [Function.update_self]

theorem pending_moved_of_ne [DecidableEq ι] (differ : removal ≠ .close (some caller)) :
    (state.moved caller call).pending removal = state.pending removal := by
  cases removal with
  | event => rfl
  | lease => rfl
  | close other =>
      cases other with
      | none => rfl
      | some other =>
          have others : other ≠ caller := by
            rintro rfl
            exact differ rfl
          change (Function.update state.calls caller call other).taken = _
          rw [Function.update_of_ne others]
          rfl

/-- A caller that takes and selects nothing changes nothing that is pending. -/
theorem pending_moved [DecidableEq ι] (same : call.taken = (state.calls caller).taken) :
    (state.moved caller call).pending = state.pending := by
  funext removal
  by_cases own : removal = .close (some caller)
  · rw [own, pending_moved_self, same]
    rfl
  · exact pending_moved_of_ne own

theorem pending_driver_of_ne {driver : Driver} (event : removal ≠ .event)
    (close : removal ≠ .close none) :
    { state with driver }.pending removal = state.pending removal := by
  cases removal with
  | event => exact absurd rfl event
  | lease => rfl
  | close other =>
      cases other with
      | none => exact absurd rfl close
      | some other => rfl

theorem pending_driver {driver : Driver} (chosen : driver.chosen = state.driver.chosen)
    (taken : driver.taken = state.driver.taken) :
    { state with driver }.pending = state.pending := by
  funext removal
  by_cases event : removal = .event
  · rw [event]
    exact chosen
  · by_cases close : removal = .close none
    · rw [close]
      exact taken
    · exact pending_driver_of_ne event close

end State

/-- To remove an entry that is gone does nothing. -/
theorem State.taken_absent {state : State ι} {key : Nat} {removal : Removal ι}
    (absent : (state.inner.remove key).2 = none) : state.taken key removal = state := by
  change state.inner.entries.find? key = none at absent
  rw [State.taken, Inner.remove, absent, Ordered.erase_absent absent]

/-! ## The invariant -/

/-- A stopped reactor has no entries; an error and a driver that is done have stopped it. -/
structure Halt (inner : Inner) (driver : Driver) : Prop where
  emptied : inner.stopped = true → ∀ item, item ∉ inner.entries
  failed : inner.error.isSome = true → inner.stopped = true
  halted : driver.halted = true → inner.stopped = true
  cleared : driver = .exited → inner.registered = 0

/-- The poll knows accepted keys only, and an event has removed an entry only if the poll reported
its key. -/
structure Polled (batch : List Event) (accepted known : List (Nat × Entry))
    (reported : List Event) (removals : List (Nat × Removal ι)) : Prop where
  told : ∀ item ∈ known, item ∈ accepted
  answered : ∀ event ∈ reported, event.key = 0 ∨ ∃ entry, (event.key, entry) ∈ known
  delivers : ∀ event ∈ batch, event ∈ reported
  evented : ∀ key, (key, .event) ∈ removals → ⟨key, true⟩ ∈ reported

structure Invariant (state : State ι) : Prop where
  ledger : Ledger state.inner.capacity state.inner.entries state.inner.next state.accepted
    state.removals
  account : Account state.pending state.accepted state.removals state.selections
  polled : Polled state.driver.batch state.accepted state.known state.reported state.removals
  halt : Halt state.inner state.driver

namespace Polled

variable {batch batch' : List Event} {accepted known : List (Nat × Entry)}
  {reported : List Event} {removals : List (Nat × Removal ι)}

theorem shrink (polled : Polled batch accepted known reported removals)
    (less : ∀ event ∈ batch', event ∈ batch) : Polled batch' accepted known reported removals where
  told := polled.told
  answered := polled.answered
  delivers := fun event member => polled.delivers event (less event member)
  evented := polled.evented

/-- Only a removal by an event needs a report. -/
theorem append (polled : Polled batch accepted known reported removals)
    (more : List (Nat × Removal ι))
    (own : ∀ key, (key, .event) ∈ more → ⟨key, true⟩ ∈ reported) :
    Polled batch accepted known reported (more ++ removals) where
  told := polled.told
  answered := polled.answered
  delivers := polled.delivers
  evented key removed := by
    rcases List.mem_append.mp removed with removed | removed
    · exact own key removed
    · exact polled.evented key removed

end Polled

namespace Halt

variable {inner : Inner} {driver : Driver}

/-- A removal leaves the flags. -/
theorem remove (halt : Halt inner driver) (key : Nat) : Halt (inner.remove key).1 driver where
  emptied stopped item member :=
    halt.emptied stopped item (Ordered.mem_erase.mp member).1
  failed := halt.failed
  halted := halt.halted
  cleared := halt.cleared

/-- A close stops the reactor. -/
theorem close (halt : Halt inner driver) (error : Option String) :
    Halt (inner.close error).1 driver where
  emptied _ item := Ordered.not_mem_empty item
  failed := fun _ => rfl
  halted := fun _ => rfl
  cleared := halt.cleared

/-- A driver goes on that is not done. -/
theorem drive {driver' : Driver} (halt : Halt inner driver) (goes : driver'.halted = false) :
    Halt inner driver' where
  emptied := halt.emptied
  failed := halt.failed
  halted done := by
    rw [goes] at done
    cases done
  cleared exited := by
    rw [exited] at goes
    cases goes

end Halt

/-! ## Steps -/

namespace Invariant

variable {state : State ι} {caller : ι}

theorem new (capacity : Nat) : Invariant (⟨.new capacity, .empty, .synchronising,
    fun _ => .idle none, [], [], [], [], [], []⟩ : State ι) where
  ledger := .new capacity
  account := by
    refine .new fun removal => ?_
    rcases removal with _ | _ | _ | _ <;> rfl
  polled :=
    { told := fun _ member => absurd member List.not_mem_nil
      answered := fun _ member => absurd member List.not_mem_nil
      delivers := fun _ member => absurd member List.not_mem_nil
      evented := fun _ member => absurd member List.not_mem_nil }
  halt :=
    { emptied := fun stopped => by cases stopped
      failed := fun failed => by cases failed
      halted := fun done => by cases done
      cleared := fun exited => by cases exited }

theorem leased (holds : Invariant state) (leases : List Nat) :
    Invariant { state with leases } :=
  ⟨holds.ledger, holds.account, holds.polled, holds.halt⟩

/-- A lease that is dropped removes its entry, and selects nothing. -/
theorem leave (holds : Invariant state) (key : Nat) : Invariant (state.taken key .lease) := by
  cases found : state.inner.entries.find? key with
  | none =>
      rw [State.taken_absent found]
      exact holds
  | some item =>
      obtain ⟨member, rfl⟩ := Ordered.find?_eq_some.mp found
      obtain ⟨isAccepted, kept⟩ := (holds.ledger.present item).mp member
      rw [State.taken, Inner.remove, found]
      refine ⟨holds.ledger.remove .lease member, ?_, ?_, holds.halt.remove item.1⟩
      · exact holds.account.takeOne isAccepted kept rfl (fun _ _ => rfl) rfl
      · exact holds.polled.append [(item.1, .lease)] (by simp)

/-! ## The driver -/

/-- The driver goes on with fewer events, and nothing taken. -/
theorem driven (holds : Invariant state) {driver : Driver}
    (chosen : driver.chosen = state.driver.chosen) (taken : driver.taken = state.driver.taken)
    (less : ∀ event ∈ driver.batch, event ∈ state.driver.batch) (goes : driver.halted = false) :
    Invariant { state with driver } where
  ledger := holds.ledger
  account := by
    rw [State.pending_driver chosen taken]
    exact holds.account
  polled := holds.polled.shrink less
  halt := holds.halt.drive goes

theorem synchronised (holds : Invariant state) (deleteFails registerFails : Nat → Option String)
    (synchronising : state.driver = .synchronising) :
    Invariant (state.synchronised deleteFails registerFails) := by
  rw [State.synchronised]
  split
  · rename_i stopped
    refine ⟨holds.ledger, ?_, ?_, holds.halt.emptied, holds.halt.failed, fun _ => stopped, ?_⟩
    · rw [State.pending_driver (by rw [synchronising]; rfl) (by rw [synchronising]; rfl)]
      exact holds.account
    · exact holds.polled.shrink fun _ member => absurd member List.not_mem_nil
    · intro exited
      cases exited
  · split
    · exact holds.driven (by rw [synchronising]; rfl) (by rw [synchronising]; rfl)
        (fun _ member => absurd member List.not_mem_nil) rfl
    · rename_i installed _
      have waits : Invariant { state with driver := .waiting } :=
        holds.driven (by rw [synchronising]; rfl) (by rw [synchronising]; rfl)
          (fun _ member => absurd member List.not_mem_nil) rfl
      refine ⟨waits.ledger, waits.account, ⟨?_, ?_, ?_, waits.polled.evented⟩,
        waits.halt.emptied, waits.halt.failed, waits.halt.halted, ?_⟩
      · intro item member
        rcases List.mem_append.mp member with member | member
        · exact ((holds.ledger.present item).mp member).1
        · exact holds.polled.told item member
      · intro event member
        rcases holds.polled.answered event member with waker | ⟨entry, isKnown⟩
        · exact .inl waker
        · exact .inr ⟨entry, List.mem_append_right _ isKnown⟩
      · exact waits.polled.delivers
      · intro exited
        cases exited

theorem reported (holds : Invariant state) {events : List Event} (recovery : Option String)
    (waiting : state.driver = .waiting) (reports : state.Reports events) :
    Invariant { state with
      driver := .delivering events recovery
      reported := events ++ state.reported } := by
  refine ⟨holds.ledger, ?_, ⟨holds.polled.told, ?_, ?_, ?_⟩, holds.halt.drive rfl⟩
  · have same : { state with driver := .delivering events recovery }.pending = state.pending :=
      State.pending_driver (by rw [waiting]; rfl) (by rw [waiting]; rfl)
    exact same ▸ holds.account
  · intro event member
    rcases List.mem_append.mp member with member | member
    · exact reports event member
    · exact holds.polled.answered event member
  · exact fun event member => List.mem_append_left _ member
  · exact fun key removed => List.mem_append_right _ (holds.polled.evented key removed)

/-- An event removes the entry of its own key, and the driver has its wait to select. -/
theorem chosen (holds : Invariant state) {event : Event} {events : List Event}
    {recovery : Option String} {key : Nat} {entry : Entry}
    (delivering : state.driver = .delivering (event :: events) recovery)
    (ready : event.ready = true) (found : state.inner.entries.find? event.key = some (key, entry)) :
    Invariant { state.taken event.key .event with
      driver := .selecting key entry events recovery } := by
  obtain ⟨member, same⟩ := Ordered.find?_eq_some.mp found
  obtain ⟨isAccepted, kept⟩ := (holds.ledger.present _).mp member
  change key = event.key at same
  subst same
  rw [State.taken, Inner.remove, found]
  refine ⟨holds.ledger.remove .event member, ?_, ?_, (holds.halt.remove event.key).drive rfl⟩
  · refine holds.account.takeOne isAccepted kept ?_ (fun other differ => ?_) rfl
    · change state.driver.chosen = []
      rw [delivering]
      rfl
    · by_cases close : other = .close none
      · rw [close]
        change [] = state.driver.taken
        rw [delivering]
        rfl
      · exact State.pending_driver_of_ne differ close
  · have own : event ∈ state.reported := by
      refine holds.polled.delivers event ?_
      rw [delivering]
      exact List.mem_cons_self
    refine (holds.polled.append [(event.key, .event)] fun key removed => ?_).shrink ?_
    · obtain ⟨rfl, -⟩ := Prod.mk.inj (List.mem_singleton.mp removed)
      rw [← ready]
      exact own
    · intro other member
      rw [delivering]
      exact List.mem_cons_of_mem _ member

theorem selects (holds : Invariant state) {events : List Event} {recovery : Option String}
    {key : Nat} {entry : Entry} (selecting : state.driver = .selecting key entry events recovery) :
    Invariant { state.selected (entry.select key .ready) with
      driver := .delivering events recovery } := by
  refine ⟨holds.ledger, ?_, holds.polled.shrink (by rw [selecting]; exact fun _ => id),
    holds.halt.drive rfl⟩
  have owes : (Removal.event : Removal ι).cause = some .ready := rfl
  refine holds.account.select owes ?_ holds.ledger.once (fun other differ => ?_) rfl
  · change state.driver.chosen = _
    rw [selecting]
    rfl
  · by_cases close : other = .close none
    · rw [close]
      change [] = state.driver.taken
      rw [selecting]
      rfl
    · exact State.pending_driver_of_ne differ close

/-- The driver closes the reactor after an error or a panic. -/
theorem closes (holds : Invariant state) {error : String}
    (closing : state.driver = .closing error) :
    Invariant { state.closed (some error) none with
      driver := .closed (state.inner.close (some error)).2 } := by
  have closed := holds.halt.close (some error)
  refine ⟨holds.ledger.clear _, ?_, ?_, closed.emptied, closed.failed, fun _ => rfl, ?_⟩
  · refine holds.account.take (fun item member => ((holds.ledger.present item).mp member).1)
      (Ordered.nodup_keys _) (fun item member => ((holds.ledger.present item).mp member).2)
      ?_ (fun other differ => ?_) rfl
    · change state.driver.taken = []
      rw [closing]
      rfl
    · by_cases event : other = .event
      · rw [event]
        change [] = state.driver.chosen
        rw [closing]
        rfl
      · exact State.pending_driver_of_ne event differ
  · refine (holds.polled.append _ ?_).shrink fun _ member => absurd member List.not_mem_nil
    intro key removed
    obtain ⟨item, -, same⟩ := List.mem_map.mp removed
    cases same
  · intro exited
    cases exited

theorem closeSelects (holds : Invariant state) {key : Nat} {entry : Entry}
    {rest : List (Nat × Entry)} (closed : state.driver = .closed ((key, entry) :: rest)) :
    Invariant { state.selected (entry.select key .closed) with driver := .closed rest } := by
  have stopped : state.inner.stopped = true := by
    refine holds.halt.halted ?_
    rw [closed]
    rfl
  refine ⟨holds.ledger, ?_, holds.polled.shrink fun _ member => absurd member List.not_mem_nil,
    holds.halt.emptied, holds.halt.failed, fun _ => stopped, ?_⟩
  · have owes : (Removal.close none : Removal ι).cause = some .closed := rfl
    refine holds.account.select owes ?_ holds.ledger.once (fun other differ => ?_) rfl
    · change state.driver.taken = _
      rw [closed]
      rfl
    · by_cases event : other = .event
      · rw [event]
        change [] = state.driver.chosen
        rw [closed]
        rfl
      · exact State.pending_driver_of_ne event differ
  · intro exited
    cases exited

theorem drive (holds : Invariant state) {state' : State ι} (driven : state.drive = some state') :
    Invariant state' := by
  rw [State.drive] at driven
  split at driven
  · rename_i delivering
    cases driven
    exact holds.driven (by rw [delivering]; rfl) (by rw [delivering]; rfl)
      (fun _ member => absurd member List.not_mem_nil) rfl
  · rename_i error delivering
    cases driven
    exact holds.driven (by rw [delivering]; rfl) (by rw [delivering]; rfl)
      (fun _ member => absurd member List.not_mem_nil) rfl
  · rename_i event events recovery delivering
    have skips : Invariant { state with driver := .delivering events recovery } :=
      holds.driven (by rw [delivering]; rfl) (by rw [delivering]; rfl)
        (by rw [delivering]; exact fun _ => List.mem_cons_of_mem _) rfl
    split at driven
    · rename_i ready
      split at driven
      · rename_i absent
        cases driven
        rw [State.taken_absent absent]
        exact skips
      · rename_i found
        cases driven
        exact holds.chosen delivering ready found
    · cases driven
      exact skips
  · rename_i selecting
    cases driven
    exact holds.selects selecting
  · rename_i closing
    cases driven
    exact holds.closes closing
  · rename_i closed
    cases driven
    exact holds.closeSelects closed
  · rename_i closed
    cases driven
    have stopped : state.inner.stopped = true := by
      refine holds.halt.halted ?_
      rw [closed]
      rfl
    refine ⟨holds.ledger, ?_, holds.polled.shrink fun _ member => absurd member List.not_mem_nil,
      holds.halt.emptied, holds.halt.failed, fun _ => stopped, fun _ => rfl⟩
    have same : { state with driver := .exited }.pending = state.pending :=
      State.pending_driver (by rw [closed]; rfl) (by rw [closed]; rfl)
    exact same ▸ holds.account
  · cases driven

/-! ## Callers -/

variable [DecidableEq ι]

theorem moved (holds : Invariant state) {call : Call}
    (same : call.taken = (state.calls caller).taken) : Invariant (state.moved caller call) where
  ledger := holds.ledger
  account := by
    rw [State.pending_moved same]
    exact holds.account
  polled := holds.polled
  halt := holds.halt

theorem register (holds : Invariant state) {rejection : Option Rejection} (entry : Entry)
    (idle : state.calls caller = .idle rejection) : Invariant (state.register caller entry) := by
  rw [State.register]
  split
  · exact holds.moved (by rw [idle]; rfl)
  · rename_i inner key accepts
    obtain ⟨failed, running, room, rfl, rfl⟩ := Inner.register_eq_ok accepts
    have accepted : Invariant { state with
        inner := { state.inner with
          entries := state.inner.entries.insert (state.inner.next, entry)
          next := state.inner.next + 1 }
        accepted := (state.inner.next, entry) :: state.accepted } := by
      refine ⟨holds.ledger.register entry room, holds.account.accept _, ?_, ?_⟩
      · exact ⟨fun item member => List.mem_cons_of_mem _ (holds.polled.told item member),
          holds.polled.answered, holds.polled.delivers, holds.polled.evented⟩
      · -- a reactor that accepts an entry has not stopped
        refine ⟨fun stopped => ?_, holds.halt.failed, holds.halt.halted, holds.halt.cleared⟩
        rw [running] at stopped
        cases stopped
    exact accepted.moved (by rw [idle]; rfl)

theorem wake (holds : Invariant state) {fails : Bool} {state' : State ι}
    (woken : state.wake caller fails = some state') : Invariant state' := by
  rw [State.wake] at woken
  split at woken
  · rename_i key waking
    split at woken
    · cases woken
      exact holds.moved (by rw [waking]; rfl)
    · cases woken
      exact (holds.leased _).moved (by rw [waking]; rfl)
  · rename_i dropped
    split at woken
    · cases woken
      exact holds.moved (by rw [dropped]; rfl)
    · cases woken
      exact holds.moved (by rw [dropped]; rfl)
  · cases woken

/-- A close by a caller takes all entries, and has them to select. -/
theorem callerCloses (holds : Invariant state) {error : Option String} {lease : Option Nat}
    (closing : state.calls caller = .closing error lease) :
    Invariant ((state.closed error (some caller)).moved caller
      (.closed (state.inner.close error).2 lease)) := by
  refine ⟨holds.ledger.clear _, ?_, ?_, holds.halt.close error⟩
  · refine holds.account.take (fun item member => ((holds.ledger.present item).mp member).1)
      (Ordered.nodup_keys _) (fun item member => ((holds.ledger.present item).mp member).2)
      ?_ (fun other differ => State.pending_moved_of_ne differ) State.pending_moved_self
    change (state.calls caller).taken = []
    rw [closing]
    rfl
  · exact holds.polled.append _ (by simp)

theorem callerSelects (holds : Invariant state) {key : Nat} {entry : Entry}
    {rest : List (Nat × Entry)} {lease : Option Nat}
    (closed : state.calls caller = .closed ((key, entry) :: rest) lease) :
    Invariant ((state.selected (entry.select key .closed)).moved caller (.closed rest lease)) := by
  refine ⟨holds.ledger, ?_, holds.polled, holds.halt⟩
  have owes : (Removal.close (some caller)).cause = some .closed := rfl
  refine holds.account.select owes ?_ holds.ledger.once
    (fun other differ => State.pending_moved_of_ne differ) State.pending_moved_self
  change (state.calls caller).taken = _
  rw [closed]
  rfl

theorem advance (holds : Invariant state) {state' : State ι}
    (advanced : state.advance caller = some state') : Invariant state' := by
  rw [State.advance] at advanced
  split at advanced
  · rename_i key dropping
    split at advanced
    · cases advanced
      exact (holds.leave key).moved (by
        change _ = (state.calls caller).taken
        rw [dropping]
        rfl)
    · cases advanced
      exact (holds.leave key).moved (by
        change _ = (state.calls caller).taken
        rw [dropping]
        rfl)
  · rename_i closing
    cases advanced
    exact holds.callerCloses closing
  · rename_i closed
    cases advanced
    exact holds.callerSelects closed
  · rename_i closed
    cases advanced
    exact holds.moved (by rw [closed]; rfl)
  · rename_i closed
    cases advanced
    exact holds.moved (by rw [closed]; rfl)
  · cases advanced

theorem step (holds : Invariant state) {choice : Choice ι} {state' : State ι}
    (step : Step state choice state') : Invariant state' := by
  cases step with
  | register entry idle => exact holds.register entry idle
  | wake woken => exact holds.wake woken
  | drop idle leased => exact (holds.leased _).moved (by rw [idle]; rfl)
  | stop idle => exact holds.moved (by rw [idle]; rfl)
  | advance advanced => exact holds.advance advanced
  | synchronise deleteFails registerFails synchronising =>
      exact holds.synchronised deleteFails registerFails synchronising
  | interrupted waiting =>
      exact holds.driven (by rw [waiting]; rfl) (by rw [waiting]; rfl)
        (fun _ member => absurd member List.not_mem_nil) rfl
  | failed error waiting =>
      exact holds.driven (by rw [waiting]; rfl) (by rw [waiting]; rfl)
        (fun _ member => absurd member List.not_mem_nil) rfl
  | events recovery waiting reports => exact holds.reported recovery waiting reports
  | drive driven => exact holds.drive driven
  | panic message runs =>
      rcases runs with synchronising | waiting | ⟨events, recovery, delivering⟩
      · exact holds.driven (by rw [synchronising]; rfl) (by rw [synchronising]; rfl)
          (fun _ member => absurd member List.not_mem_nil) rfl
      · exact holds.driven (by rw [waiting]; rfl) (by rw [waiting]; rfl)
          (fun _ member => absurd member List.not_mem_nil) rfl
      · exact holds.driven (by rw [delivering]; rfl) (by rw [delivering]; rfl)
          (fun _ member => absurd member List.not_mem_nil) rfl

theorem reachable (reachable : (system ι).Reachable state) : Invariant state := by
  refine reachable.induct (fun state initial => ?_) fun state state' _ holds taken => ?_
  · obtain ⟨capacity, rfl⟩ := initial
    exact .new capacity
  · obtain ⟨choice, taken⟩ := taken
    exact holds.step taken

end Invariant

end VThread.Readiness

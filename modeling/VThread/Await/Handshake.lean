import VThread.Await.Counts

/-!
# The handshake of completions and waits

A completion sets its flag before it reads the number of waiting threads, and a thread
counts itself before it reads the flag, so that one of them sees the other.
-/

namespace VThread.Await

open VThread.Lib

variable {ι : Type} [DecidableEq ι]

/-! ## What is owed -/

/-- A change that threads wait for is there. -/
def Shared.Happened (shared : Shared ι) : Change → Prop
  | .done task => shared.done task = true
  | .drained scope => shared.retired scope = shared.admitted scope

/-- A party has made a change and has still to publish it or to notify of it. -/
def Pc.Owes (shared : Shared ι) (change : Change) : Pc ι → Prop
  | .queue _ _ task => change = .done task
  | .mayDefer batch | .retire _ batch | .loadTargets _ batch =>
      change ∈ batch.tasks.map .done
  | .loadAdmission _ batch retired =>
      change ∈ batch.tasks.map .done ∨
        change = .drained batch.scope ∧ retired = shared.retired batch.scope
  | .addEpoch _ owed => change ∈ owed
  | _ => False

/-- Who owes a notification: a carrier, or a client that took an admission back. -/
def Owed (state : Threads (Party ι) (Shared ι) (Pc ι)) (change : Change) : Prop :=
  (∃ id, (state.locals (.carrier id)).Owes state.shared change) ∨
    ∃ scope, change = .drained scope ∧
      ∃ id, (state.locals (.client id)).Owes state.shared change

/-- The change is not there, or owed. -/
def Watches (state : Threads (Party ι) (Shared ι) (Pc ι)) (change : Change) : Prop :=
  state.shared.Happened change → Owed state change

variable {shared shared' : Shared ι} {pc pc' : Pc ι} {change : Change}

omit [DecidableEq ι] in
theorem Pc.Owes.frame (retired : shared'.retired = shared.retired) (owes : pc.Owes shared change) :
    pc.Owes shared' change := by
  cases pc with
  | loadAdmission =>
      rw [Pc.Owes, retired]
      exact owes
  | _ => exact owes

omit [DecidableEq ι] in
theorem Shared.Happened.frame (done : shared'.done = shared.done)
    (retired : shared'.retired = shared.retired) (admitted : shared'.admitted = shared.admitted)
    (happened : shared'.Happened change) : shared.Happened change := by
  cases change with
  | done task => exact (congrFun done task).symm.trans happened
  | drained scope =>
      rw [Shared.Happened, retired, admitted] at happened
      exact happened

omit [DecidableEq ι] in
/-- Only a notification that has been counted is not owed any more. -/
theorem Notifies.owes (taken : Notifies shared pc shared' pc')
    (same : shared'.signal.notified = shared.signal.notified) : ¬ pc.Owes shared change := by
  cases taken with
  | addEpoch => exact absurd same (Nat.succ_ne_self _)
  | alone | loadWaiters | notifyGate => exact id

/-- What a step of a carrier makes happen, it owes. -/
theorem Completes.happened (taken : Completes shared pc shared' pc')
    (happened : shared'.Happened change) : shared.Happened change ∨ pc'.Owes shared' change := by
  cases taken with
  | done scope earlier task | discarded kept scope task =>
      cases change with
      | drained => exact .inl happened
      | done other =>
          by_cases own : other = task
          · subst own
            refine .inr ?_
            simp [Pc.Owes]
          · exact .inl (by simpa [Shared.Happened, Function.update_of_ne own] using happened)
  | retire kept batch =>
      cases change with
      | done => exact .inl happened
      | drained scope =>
          by_cases own : scope = batch.scope
          · subst own
            exact .inr (.inr ⟨rfl, by simp⟩)
          · exact .inl (by simpa [Shared.Happened, Function.update_of_ne own] using happened)
  | notify taken =>
      obtain ⟨admitted, retired, -, done, -⟩ := taken.frame
      exact .inl (happened.frame done retired admitted)
  | _ => exact .inl happened

/-- A carrier that owes a notification goes on to owe it, until it is counted. -/
theorem Completes.owes (taken : Completes shared pc shared' pc')
    (same : shared'.signal.notified = shared.signal.notified)
    (heard : ∀ task, change = .done task → shared.targetWaiters ≠ 0)
    (happened : shared'.Happened change) (owes : pc.Owes shared change) :
    pc'.Owes shared' change := by
  have listed {tasks : List TaskId} (member : change ∈ tasks.map .done) :
      shared.targetWaiters ≠ 0 := by
    obtain ⟨task, -, isDone⟩ := List.mem_map.mp member
    exact heard task isDone.symm
  cases taken with
  | full | queue =>
      cases owes
      simp [Pc.Owes]
  | defer batch unheard => exact absurd unheard (listed owes)
  | publish => exact owes
  | retire => exact .inl owes
  | drained =>
      rcases owes with member | ⟨rfl, -⟩
      · exact List.mem_cons_of_mem _ member
      · exact List.mem_cons_self ..
  | undrained _ _ _ undrained =>
      rcases owes with member | ⟨rfl, current⟩
      · exact member
      · exact absurd (current.trans happened) undrained
  | unheard kept batch unheard => exact absurd unheard (listed owes)
  | targets => exact owes
  | notify taken => exact absurd owes (taken.owes same)
  | complete | discard | flush | done | discarded => exact owes.elim

/-- What others owe they still owe, unless it is now owed by the carrier. -/
theorem Completes.others (taken : Completes shared pc shared' pc') {other : Pc ι}
    (owes : other.Owes shared change) : other.Owes shared' change ∨ pc'.Owes shared' change := by
  cases taken with
  | retire kept batch =>
      cases other with
      | loadAdmission _ batch' =>
          rcases owes with member | ⟨rfl, current⟩
          · exact .inl (.inl member)
          · by_cases own : batch'.scope = batch.scope
            · refine .inr (.inr ?_)
              rw [own]
              exact ⟨rfl, by simp⟩
            · exact .inl (.inr ⟨rfl, by simpa [Function.update_of_ne own] using current⟩)
      | _ => exact .inl owes
  | notify taken => exact .inl (owes.frame taken.frame.2.1)
  | _ => exact .inl (owes.frame rfl)

/-- Who retires tasks of a scope owes a look at what was admitted. -/
theorem Completes.retired (taken : Completes shared pc shared' pc') (scope : ScopeId) :
    shared'.retired scope = shared.retired scope ∨ pc'.Owes shared' (.drained scope) := by
  cases taken with
  | retire kept batch =>
      by_cases own : scope = batch.scope
      · subst own
        exact .inr (.inr ⟨rfl, by simp⟩)
      · exact .inl (Function.update_of_ne own _ _)
  | notify taken => exact .inl (congrFun taken.frame.2.1 scope)
  | _ => exact .inl rfl

omit [DecidableEq ι] in
theorem Submits.happened (taken : Submits shared pc shared' pc')
    (fits : ∀ scope, shared.retired scope ≤ shared.admitted scope)
    (happened : shared'.Happened change) :
    shared.Happened change ∨ ∃ scope, change = .drained scope ∧ pc'.Owes shared' change := by
  cases taken with
  | submit scope =>
      cases change with
      | done => exact .inl happened
      | drained other =>
          by_cases own : other = scope
          · subst own
            have exceeds : shared.retired other = shared.admitted other + 1 := by
              simpa [Shared.Happened] using happened
            have bound := fits other
            omega
          · exact .inl (by simpa [Shared.Happened, Function.update_of_ne own] using happened)
  | release task =>
      cases change with
      | done => exact .inl happened
      | drained other =>
          by_cases own : other = task.scope
          · subst own
            exact .inr ⟨_, rfl, List.mem_singleton_self _⟩
          · exact .inl (by simpa [Shared.Happened, Function.update_of_ne own] using happened)
  | notify taken =>
      obtain ⟨admitted, retired, -, done, -⟩ := taken.frame
      exact .inl (happened.frame done retired admitted)
  | accept | reject | start => exact .inl happened

omit [DecidableEq ι] in
theorem Submits.owes (taken : Submits shared pc shared' pc')
    (same : shared'.signal.notified = shared.signal.notified) : ¬ pc.Owes shared change := by
  cases taken with
  | notify taken => exact taken.owes same
  | submit | accept | reject | release | start => exact id

/-! ## What threads rely on -/

section Watching

variable {state : Threads (Party ι) (Shared ι) (Pc ι)} {party : Party ι}

/-- Waiting threads make nothing happen that others watch. -/
theorem Watches.waiter {id : ι} (taken : Waits id state.shared pc shared pc')
    (watches : Watches state change) :
    Watches ⟨shared, fun other => if other = .waiter id then pc' else state.locals other⟩
      change := by
  intro happened
  obtain ⟨admitted, retired, -, done, -⟩ := taken.frame
  rcases watches (happened.frame done retired admitted) with
    ⟨other, owes⟩ | ⟨scope, isDrained, other, owes⟩
  · exact .inl ⟨other, owes.frame retired⟩
  · exact .inr ⟨scope, isDrained, other, owes.frame retired⟩

/-- As long as no notification is counted, a watched change stays watched. -/
theorem Watches.move (counted : Counted state)
    (moves : Moves state.shared party (state.locals party) shared pc)
    (same : shared.signal.notified = state.shared.signal.notified)
    (heard : ∀ task, change = .done task → state.shared.targetWaiters ≠ 0)
    (watches : Watches state change) :
    Watches ⟨shared, fun other => if other = party then pc else state.locals other⟩ change := by
  intro happened
  cases moves with
  | waiter taken => exact watches.waiter taken happened
  | @carrier id _ _ _ taken =>
      have mine (owes : pc.Owes shared change) : Owed
          ⟨shared, fun other => if other = .carrier id then pc else state.locals other⟩ change :=
        .inl ⟨id, by simpa using owes⟩
      rcases taken.happened happened with before | owes
      · rcases watches before with ⟨other, owes⟩ | ⟨scope, isDrained, other, owes⟩
        · by_cases own : other = id
          · subst own
            exact mine (taken.owes same heard happened owes)
          · rcases taken.others owes with owes | owes
            · exact .inl ⟨other, by simpa [own] using owes⟩
            · exact mine owes
        · rcases taken.others owes with owes | owes
          · exact .inr ⟨scope, isDrained, other, by simpa using owes⟩
          · exact mine owes
      · exact mine owes
  | @client id _ _ _ taken =>
      have retired := taken.frame.1
      rcases taken.happened counted.retired_le happened with before | ⟨scope, isDrained, owes⟩
      · rcases watches before with ⟨other, owes⟩ | ⟨scope, isDrained, other, owes⟩
        · exact .inl ⟨other, by simpa using owes.frame retired⟩
        · by_cases own : other = id
          · subst own
            exact absurd owes (taken.owes same)
          · exact .inr ⟨scope, isDrained, other, by simpa [own] using owes.frame retired⟩
      · exact .inr ⟨scope, isDrained, id, by simpa using owes⟩

/-- What holds unless there was a notification since the version was read. -/
structure Since (state : Threads (Party ι) (Shared ι) (Pc ι)) (observed : Nat) (fact : Prop) :
    Prop where
  past : observed ≤ state.shared.signal.notified
  now : state.shared.signal.notified = observed → fact

/-- What a thread relies on that has found nothing to return for. -/
def Unready (state : Threads (Party ι) (Shared ι) (Pc ι)) (wait : Wait) : Prop :=
  Watches state (.drained wait.scope) ∧
    ∀ target, wait.target = some target → Watches state (.done target)

/-- What a thread relies on between its steps. -/
def Relies (state : Threads (Party ι) (Shared ι) (Pc ι)) : Pc ι → Prop
  | .loadRetired _ observed => Since state observed True
  | .loadAdmitted wait observed retired => Since state observed
      (retired = state.shared.retired wait.scope ∨ Watches state (.drained wait.scope))
  | .loadDone wait observed active =>
      Since state observed (active ≠ 0 → Watches state (.drained wait.scope))
  | .undone wait observed | .lockGate wait observed | .addWaiter wait observed
  | .loadEpoch wait observed | .sleep wait observed | .blocked wait observed =>
      Since state observed (Unready state wait)
  | _ => True

omit [DecidableEq ι] in
theorem Since.keep {state' : Threads (Party ι) (Shared ι) (Pc ι)} {observed : Nat}
    {fact fact' : Prop} (since : Since state observed fact)
    (later : state.shared.signal.notified ≤ state'.shared.signal.notified)
    (keeps : state'.shared.signal.notified = state.shared.signal.notified → fact → fact') :
    Since state' observed fact' where
  past := since.past.trans later
  now unchanged := by
    have past := since.past
    have same : state'.shared.signal.notified = state.shared.signal.notified := by omega
    exact keeps same (since.now (same.symm.trans unchanged))

theorem Moves.later (moves : Moves shared party pc shared' pc') :
    shared.signal.notified ≤ shared'.signal.notified := by
  cases moves with
  | waiter taken => exact Nat.le_of_eq taken.frame.2.2.2.2.1.symm
  | carrier taken =>
      cases taken with
      | notify taken => cases taken <;> simp
      | _ => exact Nat.le_refl _
  | client taken =>
      cases taken with
      | notify taken => cases taken <;> simp
      | _ => exact Nat.le_refl _

theorem Moves.retired (moves : Moves state.shared party (state.locals party) shared pc)
    (scope : ScopeId) : shared.retired scope = state.shared.retired scope ∨
      Watches ⟨shared, fun other => if other = party then pc else state.locals other⟩
        (.drained scope) := by
  cases moves with
  | waiter taken => exact .inl (congrFun taken.frame.2.1 scope)
  | client taken => exact .inl (congrFun taken.frame.1 scope)
  | @carrier id _ _ _ taken =>
      rcases taken.retired scope with same | owes
      · exact .inl same
      · exact .inr fun _ => .inl ⟨id, by simpa using owes⟩

/-- The steps of others keep what a thread relies on. -/
theorem Relies.keep (counted : Counted state)
    (moves : Moves state.shared party (state.locals party) shared pc) {other : Pc ι}
    (listens : other.listens ≤ state.shared.targetWaiters) (relies : Relies state other) :
    Relies ⟨shared, fun other => if other = party then pc else state.locals other⟩ other := by
  have later := moves.later
  have drained {scope : ScopeId} (same : shared.signal.notified = state.shared.signal.notified)
      (watches : Watches state (.drained scope)) :=
    Watches.move counted moves same (fun _ isDone => Change.noConfusion isDone) watches
  cases other with
  | loadRetired => exact Since.keep relies later fun _ => id
  | loadAdmitted wait =>
      refine Since.keep relies later fun same read => ?_
      rcases read with read | watched
      · rcases moves.retired wait.scope with unchanged | watched
        · exact .inl (read.trans unchanged.symm)
        · exact .inr watched
      · exact .inr (drained same watched)
  | loadDone =>
      exact Since.keep relies later fun same watched busy => drained same (watched busy)
  | undone wait observed | lockGate wait observed | addWaiter wait observed
  | loadEpoch wait observed | sleep wait observed | blocked wait observed =>
      refine Since.keep relies later fun same unready =>
        ⟨drained same unready.1, fun target isTarget => ?_⟩
      refine Watches.move counted moves same (fun _ _ => ?_) (unready.2 target isTarget)
      have one : wait.listens = 1 := by simp [Wait.listens, isTarget]
      have counts : wait.listens ≤ state.shared.targetWaiters := listens
      omega
  | _ => trivial

omit [DecidableEq ι] in
/-- A thread that saw a task active relies on the scope not being drained unnoticed. -/
theorem active_watches {scope : ScopeId} {read : Nat}
    (known : read = state.shared.retired scope ∨ Watches state (.drained scope))
    (active : state.shared.admitted scope - read ≠ 0) : Watches state (.drained scope) := by
  rcases known with rfl | watches
  · intro (happened : state.shared.retired scope = state.shared.admitted scope)
    rw [happened, Nat.sub_self] at active
    exact absurd rfl active
  · exact watches

omit [DecidableEq ι] in
theorem Relies.checked {wait : Wait} {observed active : Nat} {done : Bool}
    (since : Since state observed (active ≠ 0 → done = false → Unready state wait)) :
    Relies state (wait.checked observed active done) := by
  rw [Wait.checked]
  split
  · trivial
  · rename_i waits
    have busy : active ≠ 0 := fun none => waits (.inl none)
    have missing : done = false := by simpa using fun isDone => waits (.inr isDone)
    exact Since.keep since (Nat.le_refl _) fun _ unready => unready busy missing

/-- A thread relies only on what it has read. -/
theorem Relies.own {id : ι} (taken : Waits id state.shared pc shared pc')
    (relies : Relies state pc) :
    Relies ⟨shared, fun other => if other = .waiter id then pc' else state.locals other⟩ pc' := by
  obtain ⟨admitted, retired, -, done, notified, -⟩ := taken.frame
  have later := Nat.le_of_eq notified.symm
  have watched {change : Change} (watches : Watches state change) := watches.waiter taken
  cases taken with
  | call | register | unregister | changed | timeOut | removeWaiter | unlockGate | panic
  | expire => trivial
  | loadVersion wait => exact ⟨Nat.le_refl _, fun _ => trivial⟩
  | loadRetired => exact Since.keep relies later fun _ _ => .inl rfl
  | drained _ _ _ _ noTarget =>
      refine Relies.checked (Since.keep relies later fun _ known busy _ =>
        ⟨watched (active_watches known busy), fun target isTarget => ?_⟩)
      rw [noTarget] at isTarget
      cases isTarget
  | loadAdmitted =>
      exact Since.keep relies later fun _ known busy => watched (active_watches known busy)
  | loadDone =>
      refine Relies.checked (Since.keep relies later fun _ watches busy missing =>
        ⟨watched (watches busy), fun target isTarget => ?_⟩)
      -- the flag of the target was read in this step
      intro (happened : state.shared.done target = true)
      rw [isTarget, Option.any_some, happened] at missing
      cases missing
  | block | lockGate | addWaiter | unchanged | sleep | wake =>
      exact Since.keep relies later fun _ unready =>
        ⟨watched unready.1, fun target isTarget => watched (unready.2 target isTarget)⟩

theorem reachable_relies (reachable : (awaitSystem ι).Reachable state) (id : ι) :
    Relies state (state.locals (.waiter id)) := by
  induction reachable with
  | initial isInitial =>
      rw [isInitial.2]
      trivial
  | @step state next previous taken ih =>
      have counted := reachable_counted previous
      cases taken with
      | mk party moved =>
          have moves := advance_moves moved
          by_cases own : party = .waiter id
          · subst own
            cases moves with
            | waiter taken => simpa using Relies.own taken ih
          · have listens := le_total Pc.listens rfl (Program.started previous) (.waiter id)
            rw [← counted.targets] at listens
            simpa [Ne.symm own] using Relies.keep counted moves listens ih

/-! ## Waiting threads -/

/-- What is owed to a thread that waits at the condition variable. -/
structure Attended (state : Threads (Party ι) (Shared ι) (Pc ι)) (wait : Wait) : Prop where
  target : ∀ task, wait.target = some task → state.shared.done task = true →
    ∃ carrier, (state.locals (.carrier carrier)).Owes state.shared (.done task)
  drained : state.shared.retired wait.scope = state.shared.admitted wait.scope →
    (∃ carrier, (state.locals (.carrier carrier)).Owes state.shared (.drained wait.scope)) ∨
      ∃ client, (state.locals (.client client)).Owes state.shared (.drained wait.scope)

/-- In every interleaving a thread that waits since the last notification has not missed its
target or the end of its scope: whoever made it happen has still to notify. -/
theorem target_wait (reachable : (awaitSystem ι).Reachable state) {id : ι} {wait : Wait}
    (waits : state.locals (.waiter id) = .blocked wait state.shared.signal.notified) :
    Attended state wait := by
  have relies := reachable_relies reachable id
  rw [waits] at relies
  obtain ⟨drained, target⟩ := relies.now rfl
  constructor
  · intro task isTarget isDone
    rcases target task isTarget isDone with owed | ⟨scope, same, -⟩
    · exact owed
    · cases same
  · intro isDrained
    rcases drained isDrained with owed | ⟨scope, same, owed⟩
    · exact .inl owed
    · exact .inr owed

end Watching

/-! ## Runs -/

def scheduler (ι : Type) [DecidableEq ι] : (program ι).Scheduler (Choice ι) where
  next party choice shared pc := nextStep party choice shared pc
  sound _ choice _ _ _ taken := ⟨choice, taken⟩

def fresh : Threads (Party Unit) (Shared Unit) (Pc Unit) := ⟨.new, fun _ => .idle none⟩

theorem fresh_reachable : (awaitSystem Unit).Reachable fresh := .initial ⟨rfl, fun _ => rfl⟩

abbrev Schedule := List (Party Unit × Choice Unit)

/-- A task of scope 0 is admitted, and a thread starts to wait and takes some steps. -/
def startWait (wait : Wait) (steps : Nat) : Schedule :=
  ([(.client (), .submit 0 ()), (.client (), .accept), (.waiter (), .wait wait)] : Schedule) ++
    (List.replicate steps (.waiter (), .go) : Schedule)

theorem target_wait_queued : ∃ state, (awaitSystem Unit).Reachable state ∧
    state.locals (.waiter ()) = .blocked ⟨0, some 1, false⟩ 0 ∧ state.shared.done 1 = true ∧
    ∃ carrier, (state.locals (.carrier carrier)).Owes state.shared (.done 1) := by
  have runs : ((scheduler Unit).run (startWait ⟨0, some 1, false⟩ 10 ++
      [(.carrier (), .complete 1), (.carrier (), .go)]) fresh).map (fun state =>
        (state.locals (.waiter ()), state.shared.signal.notified, state.shared.done 1)) =
      some (.blocked ⟨0, some 1, false⟩ 0, 0, true) := by decide
  obtain ⟨state, run, view⟩ := Option.map_eq_some_iff.mp runs
  simp only [Prod.mk.injEq] at view
  obtain ⟨waits, notified, isDone⟩ := view
  have reachable := (scheduler Unit).run_reachable fresh_reachable run
  exact ⟨state, reachable, waits, isDone,
    (target_wait reachable (notified.symm ▸ waits)).target 1 rfl isDone⟩

/-- The last task of a scope is published while an admission is still to be taken back. -/
def releaseSchedule : Schedule :=
  ([(.client (), .submit 0 ()), (.client (), .accept), (.client (), .submit 0 ()),
    (.waiter (), .wait ⟨0, none, false⟩)] : Schedule) ++
    (List.replicate 9 (.waiter (), .go) : Schedule) ++
    ([(.carrier (), .complete 1), (.carrier (), .go), (.carrier (), .go), (.carrier (), .go),
      (.carrier (), .flush), (.carrier (), .go), (.carrier (), .go), (.carrier (), .go),
      (.client (), .reject), (.client (), .go)] : Schedule)

theorem release_owes : ∃ state, (awaitSystem Unit).Reachable state ∧
    state.locals (.waiter ()) = .blocked ⟨0, none, false⟩ state.shared.signal.notified ∧
    state.shared.signal.blocked () = true ∧ state.shared.retired 0 = 1 ∧
    state.shared.admitted 0 = 1 ∧
    ∀ carrier, state.locals (.carrier carrier) = .idle none := by
  have runs : ((scheduler Unit).run releaseSchedule fresh).map (fun state =>
      (state.locals (.waiter ()), state.shared.signal.notified, state.shared.signal.blocked (),
        state.shared.retired 0, state.shared.admitted 0, state.locals (.carrier ()))) =
      some (.blocked ⟨0, none, false⟩ 0, 0, true, 1, 1, .idle none) := by decide
  obtain ⟨state, run, view⟩ := Option.map_eq_some_iff.mp runs
  simp only [Prod.mk.injEq] at view
  obtain ⟨waits, notified, blocked, retired, admitted, carrier⟩ := view
  exact ⟨state, (scheduler Unit).run_reachable fresh_reachable run, notified.symm ▸ waits, blocked,
    retired, admitted, fun _ => carrier⟩

section Wrapped

variable {state : Threads (Party ι) (Shared ι) (Pc ι)}

/-- Replace the state of one party. -/
def moveTo (state : Threads (Party ι) (Shared ι) (Pc ι)) (party : Party ι) (shared : Shared ι)
    (pc : Pc ι) : Threads (Party ι) (Shared ι) (Pc ι) :=
  ⟨shared, fun other => if other = party then pc else state.locals other⟩

theorem step_reachable (reachable : (awaitSystem ι).Reachable state) {party : Party ι}
    (choice : Choice ι) {before : Pc ι} (stage : state.locals party = before)
    (taken : nextStep party choice state.shared before = some (shared, pc)) :
    (awaitSystem ι).Reachable (moveTo state party shared pc) :=
  .step reachable (.mk party ⟨choice, stage ▸ taken⟩)

/-- A client may notify at any time. -/
theorem notify_reachable (reachable : (awaitSystem ι).Reachable state) {id : ι}
    (idle : state.locals (.client id) = .idle none) (alone : state.shared.signal.waiters = 0) :
    (awaitSystem ι).Reachable ⟨{ state.shared with signal := { state.shared.signal with
      notified := state.shared.signal.notified + 1 } }, state.locals⟩ := by
  have first := step_reachable reachable .notify idle rfl
  have second := step_reachable first .go (if_pos rfl) rfl
  have third := step_reachable second .go (if_pos rfl)
    (congrArg (fun pc => some (_, pc)) (if_pos alone))
  convert third using 1
  refine congrArg (Threads.mk _) (funext fun other => ?_)
  by_cases own : other = .client id
  · simp [own, idle]
  · simp [moveTo, own]

theorem notify_many (reachable : (awaitSystem ι).Reachable state) {id : ι}
    (idle : state.locals (.client id) = .idle none) (alone : state.shared.signal.waiters = 0)
    (count : Nat) :
    (awaitSystem ι).Reachable ⟨{ state.shared with signal := { state.shared.signal with
      notified := state.shared.signal.notified + count } }, state.locals⟩ := by
  induction count with
  | zero => exact reachable
  | succ count ih => exact notify_reachable ih idle alone

/-- A thread that compares equal versions goes to sleep. -/
theorem sleep_reachable (reachable : (awaitSystem ι).Reachable state) {id : ι} {wait : Wait}
    {observed : Nat} (stage : state.locals (.waiter id) = .undone wait observed)
    (free : state.shared.signal.gate = none)
    (same : state.shared.signal.version = epochAt observed) :
    ∃ next, (awaitSystem ι).Reachable next ∧
      next.locals (.waiter id) = .blocked wait observed ∧
      next.shared.signal.blocked id = true ∧ next.shared.done = state.shared.done ∧
      next.shared.signal.notified = state.shared.signal.notified ∧
      ∀ party, party ≠ .waiter id → next.locals party = state.locals party := by
  have first := step_reachable reachable .go stage rfl
  have second := step_reachable first .go (if_pos rfl) (if_pos free)
  have third := step_reachable second .go (if_pos rfl) rfl
  have fourth := step_reachable third .go (if_pos rfl)
    (congrArg (fun pc => some (_, pc)) (if_pos same))
  have fifth := step_reachable fourth .go (if_pos rfl) rfl
  refine ⟨_, fifth, if_pos rfl, Function.update_self .., rfl, rfl, fun party other => ?_⟩
  simp [moveTo, other]

/-- A thread finds its target missing, and then the task completes. -/
def wrapSchedule : Schedule :=
  startWait ⟨0, some 1, false⟩ 5 ++
    ([(.carrier (), .complete 1)] : Schedule) ++ (List.replicate 7 (.carrier (), .go) : Schedule)

end Wrapped

theorem wrapped_missed : ∃ state, (awaitSystem Unit).Reachable state ∧
    state.locals (.waiter ()) = .blocked ⟨0, some 1, false⟩ 0 ∧
    state.shared.signal.blocked () = true ∧ state.shared.signal.version = epochAt 0 ∧
    state.shared.done 1 = true ∧
    ∀ party, party ≠ .waiter () → state.locals party = .idle none := by
  have runs : ((scheduler Unit).run wrapSchedule fresh).map (fun state =>
      ([state.locals (.waiter ()), state.locals (.carrier ()), state.locals (.client ())],
        state.shared.signal.notified, state.shared.signal.waiters, state.shared.signal.gate,
        state.shared.done 1)) =
      some ([.undone ⟨0, some 1, false⟩ 0, .idle none, .idle none], 1, 0, none, true) := by decide
  obtain ⟨state, run, view⟩ := Option.map_eq_some_iff.mp runs
  simp only [Prod.mk.injEq, List.cons.injEq] at view
  obtain ⟨⟨stage, carrier, client, -⟩, notified, waiters, gate, isDone⟩ := view
  have reachable := (scheduler Unit).run_reachable fresh_reachable run
  have wrapped := notify_many reachable client waiters (2 ^ 64 - 1)
  obtain ⟨next, reached, waits, blocked, done, count, others⟩ :=
    sleep_reachable wrapped stage gate (by
      show epochAt (state.shared.signal.notified + (2 ^ 64 - 1)) = epochAt 0
      rw [notified]
      decide)
  refine ⟨next, reached, waits, blocked, ?_, ?_, fun party other => ?_⟩
  · show epochAt next.shared.signal.notified = epochAt 0
    rw [count]
    show epochAt (state.shared.signal.notified + (2 ^ 64 - 1)) = epochAt 0
    rw [notified]
    decide
  · rw [done]
    exact isDone
  · rw [others party other]
    cases party with
    | waiter id => exact absurd rfl other
    | carrier id => exact carrier
    | client id => exact client

/-- A scope may be drained by the client that takes an admission back, which then owes the
notification; and a thread that sleeps through 2^64 notifications finds the version unchanged. -/
theorem unchanged_missed :
    (∃ state, (awaitSystem Unit).Reachable state ∧
      state.locals (.waiter ()) = .blocked ⟨0, none, false⟩ state.shared.signal.notified ∧
      state.shared.signal.blocked () = true ∧ state.shared.retired 0 = 1 ∧
      state.shared.admitted 0 = 1 ∧
      ∀ carrier, state.locals (.carrier carrier) = .idle none) ∧
    ∃ state, (awaitSystem Unit).Reachable state ∧
      state.locals (.waiter ()) = .blocked ⟨0, some 1, false⟩ 0 ∧
      state.shared.signal.blocked () = true ∧ state.shared.signal.version = epochAt 0 ∧
      state.shared.done 1 = true ∧
      ∀ party, party ≠ .waiter () → state.locals party = .idle none :=
  ⟨release_owes, wrapped_missed⟩

end VThread.Await

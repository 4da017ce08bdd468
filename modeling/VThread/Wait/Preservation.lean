import VThread.Wait.Invariant

/-!
# Changes keep the shared invariant
-/

namespace VThread.Wait

open VThread.Lib

variable {ι τ ρ η : Type}

namespace Record

theorem untouched_empty : (Record.empty : Record ι τ ρ η).Untouched :=
  ⟨rfl, rfl, rfl, rfl, rfl, rfl, rfl⟩

theorem current_congr {id : Nat} {left right : WaitWord} {record : Record ι τ ρ η}
    (phase : left.phase = right.phase) (generation : left.generation = right.generation) :
    record.Current id left ↔ record.Current id right := by
  rw [Current, Current, phase, generation]

variable {id : Nat} {word : WaitWord} {record : Record ι τ ρ η}

theorem Current.idle (current : record.Current id word) (phase : word.phase = .idle) :
    record.Over id word.generation := by
  rwa [Current, phase] at current

theorem Current.untouched (current : record.Current id word)
    (phase : word.phase = .binding ∨ word.phase = .active) :
    record.Untouched ∧ record.retired = false := by
  rcases phase with phase | phase <;> rwa [Current, phase] at current

theorem Current.claimed (current : record.Current id word) {cause : WakeCause}
    (phase : word.phase = .claim cause) :
    ∃ thread, record.claims = [(thread, cause)] ∧ record.published = [] ∧
      record.completed = [] ∧ record.finishes = [] ∧ record.retired = false ∧
      record.lateReads = 0 := by
  rwa [Current, phase] at current

theorem Current.selected (current : record.Current id word) {cause : WakeCause}
    (phase : word.phase = .selected cause) :
    ∃ thread, record.Won id word.generation thread cause ∧ record.finishes = [] ∧
      record.retired = false := by
  rwa [Current, phase] at current

end Record

namespace Shared

variable {shared : Shared ι τ ρ η}

theorem now_eq : shared.now = shared.history shared.cell.state.generation := rfl

@[simp] theorem setState_cell (next : WaitWord) :
    (shared.setState next).cell = { shared.cell with state := next } := rfl

@[simp] theorem setState_history (next : WaitWord) :
    (shared.setState next).history = shared.history := rfl

@[simp] theorem setState_issued (next : WaitWord) :
    (shared.setState next).issued = shared.issued := rfl

@[simp] theorem setState_storedPermit (next : WaitWord) :
    (shared.setState next).storedPermit = shared.storedPermit := rfl

section Note

variable (generation : Nat) (event : Record ι τ ρ η → Record ι τ ρ η)

@[simp] theorem note_cell : (shared.note generation event).cell = shared.cell := rfl

@[simp] theorem note_issued : (shared.note generation event).issued = shared.issued := rfl

@[simp] theorem note_storedPermit :
    (shared.note generation event).storedPermit = shared.storedPermit := rfl

@[simp] theorem note_self :
    (shared.note generation event).history generation = event (shared.history generation) :=
  Function.update_self ..

theorem note_ne {other : Nat} (ne : other ≠ generation) :
    (shared.note generation event).history other = shared.history other :=
  Function.update_of_ne ne ..

/-- What an event does not touch is the same in every generation. -/
theorem note_view {α : Type} (view : Record ι τ ρ η → α)
    (same : view (event (shared.history generation)) = view (shared.history generation))
    (other : Nat) :
    view ((shared.note generation event).history other) = view (shared.history other) := by
  by_cases equal : other = generation
  · rw [equal, note_self, same]
  · rw [note_ne _ _ equal]

end Note

theorem Inv.unstored (inv : shared.Inv) (unpermitted : shared.cell.state.permit = false) :
    shared.storedPermit = false := by
  cases claimed : shared.cell.state.isClaimed with
  | true => exact inv.claimed_unstored claimed
  | false =>
      have equal := inv.permit_eq
      simp only [claimed, unpermitted] at equal
      simpa using equal.symm

theorem Inv.generation_le_issued (inv : shared.Inv)
    (phase : shared.cell.state.phase ≠ .binding) :
    shared.issued = shared.cell.state.generation := by
  have equal := inv.issued_eq
  rwa [if_neg phase] at equal

end Shared

/-! ## Changes within a generation -/

section Change

open Shared

variable {thread : ι} {shared : Shared ι τ ρ η}

theorem Shared.Inv.adjust (inv : shared.Inv) {next : WaitWord}
    (notBinding : shared.cell.state.phase ≠ .binding)
    (unclaimed : shared.cell.state.isClaimed = false)
    (phase : next.phase = shared.cell.state.phase)
    (generation : next.generation = shared.cell.state.generation)
    (fallback : next.fallbackHub = shared.cell.state.fallbackHub)
    (keeps : shared.cell.state.phase = .active → next.permit = shared.cell.state.permit ∧
      next.closed = shared.cell.state.closed) :
    ({ shared.setState next with storedPermit := next.permit } : Shared ι τ ρ η).Inv where
  permit_eq := by
    have unclaimed' := (WaitWord.isClaimed_congr phase).trans unclaimed
    simp [unclaimed']
  claimed_unstored claimed := by
    have unclaimed' := (WaitWord.isClaimed_congr phase).trans unclaimed
    simp [unclaimed'] at claimed
  quiet live := by
    simp only [setState_cell, phase] at live ⊢
    have active := live.resolve_right notBinding
    rw [(keeps active).1, (keeps active).2]
    exact inv.quiet live
  issued_eq := by simpa [phase, generation] using inv.issued_eq
  started := by simpa [phase, generation, now_eq] using inv.started
  initialised := inv.initialised
  bound := by simpa [Cell.Holds, phase, generation, fallback, now_eq] using inv.bound
  future := by simpa [generation] using inv.future
  past := by simpa [generation] using inv.past
  current := by
    have current := inv.current
    rw [now_eq, ← Record.current_congr phase generation] at current
    simpa [now_eq, generation] using current

/-- A new generation starts with a target. -/
theorem Shared.Inv.start (inv : shared.Inv) {next : WaitWord}
    {event : Record ι τ ρ η → Record ι τ ρ η} {issued : Nat}
    (idle : shared.cell.state.phase = .idle)
    (unpermitted : shared.cell.state.permit = false)
    (phase : next.phase = .active ∨ next.phase = .binding)
    (generation : next.generation = shared.cell.state.generation + 1)
    (permit : next.permit = false) (closed : next.closed = false)
    (untouched : (event .empty).Untouched) (unretired : (event .empty).retired = false)
    (hasTarget : ∃ target, (event .empty).target = some target ∧
      (next.phase = .active → shared.cell.Holds target next.fallbackHub))
    (issued_eq : issued + (if next.phase = .binding then 1 else 0) = next.generation)
    (initialised : 0 < issued → shared.cell.task.isSome ∧ shared.cell.route.isSome ∧
      shared.cell.primaryHub.isSome) :
    ({ (shared.setState next).note next.generation event with issued } :
      Shared ι τ ρ η).Inv := by
  have unclaimed : next.isClaimed = false := by
    apply WaitWord.isClaimed_eq_false
    rcases phase with phase | phase <;> simp [phase]
  have fresh : shared.history next.generation = .empty := inv.future _ (by omega)
  exact {
    permit_eq := by simp [unclaimed, permit, inv.unstored unpermitted]
    claimed_unstored := fun claimed => by simp [unclaimed] at claimed
    quiet := fun _ => ⟨permit, closed⟩
    issued_eq := issued_eq
    started := fun _ => by
      obtain ⟨target, equal, -⟩ := hasTarget
      refine ⟨by simp [generation], target, ?_⟩
      simp [now_eq, fresh, equal]
    initialised := initialised
    bound := by
      intro _ notBinding other member
      obtain ⟨target, equal, holds⟩ := hasTarget
      simp only [now_eq, note_cell, setState_cell, note_self, setState_history, fresh,
        equal] at member
      cases member
      exact holds (phase.resolve_right notBinding)
    future := by
      intro other above
      simp only [note_cell, setState_cell] at above
      show ((shared.setState next).note next.generation event).history other = _
      rw [note_ne _ _ (by omega), setState_history]
      exact inv.future other (by omega)
    past := by
      intro other below
      simp only [note_cell, setState_cell] at below
      show (((shared.setState next).note next.generation event).history other).Over _ _
      rw [note_ne _ _ (by omega), setState_history]
      by_cases equal : other = shared.cell.state.generation
      · rw [equal]
        exact inv.current.idle idle
      · exact inv.past other (by omega)
    current := by
      have both : (event .empty).Untouched ∧ (event .empty).retired = false :=
        ⟨untouched, unretired⟩
      simp only [now_eq, note_cell, setState_cell, note_self, setState_history, fresh]
      rcases phase with phase | phase <;> simpa [Record.Current, phase] using both }

/-- Target writes happen while nothing reads the target. -/
theorem Shared.Inv.write (inv : shared.Inv) {cell : Cell τ ρ η}
    (binding : shared.cell.state.phase = .binding) (sameId : cell.id = shared.cell.id)
    (state : cell.state = shared.cell.state)
    (task : shared.cell.task.isSome → cell.task.isSome)
    (route : shared.cell.route.isSome → cell.route.isSome)
    (primary : shared.cell.primaryHub.isSome → cell.primaryHub.isSome) :
    ({ shared with cell } : Shared ι τ ρ η).Inv where
  permit_eq := by simpa [now_eq, state] using inv.permit_eq
  claimed_unstored := by simpa [state] using inv.claimed_unstored
  quiet := by simpa [state] using inv.quiet
  issued_eq := by simpa [state] using inv.issued_eq
  started := by simpa [now_eq, state] using inv.started
  initialised positive :=
    have known := inv.initialised positive
    ⟨task known.1, route known.2.1, primary known.2.2⟩
  bound _ notBinding := by simp [state, binding] at notBinding
  future := by simpa [state] using inv.future
  past := by simpa [state, sameId] using inv.past
  current := by simpa [now_eq, state, sameId] using inv.current

/-- Publishing a bound target. -/
theorem Shared.Inv.opened (inv : shared.Inv) {target : Target τ ρ η} {next : WaitWord}
    (binding : shared.cell.state.phase = .binding)
    (target_eq : shared.now.target = some target) (phase : next.phase = .active)
    (generation : next.generation = shared.cell.state.generation)
    (permit : next.permit = shared.cell.state.permit)
    (closed : next.closed = shared.cell.state.closed)
    (holds : shared.cell.Holds target next.fallbackHub)
    (primary : shared.cell.primaryHub.isSome) :
    ({ shared.setState next with issued := next.generation } : Shared ι τ ρ η).Inv := by
  have unclaimed : next.isClaimed = false := WaitWord.isClaimed_eq_false (by simp [phase])
  have quiet := inv.quiet (.inr binding)
  exact {
    permit_eq := by simp [unclaimed, permit, quiet.1, inv.unstored quiet.1]
    claimed_unstored := fun claimed => by simp [unclaimed] at claimed
    quiet := fun _ => by simp [permit, closed, quiet]
    issued_eq := by simp [phase]
    started := fun _ => by
      have started := inv.started (by simp [binding])
      simpa [now_eq, generation] using started
    initialised := fun _ => by simp [holds.1, holds.2.1, primary]
    bound := by
      intro _ _ other member
      simp only [now_eq, setState_cell, setState_history, generation] at member
      rw [now_eq, member] at target_eq
      cases target_eq
      exact holds
    future := by simpa [generation] using inv.future
    past := by simpa [generation] using inv.past
    current := by
      have current := inv.current.untouched (.inl binding)
      simpa [now_eq, generation, Record.Current, phase] using current }

/-- An event of the current generation together with a new word of that generation. -/
theorem Shared.Inv.event (inv : shared.Inv) {next : WaitWord}
    {event : Record ι τ ρ η → Record ι τ ρ η}
    (generation : next.generation = shared.cell.state.generation)
    (notIdle : shared.cell.state.phase ≠ .idle)
    (notBinding : shared.cell.state.phase ≠ .binding ∧ next.phase ≠ .binding)
    (fallback : next.phase ≠ .idle → next.fallbackHub = shared.cell.state.fallbackHub)
    (target_eq : (event shared.now).target = shared.now.target)
    (permit_eq : next.permit =
      if next.isClaimed then (event shared.now).interest else shared.storedPermit)
    (unstored : next.isClaimed = true → shared.storedPermit = false)
    (quiet : next.phase = .active → next.permit = false ∧ next.closed = false)
    (current : (event shared.now).Current shared.cell.id next) :
    ((shared.setState next).note next.generation event).Inv where
  permit_eq := by
    simpa [now_eq, generation] using permit_eq
  claimed_unstored := unstored
  quiet live := quiet (live.resolve_right notBinding.2)
  issued_eq := by
    have issued := inv.generation_le_issued notBinding.1
    simp [notBinding.2, issued, generation]
  started _ := by
    have started := inv.started notIdle
    simpa [now_eq, generation, target_eq] using started
  initialised := inv.initialised
  bound live _ := by
    have bound := inv.bound notIdle notBinding.1
    simp only [note_cell, setState_cell] at live ⊢
    simpa [now_eq, generation, target_eq, Cell.Holds, fallback live] using bound
  future other above := by
    simp only [note_cell, setState_cell] at above
    rw [note_ne _ _ (by omega), setState_history]
    exact inv.future other (by omega)
  past other below := by
    simp only [note_cell, setState_cell] at below ⊢
    rw [note_ne _ _ (by omega), setState_history]
    exact inv.past other (by omega)
  current := by simpa [now_eq, generation] using current

/-- An event of an ended or selected generation that keeps what is required of it. -/
theorem Shared.Inv.annotate (inv : shared.Inv) {generation : Nat}
    {event : Record ι τ ρ η → Record ι τ ρ η}
    (bounded : generation ≤ shared.cell.state.generation)
    (target_eq : (event (shared.history generation)).target =
      (shared.history generation).target)
    (interest : (event (shared.history generation)).interest =
      (shared.history generation).interest)
    (ended : generation < shared.cell.state.generation →
      (shared.history generation).Over shared.cell.id generation →
      (event (shared.history generation)).Over shared.cell.id generation)
    (current : generation = shared.cell.state.generation →
      (event shared.now).Current shared.cell.id shared.cell.state) :
    (shared.note generation event).Inv := by
  have now : ∀ {α : Type} (view : Record ι τ ρ η → α),
      view (event (shared.history generation)) = view (shared.history generation) →
      view (shared.note generation event).now = view shared.now := by
    intro α view same
    by_cases equal : shared.cell.state.generation = generation
    · simpa [now_eq, equal] using same
    · simp [now_eq, note_ne _ _ equal]
  exact {
    permit_eq := by
      rw [now (·.interest) interest]
      exact inv.permit_eq
    claimed_unstored := inv.claimed_unstored
    quiet := inv.quiet
    issued_eq := inv.issued_eq
    started := by
      rw [now (·.target) target_eq]
      exact inv.started
    initialised := inv.initialised
    bound := by
      rw [now (·.target) target_eq]
      exact inv.bound
    future := by
      intro other above
      rw [note_cell] at above
      rw [note_ne _ _ (by omega)]
      exact inv.future other above
    past := by
      intro other below
      rw [note_cell] at below ⊢
      by_cases equal : other = generation
      · subst equal
        rw [note_self]
        exact ended below (inv.past other below)
      · rw [note_ne _ _ equal]
        exact inv.past other below
    current := by
      by_cases equal : generation = shared.cell.state.generation
      · have same : (shared.note generation event).now = event shared.now := by
          simp [now_eq, equal]
        rw [same]
        exact current equal
      · have same : (shared.note generation event).now = shared.now := by
          simp [now_eq, note_ne _ _ (Ne.symm equal)]
        rw [same]
        exact inv.current }

end Change

/-! ## All changes -/

namespace Record

variable {id generation : Nat} {record : Record ι τ ρ η} {thread : ι} {cause : WakeCause}

/-- The owed completion signal is sent to the hub of the target. -/
theorem Won.complete (won : record.Won id generation thread cause)
    (interest : record.interest = true) (pending : record.completed = [])
    {target : Target τ ρ η} (target_eq : record.target = some target) :
    Won id generation { record with completed := (thread, target.hub) :: record.completed }
      thread cause :=
  { won with completed := .inr ⟨interest, target, target_eq, by rw [pending]⟩ }

/-- A selected generation ends with or without a finish that returns its cause. -/
theorem Won.retire (won : record.Won id generation thread cause)
    (unfinished : record.finishes = []) {finishes : List WakeCause}
    (atMost : finishes = [] ∨ finishes = [cause]) :
    Won id generation { record with finishes := finishes ++ record.finishes, retired := true }
      thread cause :=
  { won with finishes := by simpa [unfinished] using atMost }

end Record

theorem Shared.Inv.claim {shared : Shared ι τ ρ η} (inv : shared.Inv) (thread : ι)
    {cause : WakeCause} {next : WaitWord} (active : shared.cell.state.phase = .active)
    (phase : next.phase = .claim cause)
    (generation : next.generation = shared.cell.state.generation)
    (fallback : next.fallbackHub = shared.cell.state.fallbackHub)
    (permit : next.permit = false) :
    ((shared.setState next).note next.generation fun record =>
      { record with claims := (thread, cause) :: record.claims }).Inv := by
  obtain ⟨untouched, unretired⟩ := inv.current.untouched (.inr active)
  have claimed : next.isClaimed = true := WaitWord.isClaimed_iff.2 ⟨cause, phase⟩
  have unstored := inv.unstored (inv.quiet (.inl active)).1
  apply inv.event generation (by simp [active]) (by simp [active, phase]) (fun _ => fallback) rfl
  · simp [claimed, permit, untouched.interest]
  · exact fun _ => unstored
  · simp [phase]
  · rw [Record.Current, phase]
    exact ⟨thread, by simp [untouched.claims], untouched.published, untouched.completed,
      untouched.finishes, unretired, untouched.lateReads⟩

theorem Shared.Inv.interest {shared : Shared ι τ ρ η} (inv : shared.Inv)
    (claimed : shared.cell.state.isClaimed = true) :
    ((shared.setState (shared.cell.state.withPermit true)).note
      shared.cell.state.generation fun record => { record with interest := true }).Inv := by
  obtain ⟨cause, phase⟩ := WaitWord.isClaimed_iff.1 claimed
  have claimed' : (shared.cell.state.withPermit true).isClaimed = true := claimed
  have current := inv.current
  have phase' : (shared.cell.state.withPermit true).phase = .claim cause := phase
  refine inv.event rfl (by simp [phase]) (by simp [phase, phase']) (fun _ => rfl) rfl ?_ ?_ ?_ ?_
  · rw [if_pos claimed']
    rfl
  · exact fun _ => inv.claimed_unstored claimed
  · simp [phase']
  · rw [Record.Current, phase] at current
    rw [Record.Current, phase']
    exact current

theorem Shared.Inv.publish {shared : Shared ι τ ρ η} (inv : shared.Inv) {thread : ι}
    {cause : WakeCause} (phase : shared.cell.state.phase = .claim cause)
    (claims : shared.now.claims = [(thread, cause)])
    (delivered : shared.now.Delivered shared.cell.id shared.cell.state.generation thread
      cause) :
    ((shared.setState ((shared.cell.state.withPermit false).withPhase (.selected cause))).note
      shared.cell.state.generation fun record =>
        { record with published := (thread, some cause) :: record.published }).Inv := by
  obtain ⟨_, -, published, completed, finishes, unretired, lateReads⟩ :=
    inv.current.claimed phase
  have claimed : shared.cell.state.isClaimed = true := WaitWord.isClaimed_iff.2 ⟨cause, phase⟩
  refine inv.event rfl (by simp [phase]) (by simp [phase, WaitWord.withPhase]) (fun _ => rfl) rfl
    ?_ ?_ ?_ ?_
  · exact (inv.claimed_unstored claimed).symm
  · exact fun isClaimed => by simp [WaitWord.withPhase, WaitWord.isClaimed] at isClaimed
  · simp [WaitWord.withPhase]
  · exact ⟨thread, ⟨claims, by simp [published], delivered, .inl completed, .inl finishes,
      lateReads⟩, finishes, unretired⟩

theorem Shared.Inv.retire {shared : Shared ι τ ρ η} (inv : shared.Inv) {next : WaitWord}
    {finishes : List WakeCause}
    (ending : shared.cell.state.phase = .active ∧ finishes = [] ∨
      ∃ cause, shared.cell.state.phase = .selected cause ∧
        (finishes = [] ∨ finishes = [cause]))
    (phase : next.phase = .idle)
    (generation : next.generation = shared.cell.state.generation)
    (permit : next.permit = shared.cell.state.permit) :
    ((shared.setState next).note next.generation fun record =>
      { record with finishes := finishes ++ record.finishes, retired := true }).Inv := by
  have unclaimed : next.isClaimed = false := WaitWord.isClaimed_eq_false (by simp [phase])
  have unclaimedOld : shared.cell.state.isClaimed = false := by
    apply WaitWord.isClaimed_eq_false
    rcases ending with ⟨active, -⟩ | ⟨cause, selected, -⟩
    · simp [active]
    · simp [selected]
  have permit_eq := inv.permit_eq
  simp only [unclaimedOld, Bool.false_eq_true, if_false] at permit_eq
  refine inv.event generation ?_ ?_ (fun live => (live phase).elim) rfl ?_ ?_ ?_ ?_
  · rcases ending with ⟨active, -⟩ | ⟨cause, selected, -⟩
    · simp [active]
    · simp [selected]
  · rcases ending with ⟨active, -⟩ | ⟨cause, selected, -⟩
    · simp [active, phase]
    · simp [selected, phase]
  · simp [unclaimed, permit, permit_eq]
  · exact fun claimed => by simp [unclaimed] at claimed
  · simp [phase]
  · rw [Record.Current, phase]
    refine ⟨fun _ => rfl, ?_⟩
    rcases ending with ⟨active, rfl⟩ | ⟨cause, selected, atMost⟩
    · exact .inl { (inv.current.untouched (.inr active)).1 with }
    · obtain ⟨thread, won, unfinished, -⟩ := inv.current.selected selected
      rw [← generation] at won
      exact .inr ⟨thread, cause, won.retire unfinished atMost⟩

/-- The invariant survives every change. -/
theorem Change.inv {thread : ι} {shared shared' : Shared ι τ ρ η}
    (change : Change thread shared shared') (inv : shared.Inv) : shared'.Inv := by
  cases change with
  | same => exact inv
  | adjust next notBinding unclaimed phase generation fallback keeps =>
      exact inv.adjust notBinding unclaimed phase generation fallback keeps
  | activate target next idle unpermitted phase generation permit closed holds primary =>
      refine inv.start idle unpermitted (.inl phase) generation permit closed
        ⟨rfl, rfl, rfl, rfl, rfl, rfl, rfl⟩ rfl ⟨target, rfl, fun _ => holds⟩ (by simp [phase]) ?_
      exact fun _ => ⟨by simp [holds.1], by simp [holds.2.1], primary⟩
  | bind target next idle unpermitted phase generation permit closed =>
      have issued := inv.generation_le_issued (by simp [idle])
      let event (record : Record ι τ ρ η) : Record ι τ ρ η :=
        { record with target := some target, binder := some thread }
      have untouched : (event .empty).Untouched := ⟨rfl, rfl, rfl, rfl, rfl, rfl, rfl⟩
      exact inv.start idle unpermitted (.inr phase) generation permit closed untouched rfl
        ⟨target, rfl, by simp [phase]⟩ (by simp [phase, issued, generation]) inv.initialised
  | write _ binding _ sameId state task route primary =>
      exact inv.write binding sameId state task route primary
  | opened _ _ binding _ targetEq phase generation permit closed holds primary =>
      exact inv.opened binding targetEq phase generation permit closed holds primary
  | claim cause next active phase generation fallback permit =>
      exact inv.claim thread active phase generation fallback permit
  | interest claimed => exact inv.interest claimed
  | hand _ _ _ phase =>
      refine inv.annotate (Nat.le_refl _) rfl rfl (fun below => absurd below (Nat.lt_irrefl _)) ?_
      intro _
      have current := inv.current
      rw [Record.Current, phase] at current ⊢
      exact current
  | publish cause next phase claims delivered next_eq =>
      subst next_eq
      exact inv.publish phase claims delivered
  | complete generation cause target won interest completed targetEq =>
      have bounded : generation ≤ shared.cell.state.generation := by
        by_contra above
        have claims := won.claims
        rw [inv.future generation (by omega)] at claims
        cases claims
      refine inv.annotate bounded rfl rfl ?_ ?_
      · rintro - ⟨retired, untouched | ⟨owner, other, otherWon⟩⟩
        · have claims := won.claims
          rw [untouched.claims] at claims
          cases claims
        · have claims := won.claims
          rw [otherWon.claims] at claims
          cases claims
          exact ⟨retired, .inr ⟨thread, cause, won.complete interest completed targetEq⟩⟩
      · rintro rfl
        have won' := won.complete interest completed targetEq
        have current := inv.current
        cases phase : shared.cell.state.phase with
        | idle =>
            rw [Record.Current, phase] at current ⊢
            exact ⟨current.1, .inr ⟨thread, cause, won'⟩⟩
        | binding =>
            have claims := won.claims
            rw [(current.untouched (.inl phase)).1.claims] at claims
            cases claims
        | active =>
            have claims := won.claims
            rw [(current.untouched (.inr phase)).1.claims] at claims
            cases claims
        | claim other =>
            have published := won.published
            obtain ⟨_, -, unpublished, -⟩ := current.claimed phase
            rw [unpublished] at published
            cases published
        | selected other =>
            obtain ⟨owner, otherWon, unfinished, unretired⟩ := current.selected phase
            have claims := won.claims
            rw [otherWon.claims] at claims
            cases claims
            rw [Record.Current, phase]
            exact ⟨thread, won', unfinished, unretired⟩
  | retire _ _ ending phase generation permit =>
      exact inv.retire ending phase generation permit

end VThread.Wait

import VThread.Wait.Winner

/-!
# Completion of a publication

The permit bit of a claimed word is the owner's interest in the publication.  The winner
that finds it clears it with the publication and signals the hub of its generation once.
-/

namespace VThread.Wait

open VThread.Lib

variable {ι τ ρ η : Type}

section Change

variable {thread : ι} {shared shared' : Shared ι τ ρ η}

/-- A stored permit comes and goes outside of claims only. -/
theorem Change.storedPermit (change : Change thread shared shared')
    (claimed : shared.cell.state.isClaimed = true) :
    shared'.storedPermit = shared.storedPermit := by
  cases change with
  | adjust _ _ unclaimed =>
      rw [claimed] at unclaimed
      cases unclaimed
  | _ => rfl

/-- A publication signals nothing by itself. -/
theorem Change.completed_back (change : Change thread shared shared') (inv : shared.Inv)
    {generation : Nat} {winner : ι} {cause : WakeCause}
    (claims : (shared.history generation).claims = [(winner, cause)])
    (unpublished : (shared.history generation).published = []) :
    (shared'.history generation).completed = [] := by
  rw [← (inv.unsettled claims unpublished).1]
  cases change with
  | activate target next =>
      exact @Shared.note_view _ _ _ _ (shared.setState next) next.generation
        (fun record => { record with target := some target }) _ Record.completed rfl generation
  | bind | claim | interest | hand | publish | retire =>
      exact Shared.note_view _ _ Record.completed (by rfl) generation
  | complete at_ _ _ won =>
      have ne : generation ≠ at_ := by
        intro equal
        rw [equal, won.published] at unpublished
        cases unpublished
      rw [Shared.note_ne _ _ ne]
  | _ => rfl

/-- A thread that owes a signal is about to send it to the hub of the generation. -/
theorem Local.completing {pc : Pc τ ρ η} (mine : Local thread shared pc) {generation : Nat}
    (owed : pc.owesCompletion = some generation) {target : Target τ ρ η}
    (target_eq : (shared.history generation).target = some target) :
    ∃ op outcome, pc = .run op (.complete outcome generation target.hub) := by
  cases pc with
  | rest last => cases owed
  | panicked => cases owed
  | run op stage =>
      cases stage with
      | complete outcome =>
          cases owed
          obtain ⟨-, -, -, -, ⟨other, other_eq, rfl⟩, -⟩ := mine.fact
          rw [target_eq] at other_eq
          cases other_eq
          exact ⟨op, outcome, rfl⟩
      | _ => cases owed

/-- No winner has read a target after its publication. -/
theorem Shared.Inv.lateReads (inv : shared.Inv) (generation : Nat) :
    (shared.history generation).lateReads = 0 := by
  rcases inv.untouched_or_claimed generation with untouched | ⟨winner, cause, claims⟩
  · exact untouched.lateReads
  by_cases published : (shared.history generation).published = []
  · exact (inv.unsettled claims published).2.2
  · exact (inv.won claims published).lateReads

end Change

section Law

variable [DecidableEq ι] [DecidableEq τ] [DecidableEq ρ] [DecidableEq η]

/-- What holds of publications and completion signals in one state. -/
structure Completion (state : Threads ι (Shared ι τ ρ η) (Pc τ ρ η)) : Prop where
  /-- On a claimed word the permit bit is interest, and no permit is stored. -/
  claimed : state.shared.cell.state.isClaimed = true →
    state.shared.cell.state.permit = state.shared.now.interest ∧
      state.shared.storedPermit = false
  /-- On any other word the permit bit is the stored permit. -/
  unclaimed : state.shared.cell.state.isClaimed = false →
    state.shared.cell.state.permit = state.shared.storedPermit
  /-- No assertion fails. -/
  sound : ∀ thread message, state.locals thread ≠ .panicked message
  /-- An owner that was told to wait has registered its interest. -/
  answered : ∀ thread op outcome, state.locals thread = .rest (some (op, outcome)) →
    outcome = .inFlight ∨ outcome = .deferred →
    ∃ token ∈ op.token?, (state.shared.history token.generation).interest = true
  /-- The winner of a generation with interest signals its hub once: it has done so, is
  about to, or has not published yet. -/
  signalled : ∀ generation, (state.shared.history generation).interest = true →
    ∃ thread cause, (state.shared.history generation).claims = [(thread, cause)] ∧
      (((state.shared.history generation).published = [] ∧
          (state.shared.history generation).completed = [] ∧
          (state.locals thread).owes = some generation) ∨
        ((state.shared.history generation).published = [(thread, some cause)] ∧
          ∃ target, (state.shared.history generation).target = some target ∧
            ((state.shared.history generation).completed = [(thread, target.hub)] ∨
              (state.shared.history generation).completed = [] ∧
              ∃ op outcome, state.locals thread =
                .run op (.complete outcome generation target.hub))))
  /-- Without interest there is no signal. -/
  unasked : ∀ generation, (state.shared.history generation).interest = false →
    (state.shared.history generation).completed = []
  /-- No winner reads the target after its publication. -/
  unread : ∀ generation, (state.shared.history generation).lateReads = 0

/-- What one atomic step of `thread` does to publications and completion signals. -/
structure CompletionStep (thread : ι) (shared : Shared ι τ ρ η) (pc : Pc τ ρ η)
    (shared' : Shared ι τ ρ η) (pc' : Pc τ ρ η) : Prop where
  /-- A publication neither stores nor loses a permit. -/
  permit : shared.cell.state.isClaimed = true →
    shared'.storedPermit = shared.storedPermit ∧
      (shared'.cell.state.isClaimed = false →
        shared'.cell.state.permit = shared.storedPermit)
  /-- A winner comes closer to its publication; when it publishes and there is interest, it
  signals next. -/
  publishes : ∀ generation cause,
    (shared.history generation).claims = [(thread, cause)] →
    (shared.history generation).published = [] →
    (pc'.owes = some generation ∧ pc'.rank < pc.rank) ∨
      ((shared'.history generation).published = [(thread, some cause)] ∧
        ((shared'.history generation).interest = true →
          pc'.owesCompletion = some generation))
  /-- The signal goes to the hub of the generation. -/
  signals : ∀ op outcome generation hub, pc = .run op (.complete outcome generation hub) →
    (shared'.history generation).completed = [(thread, hub)] ∧
      ∃ target, (shared'.history generation).target = some target ∧ target.hub = hub

variable {state : Threads ι (Shared ι τ ρ η) (Pc τ ρ η)}

theorem reachable_completion (reachable : (cellSystem ι τ ρ η).Reachable state) :
    Completion state := by
  obtain ⟨inv, locals⟩ := reachable_inv reachable
  constructor
  · intro claimed
    have permit := inv.permit_eq
    rw [if_pos claimed] at permit
    exact ⟨permit, inv.claimed_unstored claimed⟩
  · intro unclaimed
    have permit := inv.permit_eq
    rw [unclaimed] at permit
    exact permit
  · intro thread message panicked
    have fact := (locals thread).fact
    rw [panicked] at fact
    exact fact
  · intro thread op outcome rest pending
    have fact := (locals thread).fact
    rw [rest] at fact
    exact fact.1 pending
  · intro generation interest
    rcases inv.untouched_or_claimed generation with untouched | ⟨thread, cause, claims⟩
    · rw [untouched.interest] at interest
      cases interest
    refine ⟨thread, cause, claims, ?_⟩
    by_cases published : (state.shared.history generation).published = []
    · exact .inl ⟨published, (inv.unsettled claims published).1,
        (locals thread).owes generation cause claims published⟩
    right
    have won := inv.won claims published
    obtain ⟨target, carrier, target_eq, -⟩ := won.delivered
    refine ⟨won.published, target, target_eq, ?_⟩
    rcases won.completed with incomplete | ⟨-, other, other_eq, completed⟩
    · have owed := (locals thread).owesCompletion generation cause claims published interest
        incomplete
      refine .inr ⟨incomplete, ?_⟩
      exact (locals thread).completing owed target_eq
    · rw [target_eq] at other_eq
      cases other_eq
      exact .inl completed
  · intro generation unregistered
    rcases inv.untouched_or_claimed generation with untouched | ⟨thread, cause, claims⟩
    · exact untouched.completed
    by_cases published : (state.shared.history generation).published = []
    · exact (inv.unsettled claims published).1
    · rcases (inv.won claims published).completed with incomplete | ⟨interest, -⟩
      · exact incomplete
      · rw [interest] at unregistered
        cases unregistered
  · exact inv.lateReads

theorem reachable_completionStep (reachable : (cellSystem ι τ ρ η).Reachable state) {thread : ι}
    {shared' : Shared ι τ ρ η} {pc' : Pc τ ρ η}
    (advance : Advance thread state.shared (state.locals thread) shared' pc') :
    CompletionStep thread state.shared (state.locals thread) shared' pc' := by
  obtain ⟨inv, locals⟩ := reachable_inv reachable
  have mine := locals thread
  obtain ⟨change, mine'⟩ := advance_own inv mine advance
  have inv' := change.inv inv
  have winner := (reachable_winnerStep reachable advance).publishes
  constructor
  · intro claimed
    have stored := change.storedPermit claimed
    refine ⟨stored, fun unclaimed => ?_⟩
    have permit := inv'.permit_eq
    rw [unclaimed] at permit
    exact permit.trans stored
  · intro generation cause claims unpublished
    rcases winner generation cause claims unpublished with closer | ⟨published, -, -⟩
    · exact .inl closer
    · refine .inr ⟨published, fun interest => ?_⟩
      have claims' := change.claims_kept inv claims
      have incomplete : (shared'.history generation).completed = [] :=
        change.completed_back inv claims unpublished
      exact mine'.owesCompletion generation cause claims' (by simp [published]) interest
        incomplete
  · intro op outcome generation hub pc
    obtain ⟨choice, moved⟩ := advance
    rw [pc] at moved mine
    obtain ⟨-, ⟨cause, won⟩, interest, incomplete, ⟨target, target_eq, hub_eq⟩, -⟩ := mine.fact
    change (shared', pc') = _ at moved
    have shared_eq : shared' = (advanceStage thread choice state.shared op
        (.complete outcome generation hub)).1 := congrArg Prod.fst moved
    rw [shared_eq, advanceStage, Shared.note_self, incomplete]
    exact ⟨rfl, target, target_eq, hub_eq⟩

/-- In every reachable state of every interleaving the permit bit of a claimed word is the
owner's interest, which no publication turns into a stored permit; no assertion fails; when an
owner was told to wait, the winner of its generation signals the hub of the generation exactly
once; and a winner reads no target after its publication.  Every step keeps to this. -/
theorem publication_completion (reachable : (cellSystem ι τ ρ η).Reachable state) :
    Completion state ∧ ∀ thread shared' pc',
      Advance thread state.shared (state.locals thread) shared' pc' →
        CompletionStep thread state.shared (state.locals thread) shared' pc' :=
  ⟨reachable_completion reachable, fun _ _ _ => reachable_completionStep reachable⟩

/-- The owner of a claimed generation asks for its publication before the notifier has read
the target. -/
def interestedSchedule : List (Bool × Choice Nat Nat Nat) :=
  List.replicate 10 (false, ⟨.begin ⟨7, 3, 5⟩, false, false⟩) ++
    List.replicate 3 (true, ⟨.notify, false, false⟩) ++
    List.replicate 3 (false, ⟨.publication ⟨1, 1⟩, false, false⟩) ++
    List.replicate 10 (true, ⟨.notify, false, false⟩)

theorem publication_completion_interested :
    ∃ state, (scheduler Bool Nat Nat Nat).run interestedSchedule (fresh 1) = some state ∧
      (state.shared.history 1).interest = true ∧
      (state.shared.history 1).completed = [(true, 5)] ∧ Completion state := by
  have runs : ((scheduler Bool Nat Nat Nat).run interestedSchedule (fresh 1)).map
      (fun state => ((state.shared.history 1).interest, (state.shared.history 1).completed)) =
        some (true, [(true, 5)]) := by decide
  obtain ⟨state, runs, view⟩ := Option.map_eq_some_iff.1 runs
  have reachable := (scheduler Bool Nat Nat Nat).run_reachable (fresh_reachable 1) runs
  exact ⟨state, runs, congrArg Prod.fst view, congrArg Prod.snd view,
    (publication_completion reachable).1⟩

end Law

end VThread.Wait

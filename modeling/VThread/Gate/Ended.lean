import VThread.Gate.Balance

/-!
# The end of a ticket

What one step of a thread makes of a take that starts at a closed gate, and of a ticket that
a close has found in the queue.
-/

namespace VThread.Gate

open VThread.Lib VThread.Wait

variable {ι : Type} [DecidableEq ι] {thread other : ι} {shared shared' : Shared ι} {pc pc' : Pc ι}
  {view view' : View} {available maximum : Nat} {choice : Choice ι}
  {state state' : Threads ι (Shared ι) (Pc ι)}

/-- No step opens a gate. -/
theorem Flow.closed {call : Call ι} (flow : Flow thread call shared shared' pc pc')
    (closed : shared.closed = true) : shared'.closed = true := by
  cases flow with
  | start starts =>
      cases starts with
      | signal same =>
          rw [same]
          exact closed
      | broadcast broadcasts => exact broadcasts.still.closed.trans closed
      | close closes =>
          rw [Shared.close, Option.map_eq_some_iff] at closes
          obtain ⟨word, -, rfl⟩ := closes
          rfl
      | other _ _ _ still => exact still.closed.trans closed
  | take _ same =>
      rw [same]
      exact closed
  | retry same =>
      rw [same]
      exact closed
  | subscribe subscribes =>
      cases subscribes with
      | closed _ still => exact still.closed.trans closed
      | granted _ _ _ _ _ _ same => exact same.trans closed
      | queued _ _ still => exact still.closed.trans closed
  | complete selection same => cases selection <;> rw [same] <;> exact closed
  | pass _ same =>
      rw [same]
      exact closed
  | release _ _ same =>
      rw [same]
      exact closed
  | signal signals => cases signals <;> exact closed
  | still _ still => exact still.closed.trans closed

/-! ## Later takes -/

/-- Calls that take nothing from a closed gate. -/
def Pc.barred : Pc ι → Bool
  | .rest _ | .tryTake _ .start | .signal _ | .publish _ _ _ => true
  | _ => false

theorem start_barred {call : Call ι}
    (taken : call.start thread choice shared = some (shared', pc')) : pc'.barred = true := by
  cases call with
  | tryTake =>
      cases taken
      rfl
  | take =>
      cases taken
      cases choice.failure <;> rfl
  | signal =>
      cases taken
      rfl
  | broadcast | close =>
      rw [Call.start, Option.map_eq_some_iff] at taken
      obtain ⟨result, -, equal⟩ := taken
      cases equal
      rfl
  | elsewhere word =>
      rw [Call.start] at taken
      split at taken <;> cases taken
      rfl
  | select =>
      rw [Call.start] at taken
      split at taken
      · split at taken <;> cases taken
        rfl
      · cases taken
  | query task =>
      rw [Call.start] at taken
      split at taken <;> cases taken
      rfl

/-- A take that starts at a closed gate is refused. -/
theorem barred_step (fits : Fits (shared.view thread) pc) (inv : shared.Inv)
    (owing : Owing shared thread pc) (barred : pc.barred = true) (closed : shared.closed = true)
    (taken : step thread choice shared pc = some (shared', pc')) :
    pc'.barred = true ∧ (pc.taking = true → pc' = .rest (.error .closed)) := by
  cases pc with
  | rest last => exact ⟨start_barred taken, by rintro ⟨⟩⟩
  | tryTake waits stage =>
      cases stage with
      | start =>
          have taken := Option.some.inj taken
          rw [TryTake.step, if_pos closed] at taken
          cases taken
          exact ⟨rfl, fun _ => rfl⟩
      | load | exchange | recheck => cases barred
  | signal last =>
      cases signals last taken <;> exact ⟨rfl, by rintro ⟨⟩⟩
  | publish _ _ last =>
      obtain ⟨published, publishes, -⟩ := publish_sound inv fits owing last
      rw [step, publishes] at taken
      cases taken
      exact ⟨rfl, by rintro ⟨⟩⟩
  | enter | reserve | subscribe | waiting | check | loadClosed | takeResource | complete
  | dropTicket | dropClosed | reset | release | panicked => cases barred

/-! ## Queued tickets -/

/-- The error of a ticket that a close finds in the queue: that of an earlier winner of its
generation, or that of the failure which it is rolling back or being dropped for. -/
def Pc.verdict (timed : Bool) (word : WaitWord) : Pc ι → Error
  | .waiting (.parked _) =>
      match word.phase with
      | .selected cause =>
          match selected cause timed with
          | .error error => error
          | .ok _ => .closed
      | _ => .closed
  | .waiting (.rollback _ error) | .dropTicket error => error
  | _ => .closed

/-- Where a ticket stands that a close has ended, when its call may end with some errors. -/
def Ending (ends : Error → Prop) (view : View) : Pc ι → Prop
  | .waiting .begin => view.word.closed = true ∧ view.word.phase = .idle ∧ ends .closed
  | .waiting (.parked _) => ∃ cause, view.word.phase = .selected cause ∧
      ((∃ error, selected cause view.timed = .error error ∧ ends error) ∨
        cause = .closed ∧ ends .closed)
  | .waiting (.rollback _ error) => ends error ∧ ∃ cause, view.word.phase = .selected cause
  | .check | .loadClosed => view.word.phase = .idle ∧ ends .closed
  | .dropTicket error => view.word.phase = .idle ∧ ends error
  | .dropClosed selection error | .reset selection error | .release selection error =>
      view.word.phase = .idle ∧ selection = none ∧ ends error
  | .rest last => view.word.phase = .idle ∧ ∃ error, last = .error error ∧ ends error
  | _ => False

/-- Steps that an ended ticket has before it at most. -/
def Pc.remaining : Pc ι → Nat
  | .waiting (.parked _) => 8
  | .waiting _ => 7
  | .check => 6
  | .loadClosed => 5
  | .dropTicket _ => 4
  | .dropClosed _ _ => 3
  | .reset _ _ => 2
  | .release _ _ => 1
  | _ => 0

/-- A ticket that a close has ended is in no queue and has no selection. -/
structure Ended (ends : Error → Prop) (view : View) (pc : Pc ι) : Prop where
  queued : ¬ view.queued
  resource : view.word.resource = none
  closed : view.closed = true
  stands : Ending ends view pc

namespace Ended

variable {ends : Error → Prop}

omit [DecidableEq ι] in
/-- Nobody selects or queries an ended ticket. -/
theorem settled (ended : Ended ends view pc) :
    view.word.phase ≠ .active ∧ view.word.isClaimed = false := by
  have idles : view.word.phase = .idle →
      view.word.phase ≠ .active ∧ view.word.isClaimed = false := by
    intro idle
    exact ⟨by simp [idle], unclaimed_of_idle idle⟩
  have selects : ∀ cause, view.word.phase = .selected cause →
      view.word.phase ≠ .active ∧ view.word.isClaimed = false := by
    intro cause phase
    exact ⟨by simp [phase], WaitWord.isClaimed_eq_false (by simp [phase])⟩
  have stands := ended.stands
  cases pc with
  | waiting stage =>
      cases stage with
      | begin => exact idles stands.2.1
      | bind => exact stands.elim
      | parked =>
          obtain ⟨cause, phase, -⟩ := stands
          exact selects cause phase
      | rollback =>
          obtain ⟨-, cause, phase⟩ := stands
          exact selects cause phase
  | check | loadClosed | dropTicket | dropClosed | reset | release | rest => exact idles stands.1
  | tryTake | enter | reserve | subscribe | takeResource | complete | signal | publish
  | panicked => exact stands.elim

omit [DecidableEq ι] in
/-- Steps of other threads leave an ended ticket alone. -/
theorem move (ended : Ended ends view pc) (moved : view.Move view') : view' = view := by
  obtain ⟨inactive, unclaimed⟩ := ended.settled
  cases moved with
  | same => rfl
  | selected _ active => exact absurd active inactive
  | published cause claimed =>
      rw [WaitWord.isClaimed_iff.mpr ⟨cause, claimed⟩] at unclaimed
      cases unclaimed
  | queried claimed =>
      rw [claimed] at unclaimed
      cases unclaimed
  | offered _ _ queued => exact absurd queued ended.queued
  | refused queued => exact absurd queued ended.queued
  | closed _ queued => exact absurd queued ended.queued
  | gate =>
      rw [← ended.closed]

/-- An ended ticket always goes on, to its error or to that of a check of its own which fails. -/
theorem step (ended : Ended ends (shared.view thread) pc) (inv : shared.Inv)
    (fits : Fits (shared.view thread) pc) (running : pc.rests = false)
    (own : ∀ error, choice.failure = some error ∨ choice.park.failure = some error → ends error) :
    ∃ shared' pc', Gate.step thread choice shared pc = some (shared', pc') ∧
      pc'.remaining < pc.remaining ∧ Ended ends (shared'.view thread) pc' := by
  obtain ⟨absent, resource, closed, stands⟩ := ended
  have gate : shared.closed = true := closed
  have same : ∀ {pc' : Pc ι}, Ending ends (shared.view thread) pc' →
      Ended ends (shared.view thread) pc' :=
    fun stands => ⟨absent, resource, closed, stands⟩
  have word : ∀ {pc' : Pc ι} {word : WaitWord}, word.resource = none →
      Ending ends { shared.view thread with word } pc' →
      Ended ends ((shared.setWord thread word).view thread) pc' := by
    intro pc' word resource stands
    rw [Shared.view_setWord_self]
    exact ⟨absent, resource, closed, stands⟩
  cases pc with
  | waiting stage =>
      cases stage with
      | begin =>
          obtain ⟨shut, idle, allowed⟩ := stands
          have shut' : (shared.word thread).closed = true := shut
          have idle' : (shared.word thread).phase = .idle := idle
          cases failure : choice.park.failure with
          | some error =>
              refine ⟨_, .dropTicket error, ?_, by simp [Pc.remaining],
                word resource ⟨idle, own error (.inr failure)⟩⟩
              simp [Gate.step, Parking.step, Parking.stepBegin, failure]
              rfl
          | none =>
              refine ⟨_, .check, ?_, by simp [Pc.remaining], word resource ⟨idle, allowed⟩⟩
              simp [Gate.step, Parking.step, Parking.stepBegin, failure, beginResident, idle',
                shut', selected]
              rfl
      | bind => exact stands.elim
      | parked generation =>
          obtain ⟨cause, phase, outcome⟩ := stands
          have phase' : (shared.word thread).phase = .selected cause := phase
          have current : (shared.word thread).generation = generation := fits.2.1.1
          cases failure : choice.park.failure with
          | some error =>
              refine ⟨_, .waiting (.rollback generation error), ?_, by simp [Pc.remaining],
                word resource ⟨own error (.inr failure), cause, phase⟩⟩
              simp [Gate.step, Parking.step, failure]
              rfl
          | none =>
              have finishes : Parking.step false (shared.timed thread) choice.park
                  (shared.word thread) (.parked generation) =
                    some ((shared.word thread).retire,
                      .returns (selected cause (shared.timed thread))) := by
                simp [Parking.step, failure, Parking.stepFinish, finishSlow, current, phase',
                  WaitWord.selectedCause, WaitWord.isClaimed]
              rcases outcome with ⟨error, denied, allowed⟩ | ⟨rfl, allowed⟩
              · have denied' : selected cause (shared.timed thread) = .error error := denied
                refine ⟨shared.setWord thread (shared.word thread).retire, .dropTicket error, ?_,
                  by simp [Pc.remaining], word resource ⟨rfl, allowed⟩⟩
                rw [Gate.step, finishes, denied']
                rfl
              · refine ⟨shared.setWord thread (shared.word thread).retire, .check, ?_,
                  by simp [Pc.remaining], word resource ⟨rfl, allowed⟩⟩
                rw [Gate.step, finishes]
                rfl
      | rollback generation error =>
          obtain ⟨allowed, cause, phase⟩ := stands
          have phase' : (shared.word thread).phase = .selected cause := phase
          have current : (shared.word thread).generation = generation := fits.2.1.1
          refine ⟨shared.setWord thread (shared.word thread).retire, .dropTicket error, ?_,
            by simp [Pc.remaining], word resource ⟨rfl, allowed⟩⟩
          simp [Gate.step, Parking.step, Parking.stepRollback, tryRetire, current, phase',
            WaitWord.isClaimed]
  | check =>
      cases failure : choice.failure with
      | some error =>
          refine ⟨_, .dropTicket error, ?_, by simp [Pc.remaining],
            same ⟨stands.1, own error (.inl failure)⟩⟩
          rw [Gate.step, failure]
      | none =>
          refine ⟨_, .loadClosed, ?_, by simp [Pc.remaining], same stands⟩
          rw [Gate.step, failure]
  | loadClosed =>
      refine ⟨_, .dropTicket .closed, ?_, by simp [Pc.remaining], same stands⟩
      rw [Gate.step, if_pos gate]
  | dropTicket error =>
      obtain ⟨idle, allowed⟩ := stands
      have idle' : (shared.word thread).phase = .idle := idle
      have none' : (shared.word thread).resource = none := resource
      have unlisted : (shared.entries.find? fun entry => entry.wait = thread) = none := by
        refine List.find?_eq_none.mpr fun entry member own => absent ?_
        exact List.mem_map.mpr ⟨entry, member, of_decide_eq_true own⟩
      refine ⟨shared, .dropClosed none error, ?_, by simp [Pc.remaining], same ⟨idle, rfl, allowed⟩⟩
      rw [Gate.step, Shared.dropTicket, unlisted, tryTakeResource_idle idle', none']
      rfl
  | dropClosed selection error =>
      refine ⟨_, .reset selection error, ?_, by simp [Pc.remaining], same stands⟩
      rw [Gate.step, if_pos gate]
  | reset _ error =>
      obtain ⟨idle, rfl, allowed⟩ := stands
      have idle' : (shared.word thread).phase = .idle := idle
      by_cases shut : (shared.word thread).closed = true
      · refine ⟨shared.setWord thread ((shared.word thread).withClosed false),
          .release none error, ?_, by simp [Pc.remaining], word resource ⟨idle, rfl, allowed⟩⟩
        simp [Gate.step, resetClosedGate, idle', shut]
      · refine ⟨shared, .release none error, ?_, by simp [Pc.remaining], same ⟨idle, rfl, allowed⟩⟩
        simp [Gate.step, resetClosedGate, idle', shut]
  | release _ error =>
      obtain ⟨idle, rfl, allowed⟩ := stands
      obtain ⟨releases, -⟩ := release_quiet inv fits.1.reserved
      refine ⟨shared.released thread, .rest (.error error), ?_, by simp [Pc.remaining], ?_⟩
      · rw [Gate.step, releases]
        rfl
      · have view := view_released_self inv thread
        refine ⟨?_, ?_, ?_, ?_⟩ <;> rw [view]
        · exact absent
        · exact resource
        · exact closed
        · exact ⟨idle, error, rfl, allowed⟩
  | rest => cases running
  | tryTake | enter | reserve | subscribe | takeResource | complete | signal | publish
  | panicked => exact stands.elim

end Ended

/-- A live queued ticket is active, or it has been selected for its failure. -/
theorem Suspended.at_close {timed : Bool} {word : WaitWord}
    (suspended : Suspended timed word .queued) (unclaimed : word.isClaimed = false) :
    word.phase = .active ∨
      ∃ cause error, word.phase = .selected cause ∧ selected cause timed = .error error := by
  obtain ⟨active, -⟩ | ⟨cause, denies, ends | ends⟩ := suspended
  · exact .inl active
  · exact absurd unclaimed (by simp [WaitWord.isClaimed, ends])
  · right
    obtain rfl | ⟨rfl, timed⟩ := denies
    · exact ⟨_, _, ends, rfl⟩
    · exact ⟨_, _, ends, by rw [selected, timed]; rfl⟩

/-- A close ends every queued ticket. -/
theorem close_ended (inv : shared.Inv) (fits : Fits (shared.view thread) pc)
    (queued : (shared.view thread).queued) (closing : shared.close = some shared')
    {ends : Error → Prop} (allowed : ends (pc.verdict (shared.timed thread) (shared.word thread))) :
    Ended ends (shared'.view thread) pc := by
  rw [Shared.close, Option.map_eq_some_iff] at closing
  obtain ⟨word, decides, rfl⟩ := closing
  obtain ⟨changed, closing⟩ := (decideAll_spec inv.waits decides thread).2 queued
  obtain ⟨unclaimed, unbound, next⟩ := closes closing
  obtain ⟨stands, bears⟩ := fits.stands_queued queued
  have resource : (shared.word thread).resource = none := bears.resource
  have openCell : (shared.word thread).closed = false := bears.closed
  have next := next.resolve_left fun already => by simp [openCell] at already
  have kept : (word thread).resource = none ∧ (word thread).closed = true ∧
      ((shared.word thread).phase = .active ∧ (word thread).phase = .selected .closed ∨
        (shared.word thread).phase ≠ .active ∧
          (word thread).phase = (shared.word thread).phase) := by
    obtain ⟨-, ⟨active, same⟩ | ⟨inactive, same⟩⟩ := next
    · rw [same]
      exact ⟨resource, rfl, .inl ⟨active, rfl⟩⟩
    · rw [same]
      exact ⟨resource, rfl, .inr ⟨inactive, rfl⟩⟩
  obtain ⟨resource', closed', phase⟩ := kept
  refine ⟨List.not_mem_nil, resource', rfl, ?_⟩
  obtain ⟨stage, rfl⟩ | ⟨error, rfl⟩ := fits.queued queued
  · obtain ⟨-, stageFits, status, stands', -, waits⟩ := fits
    cases stands'.of_queued queued
    cases stage with
    | begin =>
        have idle : (shared.word thread).phase = .idle := stageFits
        rw [idle] at phase
        obtain ⟨active, -⟩ | ⟨-, phase⟩ := phase
        · cases active
        · exact ⟨closed', phase, allowed⟩
    | bind => exact absurd stageFits.2 unbound
    | parked =>
        obtain active | ⟨cause, error, ended, denied⟩ := Suspended.at_close waits unclaimed
        · have active' : (shared.word thread).phase = .active := active
          rw [Pc.verdict, active'] at allowed
          obtain ⟨-, phase⟩ | ⟨inactive, -⟩ := phase
          · exact ⟨.closed, phase, .inr ⟨rfl, allowed⟩⟩
          · exact absurd active' inactive
        · have ended' : (shared.word thread).phase = .selected cause := ended
          have denied' : selected cause (shared.timed thread) = .error error := denied
          rw [Pc.verdict, ended'] at allowed
          dsimp only at allowed
          rw [denied'] at allowed
          rw [ended'] at phase
          obtain ⟨active, -⟩ | ⟨-, phase⟩ := phase
          · cases active
          · exact ⟨cause, phase, .inl ⟨error, denied', allowed⟩⟩
    | rollback _ error =>
        obtain ⟨active, phase⟩ | ⟨inactive, phase⟩ := phase
        · exact ⟨allowed, .closed, phase⟩
        · obtain active | ⟨cause, error, ended, -⟩ := Suspended.at_close waits unclaimed
          · exact absurd active inactive
          · exact ⟨allowed, cause, phase.trans ended⟩
  · obtain ⟨status, keeps⟩ := fits
    have idle : (shared.word thread).phase = .idle := keeps.idle
    rw [idle] at phase
    obtain ⟨active, -⟩ | ⟨-, phase⟩ := phase
    · cases active
    · exact ⟨phase, allowed⟩

end VThread.Gate

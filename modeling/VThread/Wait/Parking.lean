import VThread.Wait.Cell

/-!
# Parking on a resident cell

`park_wait` of one task on the cell that belongs to the task.  A step is the atomic
operation that decides a call of the cell: loads and compare-exchanges that only lead to
another attempt leave no trace and are not steps.

The identity of the cell is left out, since all tokens here belong to the cell they are
used on.
-/

namespace VThread.Wait

/-- The errors a blocking operation can return; `unwound` stands for a panic or a forced
unwind that passes through it. -/
inductive Error where
  | outsideVThread
  | runtimeStopped
  | cancelled
  | deadlineExceeded
  | suspension
  | parkerBusy
  | closed
  | wouldBlock
  | capacity (limit : Nat)
  | fault (message : String)
  | unwound
  deriving DecidableEq, Repr

inductive ParkOutcome where
  | ready
  | timedOut
  | cancelled
  | closed
  deriving DecidableEq, Repr

/-- What a cause means to the parked task. -/
def selected (cause : WakeCause) (inheritedTimeout : Bool) : Except Error ParkOutcome :=
  match cause with
  | .ready => .ok .ready
  | .timedOut => if inheritedTimeout then .error .deadlineExceeded else .ok .timedOut
  | .cancelled => .ok .cancelled
  | .inheritedCancelled => .error .cancelled
  | .closed => .ok .closed

/-- Where a task stands in `park_wait`. -/
inductive Parking where
  | begin
  | bind (word : WaitWord)
  | parked (generation : Nat)
  | rollback (generation : Nat) (error : Error)
  deriving DecidableEq, Repr

/-- Where a step of `park_wait` leads. -/
inductive ParkNext where
  | stay (stage : Parking)
  | returns (result : Except Error ParkOutcome)
  | panics (message : String)

/-- What a step of `park_wait` depends on besides the word: a check, a registration or a
suspension that fails, whether the deadline has passed, the fallback bit of a cached
target, and the one of a new target. -/
structure ParkChoice where
  failure : Option Error
  expired : Bool
  cached : Option Bool
  fallback : Bool

/-- Decisions on the word of a resident cell. -/
abbrev Decision := Attempt Unit Unit Unit

namespace Parking

/-- `begin_resident`; a cached target activates the generation at once. -/
def stepBegin (timed : Bool) (choice : ParkChoice) (word : WaitWord) : WaitWord × ParkNext :=
  match choice.failure with
  | some error => (word, .returns (.error error))
  | none =>
      match (beginResident ⟨(), (), ()⟩ (timed && choice.expired) word : Decision) with
      | .give .parkerBusy => (word, .returns (.error .parkerBusy))
      | .give (.immediate cause) => (word, .returns (selected cause timed))
      | .exchange next (.adjust (.immediate cause)) => (next, .returns (selected cause timed))
      | .lookup _ =>
          let advanced := word.withGeneration (word.generation + 1)
          match choice.cached with
          | some fallback => ((advanced.withFallbackHub fallback).withPhase .active,
              .stay (.parked advanced.generation))
          | none => (advanced.withPhase .binding, .stay (.bind (advanced.withPhase .binding)))
      | _ => (word, .returns (.error (.fault "wait generation space exhausted")))

/-- The task has resumed: `finish_permit_ready`, or the other forms when the permit is
not taken with the wake. -/
def stepFinish (takePermit timed : Bool) (generation : Nat) (word : WaitWord) :
    Option (WaitWord × ParkNext) :=
  match (finishSlow takePermit ⟨0, generation⟩ word : Decision) with
  | .reload => none
  | .exchange next (.finish cause) => some (next, .returns (selected cause timed))
  | .give .generationChanged =>
      some (word, .stay (.rollback generation (.fault "resumed parker generation changed")))
  | _ => some (word,
      .stay (.rollback generation (.fault "resumed parker has no selected wake")))

/-- `retire_after_failure`; a claimed generation is retried once it has been published. -/
def stepRollback (generation : Nat) (error : Error) (word : WaitWord) : WaitWord × ParkNext :=
  match (tryRetire ⟨0, generation⟩ word : Decision) with
  | .give .deferred => (word, .stay (.rollback generation error))
  | .exchange next _ => (next, .stay (.rollback generation error))
  | .cloneHub => (word.retire, .returns (.error error))
  | .panic message => (word, .panics message)
  | _ => (word, .returns (.error error))

/-- One step of `park_wait`, where `timed` tells whether the task has a deadline. -/
def step (takePermit timed : Bool) (choice : ParkChoice) (word : WaitWord) :
    Parking → Option (WaitWord × ParkNext)
  | .begin => some (stepBegin timed choice word)
  | .bind binding => some ((binding.withFallbackHub choice.fallback).withPhase .active,
      .stay (.parked binding.generation))
  | .parked generation =>
      match choice.failure with
      | some error => some (word, .stay (.rollback generation error))
      | none => stepFinish takePermit timed generation word
  | .rollback generation error => some (stepRollback generation error word)

/-- The stage and the word agree on the generation and its phase. -/
def Fits (word : WaitWord) : Parking → Prop
  | .begin => word.phase = .idle
  | .bind binding => word = binding ∧ word.phase = .binding
  | .parked generation | .rollback generation _ =>
      word.generation = generation ∧ word.phase ≠ .idle ∧ word.phase ≠ .binding

end Parking

/-- A selection of the current generation succeeds on an active word only. -/
theorem selectGeneration_exchange {word next : WaitWord} {cause : WakeCause}
    {won : Won Unit Unit Unit}
    (decided : (selectGeneration ⟨0, word.generation⟩ cause word : Decision) =
      .exchange next won) :
    word.phase = .active ∧ next = word.claimed cause := by
  rw [selectGeneration] at decided
  split at decided
  · cases decided
  · split at decided
    · cases decided
    · split at decided
      · cases decided
      · split at decided
        · cases decided
        · rename_i active
          cases decided
          exact ⟨by simpa using active, rfl⟩

/-- A query leaves its interest on a claimed word only. -/
theorem publication_exchange {word next : WaitWord} {won : Won Unit Unit Unit}
    (decided : (publication ⟨0, word.generation⟩ word : Decision) = .exchange next won) :
    word.isClaimed = true ∧ next = word.withPermit true := by
  rw [publication] at decided
  split at decided
  · cases decided
  · split at decided
    · cases decided
    · split at decided
      · cases decided
      · rename_i claimed
        split at decided
        · cases decided
        · cases decided
          exact ⟨by simpa using claimed, rfl⟩

/-- `publish_claim` by the claimant, when the word is `observed`. -/
def WaitWord.publishObserved (claimed observed : WaitWord) : Checked WaitWord :=
  if observed = claimed then claimed.publishClaim
  else do
    ensure (observed.withPermit false = claimed) "only owner interest may change a claim"
    ensure observed.permit "publication CAS failed without owner interest"
    let published ← observed.publishClaim
    pure (published.withPermit false)

section Held

variable {claimed observed next : WaitWord}
  (held : observed = claimed ∨ observed = claimed.withPermit true)

include held

theorem WaitWord.isClaimed_of_held (isClaimed : claimed.isClaimed = true) :
    observed.isClaimed = true := by
  rcases held with rfl | rfl
  · exact isClaimed
  · rwa [isClaimed_withPermit]

/-- A claimed word only gains the interest of its owner. -/
theorem WaitWord.held_of_gains (isClaimed : claimed.isClaimed = true)
    (changes : observed.isClaimed = false ∨ next = observed.withPermit true) :
    next = claimed.withPermit true := by
  rcases changes with unclaimed | gains
  · cases unclaimed.symm.trans (isClaimed_of_held held isClaimed)
  · rcases held with rfl | rfl <;> exact gains

end Held

/-- The claimant publishes its claim, whether or not the owner is interested. -/
theorem WaitWord.publishObserved_eq {claimed observed : WaitWord} {cause : WakeCause}
    (phase : claimed.phase = .claim cause) (permit : claimed.permit = false)
    (held : observed = claimed ∨ observed = claimed.withPermit true) :
    claimed.publishObserved observed =
      .ok ((observed.withPhase (.selected cause)).withPermit false) := by
  rcases held with rfl | rfl
  · simp [publishObserved, publishClaim, phase, withPermit, withPhase, permit, pure,
      Except.pure]
  · have restored : (claimed.withPermit true).withPermit false = claimed := by
      simp [withPermit, ← permit]
    have differs : claimed.withPermit true ≠ claimed := by
      intro equal
      have permits := congrArg WaitWord.permit equal
      simp [withPermit, permit] at permits
    have interested : (claimed.withPermit true).permit = true := rfl
    have phase' : (claimed.withPermit true).phase = .claim cause := phase
    rw [publishObserved, if_neg differs, restored, ensure_of rfl, ok_bind,
      ensure_of interested, ok_bind]
    simp [publishClaim, phase', pure, Except.pure]

/-- Effects of the steps of `park_wait` on the word. -/
inductive ParkEffect (takePermit timed : Bool) (word : WaitWord) :
    Parking → WaitWord → ParkNext → Prop where
  | failed (error : Error) :
      ParkEffect takePermit timed word .begin word (.returns (.error error))
  | closed : word.closed →
      ParkEffect takePermit timed word .begin word (.returns (.ok .closed))
  | stored : ¬ word.closed → word.permit →
      ParkEffect takePermit timed word .begin (word.withPermit false) (.returns (.ok .ready))
  | activated (fallback : Bool) : ¬ word.closed → ¬ word.permit →
      ParkEffect takePermit timed word .begin
        (((word.withGeneration (word.generation + 1)).withFallbackHub fallback).withPhase
          .active) (.stay (.parked (word.generation + 1)))
  | binds : ¬ word.closed → ¬ word.permit →
      ParkEffect takePermit timed word .begin
        ((word.withGeneration (word.generation + 1)).withPhase .binding)
        (.stay (.bind ((word.withGeneration (word.generation + 1)).withPhase .binding)))
  | bound (fallback : Bool) :
      ParkEffect takePermit timed word (.bind word)
        ((word.withFallbackHub fallback).withPhase .active) (.stay (.parked word.generation))
  | fails (error : Error) :
      ParkEffect takePermit timed word (.parked word.generation) word
        (.stay (.rollback word.generation error))
  | finished (cause : WakeCause) : word.phase = .selected cause →
      ParkEffect takePermit timed word (.parked word.generation)
        (if takePermit ∧ cause = .ready then (word.withResource none).retire else word.retire)
        (.returns (selected cause timed))
  | deferred (error : Error) : word.isClaimed →
      ParkEffect takePermit timed word (.rollback word.generation error)
        (word.withPermit true) (.stay (.rollback word.generation error))
  | retired (error : Error) : ¬ word.isClaimed →
      ParkEffect takePermit timed word (.rollback word.generation error)
        word.retire (.returns (.error error))

namespace Parking

variable {takePermit timed : Bool} {choice : ParkChoice} {word word' : WaitWord}
  {next : ParkNext}

theorem stepBegin_effect (idle : word.phase = .idle) :
    ParkEffect takePermit timed word .begin (stepBegin timed choice word).1
      (stepBegin timed choice word).2 := by
  rw [stepBegin]
  cases choice.failure with
  | some error => exact .failed error
  | none =>
      by_cases closed : word.closed
      · simpa [beginResident, idle, closed] using .closed closed
      by_cases permit : word.permit
      · simpa [beginResident, idle, closed, permit] using .stored closed permit
      by_cases expired : (timed && choice.expired) = true
      · obtain ⟨hasDeadline, passed⟩ := Bool.and_eq_true_iff.mp expired
        simpa [beginResident, idle, closed, permit, hasDeadline, passed] using
          .failed .deadlineExceeded
      by_cases exhausted : word.generation + 1 ≤ maxGeneration
      · cases cached : choice.cached with
        | some fallback =>
            simpa [beginResident, idle, closed, permit, expired, nextGeneration, exhausted]
              using .activated fallback closed permit
        | none =>
            simpa [beginResident, idle, closed, permit, expired, nextGeneration, exhausted]
              using .binds closed permit
      · simpa [beginResident, idle, closed, permit, expired, nextGeneration, exhausted] using
          .failed _

theorem stepFinish_effect
    (taken : stepFinish takePermit timed word.generation word = some (word', next)) :
    ParkEffect takePermit timed word (.parked word.generation) word' next := by
  rw [stepFinish, finishSlow] at taken
  by_cases busy : word.isClaimed ∨ word.phase = .binding
  · simp [busy] at taken
  · cases cause : word.selectedCause with
    | none =>
        simp [busy, cause] at taken
        obtain ⟨rfl, rfl⟩ := taken
        exact .fails _
    | some cause' =>
        simp [busy, cause] at taken
        obtain ⟨rfl, rfl⟩ := taken
        exact .finished cause' (WaitWord.selectedCause_eq_some.mp cause)

theorem stepRollback_effect (error : Error) (live : word.phase ≠ .idle)
    (bound : word.phase ≠ .binding) :
    ParkEffect takePermit timed word (.rollback word.generation error)
      (stepRollback word.generation error word).1
      (stepRollback word.generation error word).2 := by
  rw [stepRollback, tryRetire]
  by_cases claimed : word.isClaimed
  · by_cases permit : word.permit
    · have same : word.withPermit true = word := by
        rw [WaitWord.withPermit, ← permit]
      have effect : ParkEffect takePermit timed word _ _ _ := .deferred error claimed
      simpa [live, bound, claimed, permit, same] using effect
    · simpa [live, bound, claimed, permit] using .deferred error claimed
  · simpa [live, bound, claimed] using .retired error claimed

/-- What a step of `park_wait` can do. -/
theorem step_effect {stage : Parking} (fits : stage.Fits word)
    (taken : stage.step takePermit timed choice word = some (word', next)) :
    ParkEffect takePermit timed word stage word' next := by
  cases stage with
  | begin =>
      rw [step, Option.some.injEq] at taken
      have effect := @stepBegin_effect takePermit timed choice word fits
      rwa [taken] at effect
  | bind =>
      obtain ⟨rfl, _⟩ := fits
      cases taken
      exact .bound _
  | parked =>
      obtain ⟨rfl, _⟩ := fits
      rw [step] at taken
      cases failure : choice.failure with
      | some error =>
          rw [failure] at taken
          cases taken
          exact .fails error
      | none =>
          rw [failure] at taken
          exact stepFinish_effect taken
  | rollback _ error =>
      obtain ⟨rfl, live, bound⟩ := fits
      rw [step, Option.some.injEq] at taken
      have effect := @stepRollback_effect takePermit timed word error live bound
      rwa [taken] at effect

end Parking

end VThread.Wait

import Mathlib.Logic.Relation

/-!
# Transition systems and interleavings

An interleaving runs threads over one shared state, one atomic step at a time.  Its
invariant rule splits a proof into what a thread's own step establishes and what the
steps of other threads leave intact.
-/

namespace VThread.Lib

universe u v w

/-- A transition system. -/
structure System (σ : Type u) where
  initial : σ → Prop
  step : σ → σ → Prop

namespace System

variable {σ : Type u} (system : System σ)

/-- States of finite runs. -/
inductive Reachable : σ → Prop where
  | initial {state : σ} : system.initial state → Reachable state
  | step {state next : σ} : Reachable state → system.step state next → Reachable next

variable {system}

/-- What holds initially and survives every step from a reachable state holds in every
reachable state. -/
theorem Reachable.induct {holds : σ → Prop}
    (initial : ∀ state, system.initial state → holds state)
    (step : ∀ state next, system.Reachable state → holds state → system.step state next →
      holds next) {state : σ} (reachable : system.Reachable state) : holds state := by
  induction reachable with
  | initial isInitial => exact initial _ isInitial
  | step previous taken ih => exact step _ _ previous ih taken

end System

/-- A machine goes on from a state by a choice, unless it cannot. -/
structure Machine (σ : Type u) (κ : Type v) where
  initial : σ → Prop
  next : κ → σ → Option σ

namespace Machine

variable {σ : Type u} {κ : Type v} (machine : Machine σ κ)

def system : System σ where
  initial := machine.initial
  step state state' := ∃ choice, machine.next choice state = some state'

/-- The runs all of whose choices meet a guard. -/
def guarded (guard : κ → σ → Prop) : System σ where
  initial := machine.initial
  step state state' := ∃ choice, guard choice state ∧ machine.next choice state = some state'

/-- Run a list of choices, as long as they meet a decidable guard. -/
def run (guard : κ → σ → Bool) : List κ → σ → Option σ
  | [], state => some state
  | choice :: rest, state =>
      if guard choice state then (machine.next choice state).bind (run guard rest) else none

variable {machine}

theorem guarded_reachable {guard : κ → σ → Prop} {state : σ}
    (reachable : (machine.guarded guard).Reachable state) : machine.system.Reachable state := by
  induction reachable with
  | initial isInitial => exact .initial isInitial
  | step _ taken ih =>
      obtain ⟨choice, -, taken⟩ := taken
      exact .step ih ⟨choice, taken⟩

theorem guarded_imp {guard guard' : κ → σ → Prop}
    (weaker : ∀ choice state, guard choice state → guard' choice state) {state : σ}
    (reachable : (machine.guarded guard).Reachable state) :
    (machine.guarded guard').Reachable state := by
  induction reachable with
  | initial isInitial => exact .initial isInitial
  | step _ taken ih =>
      obtain ⟨choice, met, taken⟩ := taken
      exact .step ih ⟨choice, weaker choice _ met, taken⟩

/-- A run leads from states of guarded runs to states of guarded runs. -/
theorem run_reachable {guard : κ → σ → Bool} {choices : List κ} {state state' : σ}
    (reachable : (machine.guarded fun choice state => guard choice state = true).Reachable state)
    (runs : machine.run guard choices state = some state') :
    (machine.guarded fun choice state => guard choice state = true).Reachable state' := by
  induction choices generalizing state with
  | nil =>
      cases runs
      exact reachable
  | cons choice rest ih =>
      rw [run] at runs
      split at runs
      · rename_i met
        obtain ⟨next, taken, runs⟩ := Option.bind_eq_some_iff.mp runs
        exact ih (.step reachable ⟨choice, met, taken⟩) runs
      · cases runs

end Machine

/-- A shared state together with the local state of every thread. -/
structure Threads (ι : Type u) (σ : Type v) (π : Type w) where
  shared : σ
  locals : ι → π

/-- A program gives the possible atomic steps of a thread. -/
structure Program (ι : Type u) (σ : Type v) (π : Type w) where
  initial : σ → Prop
  start : π
  advance : ι → σ → π → σ → π → Prop

namespace Program

variable {ι : Type u} {σ : Type v} {π : Type w} [DecidableEq ι]

/-- One thread moves, the others stay where they are. -/
inductive Step (program : Program ι σ π) : Threads ι σ π → Threads ι σ π → Prop where
  | mk (thread : ι) {state : Threads ι σ π} {shared : σ} {pc : π} :
      program.advance thread state.shared (state.locals thread) shared pc →
      Step program state
        ⟨shared, fun other => if other = thread then pc else state.locals other⟩

/-- All interleavings of a program. -/
def system (program : Program ι σ π) : System (Threads ι σ π) where
  initial state := program.initial state.shared ∧ ∀ thread, state.locals thread = program.start
  step := program.Step

/-- A shared and a local invariant hold in every reachable state when a thread's own step
keeps both and the steps of others keep the local one. -/
theorem invariant {program : Program ι σ π} {holds : σ → Prop} {mine : ι → σ → π → Prop}
    (initial : ∀ shared, program.initial shared →
      holds shared ∧ ∀ thread, mine thread shared program.start)
    (own : ∀ thread shared pc shared' pc', holds shared → mine thread shared pc →
      program.advance thread shared pc shared' pc' →
      holds shared' ∧ mine thread shared' pc')
    (others : ∀ thread other shared pc otherPc shared' pc', other ≠ thread → holds shared →
      mine thread shared pc → mine other shared otherPc →
      program.advance thread shared pc shared' pc' → mine other shared' otherPc)
    {state : Threads ι σ π} (reachable : program.system.Reachable state) :
    holds state.shared ∧ ∀ thread, mine thread state.shared (state.locals thread) := by
  induction reachable with
  | initial isInitial =>
      obtain ⟨sharedInitial, started⟩ := isInitial
      obtain ⟨sharedHolds, localHolds⟩ := initial _ sharedInitial
      exact ⟨sharedHolds, fun thread => by
        rw [started thread]
        exact localHolds thread⟩
  | step _ taken ih =>
      cases taken with
      | mk thread moved =>
          obtain ⟨sharedHolds, localHolds⟩ := ih
          obtain ⟨sharedHolds', ownHolds⟩ :=
            own thread _ _ _ _ sharedHolds (localHolds thread) moved
          refine ⟨sharedHolds', fun other => ?_⟩
          by_cases equal : other = thread
          · subst equal
            simpa using ownHolds
          · simpa [equal] using others thread other _ _ _ _ _ equal sharedHolds
              (localHolds thread) (localHolds other) moved

/-! ## Guarded runs -/

/-- The runs all of whose steps meet a guard. -/
def guarded (program : Program ι σ π) (guard : Threads ι σ π → ι → Prop) :
    System (Threads ι σ π) where
  initial := program.system.initial
  step state next := ∃ thread shared pc, guard state thread ∧
    program.advance thread state.shared (state.locals thread) shared pc ∧
      next = ⟨shared, fun other => if other = thread then pc else state.locals other⟩

theorem guarded_reachable {program : Program ι σ π} {guard : Threads ι σ π → ι → Prop}
    {state : Threads ι σ π} (reachable : (program.guarded guard).Reachable state) :
    program.system.Reachable state := by
  induction reachable with
  | initial isInitial => exact .initial isInitial
  | step _ taken ih =>
      obtain ⟨thread, shared, pc, -, moved, rfl⟩ := taken
      exact .step ih (.mk thread moved)

/-! ## While a thread stands still -/

/-- Threads other than one move. -/
def Aside (program : Program ι σ π) (thread : ι) :
    Threads ι σ π → Threads ι σ π → Prop :=
  Relation.ReflTransGen fun state next => ∃ other shared pc, other ≠ thread ∧
    program.advance other state.shared (state.locals other) shared pc ∧
      next = ⟨shared, fun third => if third = other then pc else state.locals third⟩

theorem Aside.reachable {program : Program ι σ π} {thread : ι} {state next : Threads ι σ π}
    (aside : program.Aside thread state next) (reachable : program.system.Reachable state) :
    program.system.Reachable next := by
  induction aside with
  | refl => exact reachable
  | tail _ moved ih =>
      obtain ⟨other, shared, pc, -, moved, rfl⟩ := moved
      exact .step ih (.mk other moved)

/-- The thread stays where it is. -/
theorem Aside.locals {program : Program ι σ π} {thread : ι} {state next : Threads ι σ π}
    (aside : program.Aside thread state next) : next.locals thread = state.locals thread := by
  induction aside with
  | refl => rfl
  | tail _ moved ih =>
      obtain ⟨other, shared, pc, different, -, rfl⟩ := moved
      simpa [different.symm] using ih

/-! ## Schedules -/

/-- A way to run a program: the step a thread takes for a choice, unless it may not. -/
structure Scheduler (program : Program ι σ π) (κ : Type) where
  next : ι → κ → σ → π → Option (σ × π)
  sound : ∀ thread choice shared pc result, next thread choice shared pc = some result →
    program.advance thread shared pc result.1 result.2

namespace Scheduler

variable {program : Program ι σ π} {κ : Type}

/-- Run a schedule of threads and choices. -/
def run (scheduler : program.Scheduler κ) :
    List (ι × κ) → Threads ι σ π → Option (Threads ι σ π)
  | [], state => some state
  | (thread, choice) :: rest, state =>
      match scheduler.next thread choice state.shared (state.locals thread) with
      | none => none
      | some (shared, pc) => scheduler.run rest
          ⟨shared, fun other => if other = thread then pc else state.locals other⟩

/-- A schedule leads from reachable states to reachable states. -/
theorem run_reachable (scheduler : program.Scheduler κ) {schedule : List (ι × κ)}
    {state state' : Threads ι σ π} (reachable : program.system.Reachable state)
    (runs : scheduler.run schedule state = some state') :
    program.system.Reachable state' := by
  induction schedule generalizing state with
  | nil =>
      cases runs
      exact reachable
  | cons entry rest ih =>
      obtain ⟨thread, choice⟩ := entry
      rw [run] at runs
      split at runs
      · cases runs
      · rename_i shared pc taken
        apply ih _ runs
        exact .step reachable (.mk thread (scheduler.sound _ _ _ _ _ taken))

/-- Run a schedule as long as its steps meet a guard. -/
def runGuarded (scheduler : program.Scheduler κ) (guard : Threads ι σ π → ι → Prop)
    [∀ state thread, Decidable (guard state thread)] :
    List (ι × κ) → Threads ι σ π → Option (Threads ι σ π)
  | [], state => some state
  | (thread, choice) :: rest, state =>
      if guard state thread then
        match scheduler.next thread choice state.shared (state.locals thread) with
        | none => none
        | some (shared, pc) => scheduler.runGuarded guard rest
            ⟨shared, fun other => if other = thread then pc else state.locals other⟩
      else none

theorem runGuarded_reachable (scheduler : program.Scheduler κ)
    {guard : Threads ι σ π → ι → Prop} [∀ state thread, Decidable (guard state thread)]
    {schedule : List (ι × κ)} {state state' : Threads ι σ π}
    (reachable : (program.guarded guard).Reachable state)
    (runs : scheduler.runGuarded guard schedule state = some state') :
    (program.guarded guard).Reachable state' := by
  induction schedule generalizing state with
  | nil =>
      cases runs
      exact reachable
  | cons entry rest ih =>
      obtain ⟨thread, choice⟩ := entry
      rw [runGuarded] at runs
      split at runs
      · rename_i guarded
        split at runs
        · cases runs
        · rename_i shared pc taken
          apply ih _ runs
          exact .step reachable
            ⟨thread, shared, pc, guarded, scheduler.sound _ _ _ _ _ taken, rfl⟩
      · cases runs

end Scheduler

end Program

end VThread.Lib

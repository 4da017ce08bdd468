import Mathlib.Data.Finset.Card
import Mathlib.Data.Fintype.Card
import Mathlib.Data.List.Count

/-!
# Mailboxes served in rounds

A mailbox with one slot for each route.  The consumer captures what has been published as a
batch, returns the batch, and only then captures again.  No route waits for more than one
round before its own.
-/

namespace VThread.Lib

universe u

/-- What the callers of the mailbox see, and the captures between. -/
inductive RoundEvent (ρ : Type u) where
  | publish (route : ρ)
  | ring (answer : Bool)
  | capture
  | pop (route : ρ)
  | empty
  | check (found : Bool)
  | arm (ready : Bool)
  | disarm
  deriving DecidableEq

structure Rounds (ρ : Type u) where
  batch : Finset ρ
  fresh : Finset ρ
  armed : Bool

namespace Rounds

variable {ρ : Type u} [DecidableEq ρ]

def new : Rounds ρ := ⟨∅, ∅, false⟩

/-- The routes published and not yet popped. -/
def pending (rounds : Rounds ρ) : Finset ρ := rounds.batch ∪ rounds.fresh

/-- One event. -/
inductive Step : Rounds ρ → RoundEvent ρ → Rounds ρ → Prop where
  | publish {rounds : Rounds ρ} (route : ρ) : route ∉ rounds.pending →
      Step rounds (.publish route) { rounds with fresh := insert route rounds.fresh }
  | ring {rounds : Rounds ρ} : Step rounds (.ring rounds.armed) rounds
  | capture (fresh : Finset ρ) (armed : Bool) :
      Step ⟨∅, fresh, armed⟩ .capture ⟨fresh, ∅, armed⟩
  | pop {rounds : Rounds ρ} (route : ρ) : route ∈ rounds.batch →
      Step rounds (.pop route) { rounds with batch := rounds.batch.erase route }
  | empty {rounds : Rounds ρ} : rounds.pending = ∅ → Step rounds .empty rounds
  | found {rounds : Rounds ρ} : rounds.pending.Nonempty → Step rounds (.check true) rounds
  | missed {rounds : Rounds ρ} : Step rounds (.check false) rounds
  | ready {rounds : Rounds ρ} : rounds.pending.Nonempty → Step rounds (.arm true) rounds
  | arm {rounds : Rounds ρ} : rounds.pending = ∅ →
      Step rounds (.arm false) { rounds with armed := true }
  | disarm {rounds : Rounds ρ} : Step rounds .disarm { rounds with armed := false }

/-- A sequence of events. -/
inductive Steps : Rounds ρ → List (RoundEvent ρ) → Rounds ρ → Prop where
  | nil (rounds : Rounds ρ) : Steps rounds [] rounds
  | cons {first second last : Rounds ρ} {event : RoundEvent ρ} {events : List (RoundEvent ρ)} :
      Step first event second → Steps second events last → Steps first (event :: events) last

variable {first last : Rounds ρ} {events : List (RoundEvent ρ)}

theorem Steps.append {middle : Rounds ρ} {more : List (RoundEvent ρ)}
    (steps : Steps first events middle) (rest : Steps middle more last) :
    Steps first (events ++ more) last := by
  induction steps with
  | nil => exact rest
  | cons step _ ih => exact .cons step (ih rest)

theorem Steps.snoc {middle : Rounds ρ} {event : RoundEvent ρ}
    (steps : Steps first events middle) (step : Step middle event last) :
    Steps first (events ++ [event]) last := steps.append (.cons step (.nil last))

theorem Steps.split {more : List (RoundEvent ρ)} (steps : Steps first (events ++ more) last) :
    ∃ middle, Steps first events middle ∧ Steps middle more last := by
  induction events generalizing first with
  | nil => exact ⟨first, .nil first, steps⟩
  | cons _ _ ih =>
      cases steps with
      | cons step rest =>
          obtain ⟨middle, left, right⟩ := ih rest
          exact ⟨middle, .cons step left, right⟩

/-! ## The two sets stay apart -/

theorem Step.disjoint {next : Rounds ρ} {event : RoundEvent ρ} (step : Step first event next)
    (apart : Disjoint first.batch first.fresh) : Disjoint next.batch next.fresh := by
  cases step with
  | publish route absent =>
      have notBatch : route ∉ first.batch := fun member =>
        absent (Finset.mem_union_left _ member)
      exact Finset.disjoint_insert_right.mpr ⟨notBatch, apart⟩
  | capture => exact Finset.disjoint_empty_right _
  | pop => exact apart.mono_left (Finset.erase_subset _ _)
  | ring | empty | found | missed | ready | arm | disarm => exact apart

theorem Steps.disjoint (steps : Steps first events last)
    (apart : Disjoint first.batch first.fresh) : Disjoint last.batch last.fresh := by
  induction steps with
  | nil => exact apart
  | cons step _ ih => exact ih (step.disjoint apart)

omit [DecidableEq ρ] in
theorem new_disjoint : Disjoint (new : Rounds ρ).batch (new : Rounds ρ).fresh :=
  Finset.disjoint_empty_left _

/-! ## Every publication is popped once -/

/-- Published and not popped since. -/
def Outstanding (route : ρ) (events : List (RoundEvent ρ)) : Prop :=
  events.count (.pop route) < events.count (.publish route)

def isPending (rounds : Rounds ρ) (route : ρ) : Nat := if route ∈ rounds.pending then 1 else 0

theorem Step.counts {next : Rounds ρ} {event : RoundEvent ρ} (step : Step first event next)
    (apart : Disjoint first.batch first.fresh) (route : ρ) :
    first.isPending route + [event].count (.publish route) =
      next.isPending route + [event].count (.pop route) := by
  cases step with
  | publish published absent =>
      by_cases same : published = route
      · subst same
        have nowhere : published ∉ first.batch ∧ published ∉ first.fresh := by
          simpa [pending] using absent
        simp [isPending, pending, nowhere]
      · have other : route ≠ published := Ne.symm same
        simp [isPending, pending, other, same]
  | capture => simp [isPending, pending]
  | pop popped member =>
      by_cases same : popped = route
      · subst same
        have notFresh : popped ∉ first.fresh := Finset.disjoint_left.mp apart member
        simp [isPending, pending, member, notFresh]
      · have other : route ≠ popped := Ne.symm same
        simp [isPending, pending, other, same]
  | ring | empty | found | missed | ready | arm | disarm => simp [isPending, pending]

theorem Steps.counts (steps : Steps first events last)
    (apart : Disjoint first.batch first.fresh) (route : ρ) :
    first.isPending route + events.count (.publish route) =
      last.isPending route + events.count (.pop route) := by
  induction steps with
  | nil => rfl
  | @cons _ _ _ event events step _ ih =>
      have here := step.counts apart route
      have rest := ih (step.disjoint apart)
      have publishes : (event :: events).count (.publish route) = _ :=
        @List.count_append _ _ (.publish route) [event] events
      have pops : (event :: events).count (.pop route) = _ :=
        @List.count_append _ _ (.pop route) [event] events
      omega

/-- Run from the empty mailbox. -/
abbrev Run (events : List (RoundEvent ρ)) (last : Rounds ρ) : Prop := Steps new events last

theorem Run.counts (run : Run events last) (route : ρ) :
    events.count (.publish route) = events.count (.pop route) + last.isPending route := by
  have counted := Steps.counts run new_disjoint route
  have none : (new : Rounds ρ).isPending route = 0 := by simp [isPending, pending, new]
  omega

theorem Run.outstanding_iff (run : Run events last) (route : ρ) :
    Outstanding route events ↔ route ∈ last.pending := by
  have counted := run.counts route
  unfold Outstanding isPending at *
  split at counted
  · rename_i member
    exact ⟨fun _ => member, fun _ => by omega⟩
  · rename_i absent
    exact ⟨fun less => by omega, fun member => absurd member absent⟩

theorem Run.of_append {more : List (RoundEvent ρ)} (run : Run (events ++ more) last) :
    ∃ middle, Run events middle ∧ Steps middle more last := Steps.split run

/-- In every prefix, a route was popped as often as published, or once less. -/
theorem Run.balanced {more : List (RoundEvent ρ)} (run : Run (events ++ more) last) (route : ρ) :
    events.count (.pop route) ≤ events.count (.publish route) ∧
      events.count (.publish route) ≤ events.count (.pop route) + 1 := by
  obtain ⟨middle, before, -⟩ := run.of_append
  have counted := before.counts route
  have small : middle.isPending route ≤ 1 := by
    unfold isPending
    split <;> omega
  omega

/-! ## Rounds -/

theorem Step.batch {next : Rounds ρ} {event : RoundEvent ρ} (step : Step first event next)
    {route : ρ} (member : route ∈ first.batch) : event = .pop route ∨ route ∈ next.batch := by
  cases step with
  | pop popped inside =>
      by_cases same : popped = route
      · exact .inl (congrArg RoundEvent.pop same)
      · exact .inr (Finset.mem_erase.mpr ⟨Ne.symm same, member⟩)
  | capture => exact absurd member (Finset.notMem_empty route)
  | publish | ring | empty | found | missed | ready | arm | disarm => exact .inr member

theorem Steps.batch (steps : Steps first events last) {route : ρ} (member : route ∈ first.batch) :
    .pop route ∈ events ∨ route ∈ last.batch := by
  induction steps with
  | nil => exact .inr member
  | cons step _ ih =>
      rcases step.batch member with rfl | kept
      · exact .inl List.mem_cons_self
      · exact (ih kept).imp_left (List.mem_cons_of_mem _)

theorem Step.fresh {next : Rounds ρ} {event : RoundEvent ρ} (step : Step first event next)
    (same : event ≠ .capture) {route : ρ} (member : route ∈ first.fresh) :
    route ∈ next.fresh := by
  cases step with
  | publish => exact Finset.mem_insert_of_mem member
  | capture => exact absurd rfl same
  | ring | pop | empty | found | missed | ready | arm | disarm => exact member

theorem Steps.fresh (steps : Steps first events last) (noCapture : .capture ∉ events) {route : ρ}
    (member : route ∈ first.fresh) : route ∈ last.fresh := by
  induction steps with
  | nil => exact member
  | cons step _ ih =>
      rw [List.mem_cons, not_or] at noCapture
      exact ih noCapture.2 (step.fresh (Ne.symm noCapture.1) member)

/-- A route published while a batch is served waits for the next round. -/
theorem Steps.published (steps : Steps first events last) (noCapture : .capture ∉ events)
    {route : ρ} (published : .publish route ∈ events) : route ∈ last.fresh := by
  induction steps with
  | nil => cases published
  | cons step rest ih =>
      rw [List.mem_cons, not_or] at noCapture
      rcases List.mem_cons.mp published with rfl | later
      · cases step with
        | publish absent => exact rest.fresh noCapture.2 (Finset.mem_insert_self _ _)
      · exact ih noCapture.2 later

/-- All routes of a captured batch are popped before a route published after the capture. -/
theorem Run.batch_first {before between after : List (RoundEvent ρ)} {route other : ρ}
    (run : Run (before ++ .capture :: between ++ .pop route :: after) last)
    (later : .publish route ∈ between) (outstanding : Outstanding other before) :
    .pop other ∈ between := by
  rw [List.append_assoc] at run
  obtain ⟨start, earlier, rest⟩ := run.of_append
  have member := (earlier.outstanding_iff other).mp outstanding
  cases rest with
  | cons captured rest =>
      cases captured with
      | capture fresh armed =>
          have captured : other ∈ fresh := by simpa [pending] using member
          obtain ⟨middle, served, popped⟩ := rest.split
          by_cases again : .capture ∈ between
          · -- The next capture finds the batch empty.
            obtain ⟨front, back, rfl⟩ := List.append_of_mem again
            obtain ⟨empty, left, right⟩ := served.split
            cases right with
            | cons step _ =>
                cases step with
                | capture =>
                    rcases left.batch captured with found | kept
                    · exact List.mem_append_left _ found
                    · exact absurd kept (Finset.notMem_empty other)
          · have waiting := served.published again later
            have apart := served.disjoint (Finset.disjoint_empty_right fresh)
            cases popped with
            | cons step _ =>
                cases step with
                | pop _ inBatch =>
                    exact absurd waiting (Finset.disjoint_left.mp apart inBatch)

/-! ## The doorbell -/

/-- The consumer armed itself and has not disarmed since. -/
def Armed (events : List (RoundEvent ρ)) : Prop :=
  ∃ before after, events = before ++ .arm false :: after ∧ .disarm ∉ after

omit [DecidableEq ρ] in
theorem armed_cons {event : RoundEvent ρ} : Armed (event :: events) ↔
    event = .arm false ∧ .disarm ∉ events ∨ Armed events := by
  constructor
  · rintro ⟨before, after, whole, quiet⟩
    cases before with
    | nil =>
        obtain ⟨rfl, rfl⟩ := List.cons.inj whole
        exact .inl ⟨rfl, quiet⟩
    | cons other before =>
        obtain ⟨-, rfl⟩ := List.cons.inj whole
        exact .inr ⟨before, after, rfl, quiet⟩
  · rintro (⟨rfl, quiet⟩ | ⟨before, after, rfl, quiet⟩)
    · exact ⟨[], events, rfl, quiet⟩
    · exact ⟨event :: before, after, rfl, quiet⟩

theorem Step.armed_iff {next : Rounds ρ} {event : RoundEvent ρ} (step : Step first event next) :
    next.armed = true ↔ event = .arm false ∨ first.armed = true ∧ .disarm ≠ event := by
  cases step <;> simp

theorem Steps.armed_iff (steps : Steps first events last) :
    last.armed = true ↔ Armed events ∨ first.armed = true ∧ .disarm ∉ events := by
  induction steps with
  | nil => simp [Armed]
  | @cons _ _ _ event events step _ ih =>
      rw [ih, step.armed_iff, armed_cons, List.mem_cons, not_or]
      tauto

theorem Run.armed_iff (run : Run events last) : last.armed = true ↔ Armed events := by
  rw [Steps.armed_iff run]
  simp [new]

/-- The ring of a publisher answers whether the consumer is armed. -/
theorem Run.rings {before after : List (RoundEvent ρ)} {answer : Bool}
    (run : Run (before ++ .ring answer :: after) last) : answer = true ↔ Armed before := by
  obtain ⟨middle, earlier, rest⟩ := run.of_append
  cases rest with
  | cons step _ =>
      cases step with
      | ring => exact earlier.armed_iff

/-- The consumer is armed only when nothing is outstanding. -/
theorem Run.arms {before after : List (RoundEvent ρ)}
    (run : Run (before ++ .arm false :: after) last) (route : ρ) : ¬ Outstanding route before := by
  obtain ⟨middle, earlier, rest⟩ := run.of_append
  rw [earlier.outstanding_iff]
  cases rest with
  | cons step _ =>
      cases step with
      | arm none =>
          rw [none]
          exact Finset.notMem_empty route

theorem Run.empties {before after : List (RoundEvent ρ)}
    (run : Run (before ++ .empty :: after) last) (route : ρ) : ¬ Outstanding route before := by
  obtain ⟨middle, earlier, rest⟩ := run.of_append
  rw [earlier.outstanding_iff]
  cases rest with
  | cons step _ =>
      cases step with
      | empty none =>
          rw [none]
          exact Finset.notMem_empty route

/-- A check that finds work is right. -/
theorem Run.finds {before after : List (RoundEvent ρ)}
    (run : Run (before ++ .check true :: after) last) : ∃ route, Outstanding route before := by
  obtain ⟨middle, earlier, rest⟩ := run.of_append
  cases rest with
  | cons step _ =>
      cases step with
      | found some =>
          obtain ⟨route, member⟩ := some
          exact ⟨route, (earlier.outstanding_iff route).mpr member⟩

/-! ## No route starves -/

section Bound

variable [Fintype ρ]

/-- How many pops a route can still have to wait for, its own included. -/
def turn (rounds : Rounds ρ) (route : ρ) : Nat :=
  if route ∈ rounds.batch then rounds.batch.card else rounds.batch.card + Fintype.card ρ

def isPop : RoundEvent ρ → Bool
  | .pop _ => true
  | _ => false

theorem Step.turns {next : Rounds ρ} {event : RoundEvent ρ} (step : Step first event next)
    {route : ρ} (waiting : route ∈ first.pending) (other : event ≠ .pop route) :
    route ∈ next.pending ∧ [event].countP isPop + next.turn route ≤ first.turn route := by
  cases step with
  | publish absent =>
      have kept : route ∈ first.batch ∨ route ∈ first.fresh := Finset.mem_union.mp waiting
      refine ⟨Finset.mem_union.mpr (kept.imp_right Finset.mem_insert_of_mem), ?_⟩
      exact Nat.le_of_eq (Nat.zero_add _)
  | capture fresh armed =>
      have captured : route ∈ fresh := by simpa [pending] using waiting
      refine ⟨Finset.mem_union_left _ captured, ?_⟩
      have small := Finset.card_le_univ fresh
      simpa [turn, captured, isPop] using small
  | pop popped inBatch =>
      have differs : route ≠ popped := fun same => other (congrArg RoundEvent.pop same.symm)
      have size := Finset.card_erase_add_one inBatch
      have membership : route ∈ first.batch.erase popped ↔ route ∈ first.batch := by
        simp [differs]
      refine ⟨?_, ?_⟩
      · rcases Finset.mem_union.mp waiting with batch | fresh
        · exact Finset.mem_union_left _ (membership.mpr batch)
        · exact Finset.mem_union_right _ fresh
      · simp only [turn, membership, List.countP_singleton, isPop, if_true]
        split <;> omega
  | ring | empty | found | missed | ready | arm | disarm =>
      exact ⟨waiting, Nat.le_of_eq (Nat.zero_add _)⟩

theorem Steps.turns (steps : Steps first events last) {route : ρ}
    (waiting : route ∈ first.pending) (unserved : .pop route ∉ events) :
    route ∈ last.pending ∧ events.countP isPop + last.turn route ≤ first.turn route := by
  induction steps with
  | nil => exact ⟨waiting, Nat.le_of_eq (Nat.zero_add _)⟩
  | @cons _ _ _ event events step _ ih =>
      rw [List.mem_cons, not_or] at unserved
      obtain ⟨still, here⟩ := step.turns waiting (Ne.symm unserved.1)
      obtain ⟨atEnd, rest⟩ := ih still unserved.2
      have counted : (event :: events).countP isPop = _ :=
        @List.countP_append _ isPop [event] events
      exact ⟨atEnd, by omega⟩

/-- While a publication waits, the other routes are popped less than twice each. -/
theorem Run.bounded_wait {before between : List (RoundEvent ρ)} {route : ρ}
    (run : Run (before ++ .publish route :: between) last) (unserved : .pop route ∉ between) :
    between.countP isPop ≤ 2 * (Fintype.card ρ - 1) := by
  obtain ⟨start, earlier, rest⟩ := run.of_append
  cases rest with
  | cons step rest =>
      cases step with
      | publish _ absent =>
          have notBatch : route ∉ start.batch := fun member =>
            absent (Finset.mem_union_left _ member)
          have small : start.batch.card < Fintype.card ρ :=
            Finset.card_lt_univ_of_notMem notBatch
          obtain ⟨waiting, spent⟩ := rest.turns
            (Finset.mem_union_right _ (Finset.mem_insert_self _ _)) unserved
          have begins : (⟨start.batch, insert route start.fresh, start.armed⟩ : Rounds ρ).turn
              route = start.batch.card + Fintype.card ρ := if_neg notBatch
          have ends : 1 ≤ last.turn route := by
            unfold turn
            split
            · rename_i member
              exact Finset.card_pos.mpr ⟨route, member⟩
            · omega
          omega

end Bound

end Rounds

end VThread.Lib

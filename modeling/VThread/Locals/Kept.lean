import Mathlib.Data.Nat.Basic
import VThread.Locals.Teardown

/-!
# Task-local values of every run

Over every tree of calls, with any code of the user, a task keeps to its capacity, runs no
initializer inside itself, and leaves nothing to the next task of its context.
-/

namespace VThread.Locals

open VThread.Lib

variable {K : Type} [LinearOrder K] {state state' : State K}

theorem reachable_inv (reachable : (machine K).system.Reachable state) : Inv state := by
  induction reachable with
  | initial isInitial =>
      obtain ⟨capacity, rfl⟩ := isInitial
      exact inv_fresh capacity
  | step _ taken ih =>
      obtain ⟨choice, taken⟩ := taken
      exact moved_inv ih (moved_of_next ih taken)

/-- What holds of a context in a state: it keeps to its capacity, its placeholders are those of the
initializers that run, no assertion failed, and a teardown drops every value once. -/
structure Law (state : State K) : Prop where
  room : state.values.items.length ≤ state.capacity
  running : ∀ key, state.values.find? key = some (key, .initializing) ↔
    .initializer key ∈ state.frames
  recursive : ∀ key, .initializer key ∈ state.frames →
    state.call key = { state with
      answer := some (if state.closing then .runtimeStopped else .recursiveTaskLocal) }
  unpanicked : ∀ message, state.phase ≠ .panicked message
  undropped : ∀ suspended, state.phase = .live suspended → state.dropped = []
  once : state.dropped.Nodup
  torn : ∀ rest, state.phase = .clearing rest → state.closing = true ∧ state.values.items = []
  all : state.phase = .cleared → state.values.items = [] ∧
    ∀ value, value ∈ state.dropped ↔ value ∈ state.made
  recycled : state.phase = .recycled → state.values.items = []

theorem find?_of_empty {values : Values K} (empty : values.items = []) (key : K) :
    values.find? key = none := by
  rw [Ordered.find?, empty]
  rfl

/-- Without values or code there are no placeholders. -/
theorem running_of_empty (empty : state.values.items = [])
    (uninitializing : ∀ key, .initializer key ∉ state.frames) (key : K) :
    state.values.find? key = some (key, .initializing) ↔ .initializer key ∈ state.frames := by
  rw [find?_of_empty empty]
  exact iff_of_false nofun (uninitializing key)

theorem Torn.uninitializing {rest : List (Value K)} (torn : Torn state rest) (key : K) :
    .initializer key ∉ state.frames := by
  intro member
  obtain ⟨value, impossible⟩ := torn.destructors _ member
  cases impossible

theorem Inv.running (inv : Inv state) (key : K) :
    state.values.find? key = some (key, .initializing) ↔ .initializer key ∈ state.frames := by
  cases phase : state.phase with
  | live =>
      rw [Ordered.find?_eq_some, (inv.live phase).running, mem_initializing]
      exact and_iff_left rfl
  | clearing rest =>
      have torn := inv.torn phase
      exact running_of_empty torn.empty torn.uninitializing key
  | cleared =>
      have torn := (inv.cleared phase).1
      exact running_of_empty torn.empty torn.uninitializing key
  | recycled =>
      rw [Inv, phase] at inv
      exact running_of_empty inv.1 (fun key => inv.2.1 ▸ List.not_mem_nil) key
  | panicked =>
      rw [Inv, phase] at inv
      exact inv.elim

theorem Inv.law (inv : Inv state) : Law state := by
  constructor
  case room =>
    cases phase : state.phase with
    | live => exact (inv.live phase).room
    | clearing rest =>
        rw [(inv.torn phase).empty]
        exact Nat.zero_le _
    | cleared =>
        rw [(inv.cleared phase).1.empty]
        exact Nat.zero_le _
    | recycled =>
        rw [Inv, phase] at inv
        rw [inv.1]
        exact Nat.zero_le _
    | panicked =>
        rw [Inv, phase] at inv
        exact inv.elim
  case running => exact inv.running
  case recursive =>
    intro key running
    by_cases closing : state.closing = true
    · rw [call_stopped closing, if_pos closing]
    · rw [call_initializing (Bool.not_eq_true _ ▸ closing)
        (find?_initializing ((inv.running key).mpr running)), if_neg closing]
  case unpanicked =>
    intro message phase
    rw [Inv, phase] at inv
    exact inv
  case undropped =>
    intro suspended phase
    exact (inv.live phase).undropped
  case once =>
    cases phase : state.phase with
    | live =>
        rw [(inv.live phase).undropped]
        exact List.nodup_nil
    | clearing rest => exact (inv.torn phase).nodup
    | cleared => exact (inv.cleared phase).1.nodup
    | recycled =>
        rw [Inv, phase] at inv
        exact inv.2.2
    | panicked =>
        rw [Inv, phase] at inv
        exact inv.elim
  case torn =>
    intro rest phase
    exact ⟨(inv.torn phase).closing, (inv.torn phase).empty⟩
  case all =>
    intro phase
    have torn := (inv.cleared phase).1
    refine ⟨torn.empty, fun value => ?_⟩
    rw [← torn.accounted.mem_iff, kept, List.append_nil]
  case recycled =>
    intro phase
    rw [Inv, phase] at inv
    exact inv.1

/-! ## Steps -/

/-- What a step does to the map: a rejected call leaves everything, other calls run the initializer
of an absent key or the callback with the value of a key, an initializer that returns leaves a new
value and one that unwinds leaves its key absent and room for it, values stay while the task
lives, and a teardown makes none. -/
structure Moves (choice : Choice K) (state state' : State K) : Prop where
  rejected : ∀ key answer, choice = .call key → Rejected state key answer →
    state' = { state with answer := some answer }
  afresh : ∀ key, choice = .call key → state.closing = false →
    state.values.find? key = none → state.values.items.length < state.capacity →
      state'.frames = .initializer key :: state.frames
  sees : ∀ key value, choice = .call key → state.closing = false →
    state.values.find? key = some (key, .ready value) →
      state' = { state with frames := .body key value :: state.frames }
  returned : ∀ key below, choice = .finish → state.frames = .initializer key :: below →
    ∃ value, value ∉ state.made ∧ state'.made = value :: state.made ∧
      state'.frames = .body key value :: below ∧
      ∀ other, state'.values.find? other =
        if other = key then some (key, .ready value) else state.values.find? other
  unwound : ∀ key below, choice = .unwind → state.frames = .initializer key :: below →
    state'.frames = below ∧ state'.values.items.length < state'.capacity ∧
      ∀ other, state'.values.find? other =
        if other = key then none else state.values.find? other
  stays : ∀ key value suspended, state'.phase = .live suspended →
    (∀ capacity, choice ≠ .reuse capacity) →
      state.values.find? key = some (key, .ready value) →
        state'.values.find? key = some (key, .ready value)
  unmade : ∀ rest, state.phase = .clearing rest →
    state'.made = state.made ∧ state'.values.items = []

theorem called_of_next {key : K} (taken : state.next (.call key) = some state') :
    state.runs ∧ state' = state.call key := by
  obtain ⟨runs, taken⟩ := Option.ite_none_right_eq_some.mp taken
  exact ⟨runs, (Option.some.inj taken).symm⟩

theorem Rejected.call {key : K} {answer : Answer} (rejected : Rejected state key answer) :
    state.call key = { state with answer := some answer } := by
  cases rejected with
  | stopped closing => exact call_stopped closing
  | recursive closing member => exact call_initializing closing member
  | full closing absent full => exact call_full closing absent full

/-- A call that is not rejected for closing is made by a live task. -/
theorem Inv.calls (inv : Inv state) (runs : state.runs) (closing : state.closing = false) :
    Live state := by
  rcases runs_cases runs with phase | ⟨rest, phase, -⟩
  · exact inv.live phase
  · exact absurd (closing.symm.trans (inv.torn phase).closing) nofun

theorem find?_insert_of {values : Values K} {key : K} {value : Value K} (other : K) :
    (values.insert (key, value)).find? other =
      if other = key then some (key, value) else values.find? other := by
  rw [Ordered.find?_insert]
  simp only [eq_comm]

/-- Values stay through every step of a live task. -/
theorem moved_stays {choice : Choice K} {key : K} {value : Made K} {suspended : Bool}
    (inv : Inv state) (moved : Moved state choice state')
    (lives : state'.phase = .live suspended) (same : ∀ capacity, choice ≠ .reuse capacity)
    (found : state.values.find? key = some (key, .ready value)) :
    state'.values.find? key = some (key, .ready value) := by
  cases moved with
  | rejected | enters | returned | unwound | stopped | suspended | resumed | forced =>
      exact found
  | @afresh other phase closing absent room =>
      rw [find?_insert_of, if_neg]
      · exact found
      · rintro rfl
        exact absurd (absent.symm.trans found) nofun
  | @initialized other below phase frames =>
      rw [find?_insert_of, if_neg]
      · exact found
      · rintro rfl
        have placeholder := ((inv.live phase).top frames).1
        exact nomatch values_keyed (find?_ready found) placeholder rfl
  | @abandoned other below phase frames =>
      rw [State.abandoned, Ordered.find?_erase, if_neg]
      · exact found
      · rintro rfl
        have placeholder := ((inv.live phase).top frames).1
        exact nomatch values_keyed (find?_ready found) placeholder rfl
  | destructed => exact found
  | completed =>
      rw [State.completed] at lives
      split at lives
      · cases lives
      · cases lives
  | reclaimed => cases lives
  | again phase => cases lives
  | dropped =>
      rw [dropNext_phase] at lives
      cases lives
  | cleared => cases lives
  | recycled phase =>
      rw [State.recycle] at lives
      split at lives
      · cases lives
      · cases lives
  | reused phase => exact absurd rfl (same _)

theorem dropNext_kept (state : State K) (rest : List (Value K)) (value : Value K) :
    (state.dropNext rest value).made = state.made ∧
      (state.dropNext rest value).values = state.values := by
  cases value with
  | initializing => exact ⟨rfl, rfl⟩
  | ready value =>
      rw [State.dropNext, State.release]
      split <;> exact ⟨rfl, rfl⟩

/-- No destructor makes a value. -/
theorem moved_unmade {choice : Choice K} {rest : List (Value K)} (inv : Inv state)
    (moved : Moved state choice state') (clearing : state.phase = .clearing rest) :
    state'.made = state.made ∧ state'.values.items = [] := by
  have torn := inv.torn clearing
  cases moved with
  | rejected | destructed | stopped | cleared => exact ⟨rfl, torn.empty⟩
  | dropped =>
      obtain ⟨made, values⟩ := dropNext_kept state _ _
      exact ⟨made, values ▸ torn.empty⟩
  | afresh phase | enters phase | initialized phase | abandoned phase | returned phase
  | unwound phase | suspended phase | resumed phase | forced phase | completed phase
  | reclaimed phase | again phase | recycled phase | reused phase =>
      exact absurd (phase.symm.trans clearing) nofun

theorem moves_of_next {choice : Choice K} (inv : Inv state)
    (taken : state.next choice = some state') : Moves choice state state' := by
  have moved := moved_of_next inv taken
  constructor
  case rejected =>
    rintro key answer rfl rejected
    exact (called_of_next taken).2.trans rejected.call
  case afresh =>
    rintro key rfl closing absent room
    rw [(called_of_next taken).2, call_afresh closing absent room]
  case sees =>
    rintro key value rfl closing found
    obtain ⟨runs, rfl⟩ := called_of_next taken
    rw [call_ready closing (find?_ready found)]
    exact ((inv.calls runs closing).enter (find?_ready found)).1
  case returned =>
    rintro key below rfl frames
    cases moved with
    | initialized phase top =>
        cases frames.symm.trans top
        refine ⟨_, fun again => ?_, rfl, rfl, find?_insert_of⟩
        exact absurd ((inv.live phase).numbers _ again) (Nat.lt_irrefl _)
    | returned phase top => cases frames.symm.trans top
    | destructed _ phase top => cases frames.symm.trans top
  case unwound =>
    rintro key below rfl frames
    cases moved with
    | abandoned phase top =>
        cases frames.symm.trans top
        have live := inv.live phase
        have freed := Ordered.length_erase (live.top frames).1
        have room := live.room
        refine ⟨rfl, ?_, fun other => Ordered.find?_erase⟩
        exact Nat.lt_of_lt_of_le (Nat.lt_of_lt_of_eq (Nat.lt_succ_self _) freed) room
    | unwound phase top => cases frames.symm.trans top
    | destructed _ phase top => cases frames.symm.trans top
  case stays =>
    intro key value suspended lives same found
    exact moved_stays inv moved lives same found
  case unmade =>
    intro rest phase
    exact moved_unmade inv moved phase

/-! ## Runs -/

/-- Steps of a task that stays alive. -/
def Lives (state state' : State K) : Prop :=
  Relation.ReflTransGen (fun before after =>
    (∃ suspended, after.phase = .live suspended) ∧
      ∃ choice, (∀ capacity, choice ≠ .reuse capacity) ∧ before.next choice = some after)
    state state'

theorem Lives.stays {key : K} {value : Made K} (inv : Inv state) (lives : Lives state state')
    (found : state.values.find? key = some (key, .ready value)) :
    Inv state' ∧ state'.values.find? key = some (key, .ready value) := by
  induction lives with
  | refl => exact ⟨inv, found⟩
  | tail _ taken ih =>
      obtain ⟨⟨suspended, alive⟩, choice, same, taken⟩ := taken
      have moved := moved_of_next ih.1 taken
      exact ⟨moved_inv ih.1 moved, moved_stays ih.1 moved alive same ih.2⟩

/-- Over every run, values are made once for every task and key, and are gone before the context
goes to another task. -/
theorem values_kept (reachable : (machine K).system.Reachable state) :
    Law state ∧ (∀ choice state', state.next choice = some state' → Moves choice state state') ∧
      ∀ state', Lives state state' → ∀ key value,
        state.values.find? key = some (key, .ready value) →
          state'.values.find? key = some (key, .ready value) := by
  have inv := reachable_inv reachable
  exact ⟨inv.law, fun _ _ taken => moves_of_next inv taken,
    fun _ lives _ _ found => (lives.stays inv found).2⟩

/-- A task that made a value, after its teardown. -/
theorem values_kept_cleared : ∃ state, (machine Nat).system.Reachable state ∧
    state.phase = .cleared ∧ state.dropped = [⟨7, 0⟩] ∧ Law state := by
  have reachable : (machine Nat).system.Reachable _ :=
    .step (.step (.step (.step (.step (.step (.step (.step (.initial ⟨1, rfl⟩)
      ⟨.resume, rfl⟩) ⟨.call 7, rfl⟩) ⟨.finish, rfl⟩) ⟨.finish, rfl⟩) ⟨.complete, rfl⟩)
      ⟨.drop, rfl⟩) ⟨.unwind, rfl⟩) ⟨.drop, rfl⟩
  exact ⟨_, reachable, rfl, rfl, (values_kept reachable).1⟩

/-- A call on the key of a running initializer is not rejected as recursive once the task was forced
to unwind. -/
theorem recursion_stopped : ∃ state, (machine Nat).system.Reachable state ∧ state.runs = true ∧
    .initializer 7 ∈ state.frames ∧ (state.call 7).answer = some .runtimeStopped := by
  have reachable : (machine Nat).system.Reachable _ :=
    .step (.step (.step (.step (.initial ⟨1, rfl⟩) ⟨.resume, rfl⟩) ⟨.call 7, rfl⟩)
      ⟨.suspend, rfl⟩) ⟨.force, rfl⟩
  exact ⟨_, reachable, rfl, List.mem_cons_self, rfl⟩

end VThread.Locals

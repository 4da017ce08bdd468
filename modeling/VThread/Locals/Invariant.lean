import Mathlib.Data.List.Perm.Basic
import VThread.Locals.Context

/-!
# Placeholders and values

Every placeholder in the map is of an initializer that still runs, and of one; every value that was
made for the task is in the map until the teardown takes them all.
-/

namespace VThread.Locals

open VThread.Lib

variable {K : Type}

/-- The keys whose initializers run. -/
def initializing : List (Frame K) → List K
  | [] => []
  | .initializer key :: below => key :: initializing below
  | .body _ _ :: below => initializing below
  | .destructor _ :: below => initializing below

theorem mem_initializing {key : K} {frames : List (Frame K)} :
    key ∈ initializing frames ↔ .initializer key ∈ frames := by
  induction frames with
  | nil => simp [initializing]
  | cons frame below ih => cases frame <;> simp [initializing, ih]

/-- The values that a list of entries keeps. -/
def kept : List (Value K) → List (Made K)
  | [] => []
  | .initializing :: rest => kept rest
  | .ready value :: rest => value :: kept rest

theorem mem_kept {value : Made K} {rest : List (Value K)} :
    value ∈ kept rest ↔ .ready value ∈ rest := by
  induction rest with
  | nil => simp [kept]
  | cons entry rest ih => cases entry <;> simp [kept, ih]

variable [LinearOrder K]

/-- A live task: placeholders are of running initializers, the map has every value that was made,
under its key, and callbacks run with values of the map. -/
structure Live (state : State K) : Prop where
  room : state.values.items.length ≤ state.capacity
  running : ∀ key, (key, Value.initializing) ∈ state.values ↔ key ∈ initializing state.frames
  once : (initializing state.frames).Nodup
  values : ∀ key value, (key, Value.ready value) ∈ state.values ↔
    value.key = key ∧ value ∈ state.made
  bodies : ∀ key value, .body key value ∈ state.frames → value.key = key ∧ value ∈ state.made
  live : ∀ value, .destructor value ∉ state.frames
  numbers : ∀ value ∈ state.made, value.number < state.made.length
  distinct : state.made.Nodup
  undropped : state.dropped = []

/-- A torn down task: the map is empty and stays so, at most a destructor runs, and every value that
was made is dropped, or still to be. -/
structure Torn (state : State K) (rest : List (Value K)) : Prop where
  closing : state.closing = true
  empty : state.values.items = []
  destructors : ∀ frame ∈ state.frames, ∃ value, frame = .destructor value
  accounted : (state.dropped ++ kept rest).Perm state.made
  distinct : state.made.Nodup

def Inv (state : State K) : Prop :=
  match state.phase with
  | .live _ => Live state
  | .clearing rest => Torn state rest
  | .cleared => Torn state [] ∧ state.frames = []
  | .recycled => state.values.items = [] ∧ state.frames = [] ∧ state.dropped.Nodup
  | .panicked _ => False

/-! ## Calls -/

section Calls

variable {state : State K} {key : K}

theorem values_keyed {values : Values K} {key other : K} {left right : Value K}
    (isLeft : (key, left) ∈ values) (isRight : (other, right) ∈ values) (same : key = other) :
    left = right := by
  have equal := Ordered.eq_of_key isLeft isRight same
  exact congrArg Prod.snd equal

theorem find?_ready {key found : K} {value : Made K} {values : Values K}
    (entry : values.find? key = some (found, .ready value)) :
    (key, Value.ready value) ∈ values := by
  obtain ⟨member, rfl⟩ := Ordered.find?_eq_some.mp entry
  exact member

theorem find?_initializing {key found : K} {values : Values K}
    (entry : values.find? key = some (found, .initializing)) :
    (key, Value.initializing) ∈ values := by
  obtain ⟨member, rfl⟩ := Ordered.find?_eq_some.mp entry
  exact member

/-- What a call does, where the task is not closing. -/
inductive Called (state : State K) (key : K) : State K → Prop where
  | stopped : state.closing = true →
      Called state key { state with answer := some .runtimeStopped }
  | recursive : state.closing = false → (key, Value.initializing) ∈ state.values →
      Called state key { state with answer := some .recursiveTaskLocal }
  | full : state.closing = false → state.values.find? key = none →
      state.capacity ≤ state.values.items.length →
      Called state key { state with answer := some (.capacity state.capacity) }
  | afresh : state.closing = false → state.values.find? key = none →
      state.values.items.length < state.capacity →
      Called state key { state with
        values := state.values.insert (key, .initializing)
        frames := .initializer key :: state.frames }
  | enters {value : Made K} : state.closing = false → (key, Value.ready value) ∈ state.values →
      Called state key (state.enter key value)

theorem call_stopped (closing : state.closing = true) :
    state.call key = { state with answer := some .runtimeStopped } := by
  rw [State.call, if_pos closing]

variable (closing : state.closing = false)
include closing

theorem call_ready {value : Made K} (member : (key, Value.ready value) ∈ state.values) :
    state.call key = state.enter key value := by
  have entry : state.values.find? key = some (key, .ready value) :=
    Ordered.find?_eq_some.mpr ⟨member, rfl⟩
  simp [State.call, closing, entry]

theorem call_initializing (member : (key, Value.initializing) ∈ state.values) :
    state.call key = { state with answer := some .recursiveTaskLocal } := by
  have entry : state.values.find? key = some (key, .initializing) :=
    Ordered.find?_eq_some.mpr ⟨member, rfl⟩
  simp [State.call, closing, entry]

theorem call_full (absent : state.values.find? key = none)
    (full : state.capacity ≤ state.values.items.length) :
    state.call key = { state with answer := some (.capacity state.capacity) } := by
  simp [State.call, closing, absent, full]

theorem call_afresh (absent : state.values.find? key = none)
    (room : state.values.items.length < state.capacity) :
    state.call key = { state with
      values := state.values.insert (key, .initializing)
      frames := .initializer key :: state.frames } := by
  simp [State.call, closing, absent, Nat.not_le.mpr room]

omit closing

theorem called (state : State K) (key : K) : Called state key (state.call key) := by
  by_cases stopped : state.closing = true
  · rw [call_stopped stopped]
    exact .stopped stopped
  have closing : state.closing = false := Bool.not_eq_true _ ▸ stopped
  cases entry : state.values.find? key with
  | none =>
      by_cases full : state.capacity ≤ state.values.items.length
      · rw [call_full closing entry full]
        exact .full closing entry full
      · rw [call_afresh closing entry (Nat.not_le.mp full)]
        exact .afresh closing entry (Nat.not_le.mp full)
  | some found =>
      obtain ⟨found, value⟩ := found
      cases value with
      | initializing =>
          rw [call_initializing closing (find?_initializing entry)]
          exact .recursive closing (find?_initializing entry)
      | ready value =>
          rw [call_ready closing (find?_ready entry)]
          exact .enters closing (find?_ready entry)

end Calls

/-! ## Live tasks -/

section Live

variable {state : State K} {key : K} {below : List (Frame K)}

theorem Live.afresh (live : Live state) (absent : state.values.find? key = none)
    (room : state.values.items.length < state.capacity) :
    Live { state with
      values := state.values.insert (key, .initializing)
      frames := .initializer key :: state.frames } := by
  have unkeyed := Ordered.find?_eq_none.mp absent
  constructor
  case room =>
    rw [Ordered.length_insert absent]
    exact room
  case running =>
    intro other
    rw [Ordered.mem_insert, initializing, List.mem_cons, live.running]
    constructor
    · rintro (same | ⟨running, -⟩)
      · exact .inl (congrArg Prod.fst same)
      · exact .inr running
    · rintro (rfl | running)
      · exact .inl rfl
      · exact .inr ⟨running, unkeyed _ ((live.running other).mpr running)⟩
  case once =>
    rw [initializing, List.nodup_cons]
    refine ⟨fun running => ?_, live.once⟩
    exact unkeyed _ ((live.running key).mpr running) rfl
  case values =>
    intro other value
    rw [Ordered.mem_insert, ← live.values]
    constructor
    · rintro (same | ⟨member, -⟩)
      · cases same
      · exact member
    · intro member
      exact .inr ⟨member, unkeyed _ member⟩
  case bodies =>
    intro other value member
    simp only [List.mem_cons, reduceCtorEq, false_or] at member
    exact live.bodies other value member
  case live =>
    intro value member
    simp only [List.mem_cons, reduceCtorEq, false_or] at member
    exact live.live value member
  case numbers => exact live.numbers
  case distinct => exact live.distinct
  case undropped => exact live.undropped

/-- A callback runs with the value of its key. -/
theorem Live.enter {value : Made K} (live : Live state)
    (member : (key, Value.ready value) ∈ state.values) :
    state.enter key value = { state with frames := .body key value :: state.frames } ∧
      Live { state with frames := .body key value :: state.frames } := by
  have own := (live.values key value).mp member
  refine ⟨if_pos own.1, ?_⟩
  constructor
  case room => exact live.room
  case running => exact live.running
  case once => exact live.once
  case values => exact live.values
  case bodies =>
    intro other value' inside
    cases List.mem_cons.mp inside with
    | inl same =>
        cases same
        exact own
    | inr earlier => exact live.bodies other value' earlier
  case live =>
    intro value' inside
    simp only [List.mem_cons, reduceCtorEq, false_or] at inside
    exact live.live value' inside
  case numbers => exact live.numbers
  case distinct => exact live.distinct
  case undropped => exact live.undropped

/-- While an initializer runs, its key has the placeholder, and no other initializer runs for it. -/
theorem Live.top (live : Live state) (frames : state.frames = .initializer key :: below) :
    (key, Value.initializing) ∈ state.values ∧ key ∉ initializing below := by
  have once := live.once
  rw [frames, initializing, List.nodup_cons] at once
  refine ⟨(live.running key).mpr ?_, once.1⟩
  rw [frames, initializing]
  exact List.mem_cons_self

theorem Live.others (live : Live state) (frames : state.frames = .initializer key :: below)
    (other : K) : other ∈ initializing below ↔
      (other, Value.initializing) ∈ state.values ∧ other ≠ key := by
  rw [live.running, frames, initializing, List.mem_cons]
  constructor
  · intro running
    refine ⟨.inr running, ?_⟩
    rintro rfl
    exact (live.top frames).2 running
  · rintro ⟨rfl | running, differ⟩
    · exact absurd rfl differ
    · exact running

theorem lost_initializing {values : Values K} (member : (key, Value.initializing) ∈ values) :
    State.lost (values.find? key) = [] := by
  rw [Ordered.find?_eq_some.mpr ⟨member, rfl⟩]
  rfl

/-- An initializer that returns leaves its value in place of the placeholder. -/
theorem Live.initialized (live : Live state)
    (frames : state.frames = .initializer key :: below) :
    Live { state with
      values := state.values.insert (key, .ready ⟨key, state.made.length⟩)
      frames := below
      made := ⟨key, state.made.length⟩ :: state.made
      dropped := State.lost (state.values.find? key) ++ state.dropped } := by
  have placeholder := (live.top frames).1
  have unready : ∀ value, (key, Value.ready value) ∉ state.values := fun value member =>
    nomatch values_keyed member placeholder rfl
  constructor
  case room =>
    have same : (state.values.insert (key, .ready ⟨key, state.made.length⟩)).items.length =
        state.values.items.length := Ordered.length_replace placeholder rfl
    exact Nat.le_trans (Nat.le_of_eq same) live.room
  case running =>
    intro other
    rw [live.others frames, Ordered.mem_insert]
    simp only [Prod.mk.injEq, reduceCtorEq, and_false, false_or, ne_eq]
  case once =>
    have once := live.once
    rw [frames, Locals.initializing, List.nodup_cons] at once
    exact once.2
  case values =>
    intro other value
    rw [Ordered.mem_insert, List.mem_cons, live.values]
    constructor
    · rintro (same | ⟨⟨own, member⟩, -⟩)
      · cases same
        exact ⟨rfl, .inl rfl⟩
      · exact ⟨own, .inr member⟩
    · rintro ⟨rfl, rfl | member⟩
      · exact .inl rfl
      · refine .inr ⟨⟨rfl, member⟩, ?_⟩
        intro same
        exact unready value ((live.values key value).mpr ⟨same, member⟩)
  case bodies =>
    intro other value member
    have known := live.bodies other value (frames ▸ List.mem_cons_of_mem _ member)
    exact ⟨known.1, List.mem_cons_of_mem _ known.2⟩
  case live =>
    intro value member
    exact live.live value (frames ▸ List.mem_cons_of_mem _ member)
  case numbers =>
    intro value member
    cases List.mem_cons.mp member with
    | inl same =>
        cases same
        exact Nat.lt_succ_self _
    | inr earlier => exact Nat.lt_succ_of_lt (live.numbers value earlier)
  case distinct =>
    refine List.nodup_cons.mpr ⟨fun member => ?_, live.distinct⟩
    exact absurd (live.numbers _ member) (Nat.lt_irrefl _)
  case undropped =>
    rw [lost_initializing placeholder]
    exact live.undropped

/-- An initializer that unwinds leaves its key absent. -/
theorem Live.abandoned (live : Live state)
    (frames : state.frames = .initializer key :: below) : Live (state.abandoned key below) := by
  have placeholder := (live.top frames).1
  have unready : ∀ value, (key, Value.ready value) ∉ state.values := fun value member =>
    nomatch values_keyed member placeholder rfl
  constructor
  case room => exact Nat.le_trans Ordered.length_erase_le live.room
  case running =>
    intro other
    rw [State.abandoned, live.others frames, Ordered.mem_erase]
  case once =>
    have once := live.once
    rw [frames, Locals.initializing, List.nodup_cons] at once
    exact once.2
  case values =>
    intro other value
    rw [State.abandoned, Ordered.mem_erase, live.values]
    constructor
    · exact And.left
    · intro known
      refine ⟨known, ?_⟩
      rintro rfl
      exact unready value ((live.values _ value).mpr known)
  case bodies =>
    intro other value member
    exact live.bodies other value (frames ▸ List.mem_cons_of_mem _ member)
  case live =>
    intro value member
    exact live.live value (frames ▸ List.mem_cons_of_mem _ member)
  case numbers => exact live.numbers
  case distinct => exact live.distinct
  case undropped =>
    rw [State.abandoned, lost_initializing placeholder]
    exact live.undropped

/-- A callback that ends leaves the map as it is, for its value is still in it. -/
theorem Live.ended {value : Made K} (live : Live state)
    (frames : state.frames = .body key value :: below) (answer : Option Answer) :
    { state with frames := below, answer }.release value =
        { state with frames := below, answer } ∧
      Live { state with frames := below, answer } := by
  have known := live.bodies key value (frames ▸ List.mem_cons_self)
  have member := (live.values key value).mpr known
  refine ⟨if_pos (.inl ⟨_, member, rfl⟩), ?_⟩
  have same : Locals.initializing state.frames = Locals.initializing below := by
    rw [frames]
    rfl
  constructor
  case room => exact live.room
  case running => exact same ▸ live.running
  case once => exact same ▸ live.once
  case values => exact live.values
  case bodies =>
    intro other value' inside
    exact live.bodies other value' (frames ▸ List.mem_cons_of_mem _ inside)
  case live =>
    intro value' inside
    exact live.live value' (frames ▸ List.mem_cons_of_mem _ inside)
  case numbers => exact live.numbers
  case distinct => exact live.distinct
  case undropped => exact live.undropped

/-- Nothing that a live task is depends on what it was told, or on its phase. -/
theorem Live.frame {closing : Bool} {phase : Phase K} {answer : Option Answer}
    (live : Live state) : Live { state with closing, phase, answer } :=
  ⟨live.room, live.running, live.once, live.values, live.bodies, live.live, live.numbers,
    live.distinct, live.undropped⟩

end Live

end VThread.Locals

import VThread.Locals.Invariant

/-!
# Teardown of task-local values

A closing task makes no placeholder, so once its fiber is gone the map has only values; the teardown
takes them out before it drops the first of them, and no destructor can put one back.
-/

namespace VThread.Locals

open VThread.Lib

variable {K : Type} [LinearOrder K] {state state' : State K}

theorem inv_of_live {suspended : Bool} (phase : state.phase = .live suspended)
    (live : Live state) : Inv state := by
  rw [Inv, phase]
  exact live

theorem inv_of_torn {rest : List (Value K)} (phase : state.phase = .clearing rest)
    (torn : Torn state rest) : Inv state := by
  rw [Inv, phase]
  exact torn

theorem Inv.live {suspended : Bool} (inv : Inv state) (phase : state.phase = .live suspended) :
    Live state := by
  rw [Inv, phase] at inv
  exact inv

theorem Inv.torn {rest : List (Value K)} (inv : Inv state)
    (phase : state.phase = .clearing rest) : Torn state rest := by
  rw [Inv, phase] at inv
  exact inv

theorem Inv.cleared (inv : Inv state) (phase : state.phase = .cleared) :
    Torn state [] ∧ state.frames = [] := by
  rw [Inv, phase] at inv
  exact inv

/-- A task begins with an empty map, and none of its code runs. -/
theorem live_begin (empty : state.values.items = []) (idle : state.frames = [])
    (unmade : state.made = []) (undropped : state.dropped = []) : Live state := by
  have absent : ∀ entry, entry ∉ state.values := by
    intro entry member
    rw [← Ordered.mem_items, empty] at member
    exact absurd member List.not_mem_nil
  constructor
  case room =>
    rw [empty]
    exact Nat.zero_le _
  case running =>
    intro key
    rw [idle]
    exact iff_of_false (absent _) List.not_mem_nil
  case once =>
    rw [idle]
    exact List.nodup_nil
  case values =>
    intro key value
    rw [unmade]
    exact iff_of_false (absent _) fun known => absurd known.2 List.not_mem_nil
  case bodies =>
    intro key value member
    exact absurd (idle ▸ member) List.not_mem_nil
  case live =>
    intro value member
    exact absurd (idle ▸ member) List.not_mem_nil
  case numbers =>
    intro value member
    exact absurd (unmade ▸ member) List.not_mem_nil
  case distinct =>
    rw [unmade]
    exact List.nodup_nil
  case undropped => exact undropped

theorem inv_fresh (capacity : Nat) : Inv (.fresh capacity : State K) :=
  inv_of_live rfl (live_begin rfl rfl rfl rfl)

/-! ## Taking the values -/

/-- Values of different keys are different. -/
theorem kept_nodup {items : List (K × Value K)}
    (sorted : items.Pairwise fun left right => left.1 < right.1)
    (own : ∀ key value, (key, Value.ready value) ∈ items → value.key = key) :
    (kept (items.map Prod.snd)).Nodup := by
  induction items with
  | nil => exact List.nodup_nil
  | cons entry items ih =>
      obtain ⟨key, value⟩ := entry
      obtain ⟨least, sorted⟩ := List.pairwise_cons.mp sorted
      have rest := ih sorted fun other value member =>
        own other value (List.mem_cons_of_mem _ member)
      cases value with
      | initializing => exact rest
      | ready value =>
          refine List.nodup_cons.mpr ⟨fun again => ?_, rest⟩
          obtain ⟨⟨other, _⟩, member, rfl⟩ := List.mem_map.mp (mem_kept.mp again)
          have mine := own key value List.mem_cons_self
          have yours := own other value (List.mem_cons_of_mem _ member)
          exact absurd (least _ member) (mine.symm.trans yours ▸ lt_irrefl _)

/-- What `clear` takes is what was made. -/
theorem Live.kept (live : Live state) :
    (kept (state.values.items.map Prod.snd)).Perm state.made := by
  refine (List.perm_ext_iff_of_nodup ?_ live.distinct).mpr fun value => ?_
  · exact kept_nodup state.values.sorted fun key value member =>
      ((live.values key value).mp member).1
  · rw [mem_kept, List.mem_map]
    constructor
    · rintro ⟨⟨key, _⟩, member, rfl⟩
      exact ((live.values key value).mp member).2
    · intro made
      exact ⟨(value.key, .ready value), (live.values _ _).mpr ⟨rfl, made⟩, rfl⟩

theorem Live.clear (live : Live state) (closing : state.closing = true)
    (idle : state.frames = []) :
    Torn state.clear (state.values.items.map Prod.snd) where
  closing := closing
  empty := rfl
  destructors frame member := absurd (idle ▸ member) List.not_mem_nil
  accounted := by
    have undropped : state.clear.dropped = [] := live.undropped
    rw [undropped]
    exact live.kept
  distinct := live.distinct

theorem Live.completed (live : Live state) (idle : state.frames = []) :
    Inv state.completed := by
  rw [State.completed]
  by_cases empty : state.values.items = []
  · rw [if_pos empty]
    refine ⟨?_, idle⟩
    have unmade := live.kept
    rw [empty] at unmade
    constructor
    case closing => rfl
    case empty => exact empty
    case destructors =>
      intro frame member
      exact absurd (idle ▸ member) List.not_mem_nil
    case accounted =>
      have undropped : state.dropped = [] := live.undropped
      simpa [State.close, undropped, Locals.kept] using unmade
    case distinct => exact live.distinct
  · rw [if_neg empty]
    have closed : Live state.close := live.frame
    exact inv_of_torn rfl (closed.clear rfl idle)

/-- A cleanup of a task that is cleared finds nothing. -/
theorem Torn.clear (torn : Torn state []) :
    Torn state.clear (state.values.items.map Prod.snd) where
  closing := torn.closing
  empty := rfl
  destructors := torn.destructors
  accounted := by
    rw [torn.empty]
    exact torn.accounted
  distinct := torn.distinct

/-! ## Dropping the values -/

/-- No value is dropped twice. -/
theorem Torn.nodup {rest : List (Value K)} (torn : Torn state rest) : state.dropped.Nodup :=
  (List.nodup_append.mp (torn.accounted.nodup_iff.mpr torn.distinct)).1

/-- A value is in the list once, and nothing else holds it. -/
theorem Torn.dropNext {value : Value K} {rest : List (Value K)} (torn : Torn state (value :: rest))
    (idle : state.frames = []) : Torn (state.dropNext rest value) rest := by
  cases value with
  | initializing =>
      exact ⟨torn.closing, torn.empty, torn.destructors, torn.accounted, torn.distinct⟩
  | ready value =>
      have nodup := (torn.accounted.nodup_iff.mpr torn.distinct)
      have last : ¬ State.Holds { state with phase := .clearing rest } value := by
        rintro (⟨entry, member, -⟩ | ⟨frame, member, -⟩ | ⟨_, ⟨⟩, member⟩)
        · rw [torn.empty] at member
          exact absurd member List.not_mem_nil
        · rw [idle] at member
          exact absurd member List.not_mem_nil
        · have once := (List.nodup_append.mp nodup).2.1
          rw [kept, List.nodup_cons] at once
          exact once.1 (mem_kept.mpr member)
      rw [State.dropNext, State.release, if_neg last]
      constructor
      case closing => exact torn.closing
      case empty => exact torn.empty
      case destructors =>
        intro frame member
        rw [idle] at member
        exact ⟨value, List.mem_singleton.mp member⟩
      case accounted =>
        refine List.Perm.trans ?_ torn.accounted
        rw [kept]
        exact List.perm_middle.symm
      case distinct => exact torn.distinct

/-- A destructor that ends, in either way, leaves the rest as it is. -/
theorem Torn.ended {rest : List (Value K)} {frame : Frame K} {below : List (Frame K)}
    (torn : Torn state rest) (frames : state.frames = frame :: below) :
    Torn { state with frames := below } rest :=
  ⟨torn.closing, torn.empty,
    fun other member => torn.destructors other (frames ▸ List.mem_cons_of_mem _ member),
    torn.accounted, torn.distinct⟩

/-! ## Steps -/

/-- Why a call of `with` is rejected. -/
inductive Rejected (state : State K) (key : K) : Answer → Prop where
  | stopped : state.closing = true → Rejected state key .runtimeStopped
  | recursive : state.closing = false → (key, Value.initializing) ∈ state.values →
      Rejected state key .recursiveTaskLocal
  | full : state.closing = false → state.values.find? key = none →
      state.capacity ≤ state.values.items.length →
      Rejected state key (.capacity state.capacity)

/-- What the steps of a task do. -/
inductive Moved (state : State K) : Choice K → State K → Prop where
  | rejected {key : K} {answer : Answer} : state.runs → Rejected state key answer →
      Moved state (.call key) { state with answer := some answer }
  | afresh {key : K} : state.phase = .live false → state.closing = false →
      state.values.find? key = none → state.values.items.length < state.capacity →
      Moved state (.call key) { state with
        values := state.values.insert (key, .initializing)
        frames := .initializer key :: state.frames }
  | enters {key : K} {value : Made K} : state.phase = .live false → state.closing = false →
      (key, Value.ready value) ∈ state.values →
      Moved state (.call key) { state with frames := .body key value :: state.frames }
  | initialized {key : K} {below : List (Frame K)} : state.phase = .live false →
      state.frames = .initializer key :: below →
      Moved state .finish { state with
        values := state.values.insert (key, .ready ⟨key, state.made.length⟩)
        frames := .body key ⟨key, state.made.length⟩ :: below
        made := ⟨key, state.made.length⟩ :: state.made
        dropped := State.lost (state.values.find? key) ++ state.dropped }
  | abandoned {key : K} {below : List (Frame K)} : state.phase = .live false →
      state.frames = .initializer key :: below →
      Moved state .unwind (state.abandoned key below)
  | returned {key : K} {value : Made K} {below : List (Frame K)} :
      state.phase = .live false → state.frames = .body key value :: below →
      Moved state .finish { state with frames := below, answer := some .ok }
  | unwound {key : K} {value : Made K} {below : List (Frame K)} :
      state.phase = .live false → state.frames = .body key value :: below →
      Moved state .unwind { state with frames := below, answer := some .unwound }
  | destructed {choice : Choice K} {value : Made K} {rest : List (Value K)}
      {below : List (Frame K)} : choice = .finish ∨ choice = .unwind →
      state.phase = .clearing rest → state.frames = .destructor value :: below →
      Moved state choice { state with frames := below }
  | stopped : state.runs → state.closing = true →
      Moved state .suspend { state with answer := some state.refusal }
  | suspended : state.phase = .live false → Moved state .suspend { state with phase := .live true }
  | resumed : state.phase = .live true → Moved state .resume { state with phase := .live false }
  | forced : state.phase = .live true →
      Moved state .force { state.close with phase := .live false }
  | completed : state.phase = .live false → state.frames = [] →
      Moved state .complete state.completed
  | reclaimed : state.phase = .live false → state.frames = [] → state.closing = true →
      Moved state .reclaimed state.clear
  | again : state.phase = .cleared → Moved state .reclaimed state.clear
  | dropped {value : Value K} {rest : List (Value K)} : state.phase = .clearing (value :: rest) →
      state.frames = [] → Moved state .drop (state.dropNext rest value)
  | cleared : state.phase = .clearing [] → state.frames = [] →
      Moved state .drop { state with phase := .cleared }
  | recycled : state.phase = .cleared → Moved state .recycle state.recycle
  | reused {capacity : Nat} : state.phase = .recycled →
      Moved state (.reuse capacity) (state.reuse capacity)

theorem runs_cases (runs : state.runs) :
    state.phase = .live false ∨ ∃ rest, state.phase = .clearing rest ∧ state.frames ≠ [] := by
  rw [State.runs] at runs
  cases phase : state.phase with
  | live =>
      rw [phase] at runs
      exact .inl (congrArg Phase.live (Bool.not_eq_true' _ ▸ runs))
  | clearing rest =>
      rw [phase] at runs
      refine .inr ⟨rest, rfl, fun idle => ?_⟩
      rw [idle] at runs
      cases runs
  | cleared | recycled | panicked =>
      rw [phase] at runs
      cases runs

theorem moved_call (inv : Inv state) (runs : state.runs) (key : K) :
    Moved state (.call key) (state.call key) := by
  have live : state.closing = false → state.phase = .live false := by
    intro closing
    rcases runs_cases runs with phase | ⟨rest, phase, -⟩
    · exact phase
    · exact absurd (closing.symm.trans (inv.torn phase).closing) nofun
  have result := called state key
  generalize state.call key = next at result ⊢
  cases result with
  | stopped closing => exact .rejected runs (.stopped closing)
  | recursive closing member => exact .rejected runs (.recursive closing member)
  | full closing absent full => exact .rejected runs (.full closing absent full)
  | afresh closing absent room => exact .afresh (live closing) closing absent room
  | enters closing member =>
      rw [((inv.live (live closing)).enter member).1]
      exact .enters (live closing) closing member

theorem moved_finish (inv : Inv state) (runs : state.runs)
    (taken : state.finish = some state') : Moved state .finish state' := by
  rw [State.finish] at taken
  rcases runs_cases runs with phase | ⟨rest, phase, -⟩
  · have live := inv.live phase
    split at taken
    · cases taken
    · rename_i key below frames
      cases taken
      rw [State.initialized, State.enter, if_pos rfl]
      exact .initialized phase frames
    · rename_i key value below frames
      cases taken
      rw [(live.ended frames _).1]
      exact .returned phase frames
    · rename_i value below frames
      exact absurd (frames ▸ List.mem_cons_self) (live.live value)
  · have torn := inv.torn phase
    split at taken
    · cases taken
    · rename_i key below frames
      obtain ⟨value, impossible⟩ := torn.destructors _ (frames ▸ List.mem_cons_self)
      cases impossible
    · rename_i key value below frames
      obtain ⟨value, impossible⟩ := torn.destructors _ (frames ▸ List.mem_cons_self)
      cases impossible
    · rename_i value below frames
      cases taken
      exact .destructed (.inl rfl) phase frames

theorem moved_unwind (inv : Inv state) (runs : state.runs)
    (taken : state.unwind = some state') : Moved state .unwind state' := by
  rw [State.unwind] at taken
  rcases runs_cases runs with phase | ⟨rest, phase, -⟩
  · have live := inv.live phase
    split at taken
    · cases taken
    · rename_i key below frames
      cases taken
      exact .abandoned phase frames
    · rename_i key value below frames
      cases taken
      rw [(live.ended frames _).1]
      exact .unwound phase frames
    · rename_i value below frames
      exact absurd (frames ▸ List.mem_cons_self) (live.live value)
  · have torn := inv.torn phase
    split at taken
    · cases taken
    · rename_i key below frames
      obtain ⟨value, impossible⟩ := torn.destructors _ (frames ▸ List.mem_cons_self)
      cases impossible
    · rename_i key value below frames
      obtain ⟨value, impossible⟩ := torn.destructors _ (frames ▸ List.mem_cons_self)
      cases impossible
    · rename_i value below frames
      cases taken
      exact .destructed (.inr rfl) phase frames

theorem moved_of_next {choice : Choice K} (inv : Inv state)
    (taken : state.next choice = some state') : Moved state choice state' := by
  cases choice with
  | call key =>
      obtain ⟨runs, taken⟩ := Option.ite_none_right_eq_some.mp taken
      exact Option.some.inj taken ▸ moved_call inv runs key
  | finish =>
      obtain ⟨runs, taken⟩ := Option.ite_none_right_eq_some.mp taken
      exact moved_finish inv runs taken
  | unwind =>
      obtain ⟨runs, taken⟩ := Option.ite_none_right_eq_some.mp taken
      exact moved_unwind inv runs taken
  | suspend =>
      obtain ⟨runs, taken⟩ := Option.ite_none_right_eq_some.mp taken
      by_cases closing : state.closing = true
      · have stays := Option.some.inj ((if_pos closing).symm.trans taken)
        exact stays ▸ .stopped runs closing
      · have moved := Option.some.inj ((if_neg closing).symm.trans taken)
        rcases runs_cases runs with phase | ⟨rest, phase, -⟩
        · exact moved ▸ .suspended phase
        · exact absurd (inv.torn phase).closing closing
  | resume =>
      obtain ⟨phase, taken⟩ := Option.ite_none_right_eq_some.mp taken
      exact Option.some.inj taken ▸ .resumed phase
  | force =>
      obtain ⟨phase, taken⟩ := Option.ite_none_right_eq_some.mp taken
      exact Option.some.inj taken ▸ .forced phase
  | complete =>
      obtain ⟨⟨phase, idle, -⟩, taken⟩ := Option.ite_none_right_eq_some.mp taken
      exact Option.some.inj taken ▸ .completed phase idle
  | reclaimed =>
      obtain ⟨gone, taken⟩ := Option.ite_none_right_eq_some.mp taken
      rcases gone with ⟨phase, idle, closing⟩ | phase
      · exact Option.some.inj taken ▸ .reclaimed phase idle closing
      · exact Option.some.inj taken ▸ .again phase
  | drop =>
      rw [State.next] at taken
      split at taken
      · rename_i phase idle
        exact Option.some.inj taken ▸ .cleared phase idle
      · rename_i value rest phase idle
        exact Option.some.inj taken ▸ .dropped phase idle
      · cases taken
  | recycle =>
      obtain ⟨phase, taken⟩ := Option.ite_none_right_eq_some.mp taken
      exact Option.some.inj taken ▸ .recycled phase
  | reuse =>
      obtain ⟨phase, taken⟩ := Option.ite_none_right_eq_some.mp taken
      exact Option.some.inj taken ▸ .reused phase

theorem dropNext_phase (rest : List (Value K)) (value : Value K) :
    (state.dropNext rest value).phase = .clearing rest := by
  cases value with
  | initializing => rfl
  | ready value =>
      rw [State.dropNext, State.release]
      split <;> rfl

theorem moved_inv {choice : Choice K} (inv : Inv state) (moved : Moved state choice state') :
    Inv state' := by
  cases moved with
  | rejected runs _ | stopped runs _ =>
      rcases runs_cases runs with phase | ⟨rest, phase, -⟩
      · exact inv_of_live phase (inv.live phase).frame
      · have torn := inv.torn phase
        exact inv_of_torn phase
          ⟨torn.closing, torn.empty, torn.destructors, torn.accounted, torn.distinct⟩
  | afresh phase _ absent room =>
      exact inv_of_live phase ((inv.live phase).afresh absent room)
  | enters phase _ member => exact inv_of_live phase ((inv.live phase).enter member).2
  | initialized phase frames =>
      have ready := (inv.live phase).initialized frames
      have member := (ready.values _ _).mpr ⟨rfl, List.mem_cons_self⟩
      exact inv_of_live phase (ready.enter member).2
  | abandoned phase frames => exact inv_of_live phase ((inv.live phase).abandoned frames)
  | returned phase frames => exact inv_of_live phase ((inv.live phase).ended frames _).2
  | unwound phase frames => exact inv_of_live phase ((inv.live phase).ended frames _).2
  | destructed _ phase frames => exact inv_of_torn phase ((inv.torn phase).ended frames)
  | suspended phase => exact inv_of_live rfl (inv.live phase).frame
  | resumed phase => exact inv_of_live rfl (inv.live phase).frame
  | forced phase => exact inv_of_live rfl (inv.live phase).frame
  | completed phase idle => exact (inv.live phase).completed idle
  | reclaimed phase idle closing =>
      exact inv_of_torn rfl ((inv.live phase).clear closing idle)
  | again phase => exact inv_of_torn rfl (inv.cleared phase).1.clear
  | dropped phase idle =>
      exact inv_of_torn (dropNext_phase _ _) ((inv.torn phase).dropNext idle)
  | cleared phase idle =>
      have torn := inv.torn phase
      exact ⟨⟨torn.closing, torn.empty, torn.destructors, torn.accounted, torn.distinct⟩, idle⟩
  | recycled phase =>
      obtain ⟨torn, idle⟩ := inv.cleared phase
      rw [State.recycle, if_pos torn.empty]
      exact ⟨torn.empty, idle, torn.nodup⟩
  | reused phase =>
      rw [Inv, phase] at inv
      rw [State.reuse, if_pos inv.1]
      exact inv_of_live rfl (live_begin inv.1 inv.2.1 rfl rfl)

end VThread.Locals

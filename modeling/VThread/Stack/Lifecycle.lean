import VThread.Stack.Lease

/-!
# The lifecycle of a fiber lease

A lease changes by a few moves only.  A move that ends a resume or a reclaim needs the holder of
the lease, so no reentrant call can make it, and a reclaimed lease has no move at all.
-/

namespace VThread.Stack

open VThread.Lib

variable {ι : Type}

namespace Lease

/-- The fiber of a lease stands as a phase between two calls requires. -/
def Fits (previous : Phase) (lease : Lease ι) : Prop :=
  previous = .ready ∧ lease.fiber = some ⟨false⟩ ∨
    previous = .complete ∧ lease.fiber = some ⟨true⟩

/-- What a lease holds in each phase. -/
structure Sound (lease : Lease ι) : Prop where
  once : lease.extracted + lease.dropped = if lease.phase = .reclaimed then 1 else 0
  idle : lease.phase = .ready ∨ lease.phase = .complete →
    lease.Fits lease.phase ∧ lease.holder = none
  absent : lease.phase = .running ∨ lease.phase = .reclaimed → lease.fiber = none
  present : lease.phase = .reclaiming → lease.fiber.isSome

theorem new_sound : (new : Lease ι).Sound where
  once := rfl
  idle _ := ⟨.inl ⟨rfl, rfl⟩, rfl⟩
  absent phase := by simp [new] at phase
  present phase := by simp [new] at phase

theorem live_iff {lease : Lease ι} : lease.live = true ↔ lease.phase ≠ .reclaimed := by
  simp [live]

/-! ## Calls -/

theorem beginResume_spec {activation : ι} {lease lease' : Lease ι} {fiber : Fiber}
    (began : lease.beginResume activation = .ok (some (lease', fiber))) :
    lease.phase = .ready ∧ lease.fiber = some fiber ∧
      lease' = { lease with
        phase := .running
        fiber := none
        mounts := lease.mounts + 1
        holder := some activation } := by
  unfold beginResume at began
  split at began
  · cases began
  · obtain ⟨_, ready, began⟩ := bind_eq_ok.mp began
    obtain ⟨held, taken, began⟩ := bind_eq_ok.mp began
    cases fiberEq : lease.fiber with
    | none => simp [fiberEq] at taken
    | some _ =>
        rw [fiberEq, expect_some] at taken
        cases taken
        cases began
        exact ⟨ensure_eq_ok.mp ready, rfl, rfl⟩

theorem takeStack_spec {lease lease' : Lease ι} (taken : lease.takeStack = .ok (some lease')) :
    lease.phase = .complete ∧
      lease' = { lease with
        phase := .reclaimed
        fiber := none
        cleanup := none
        extracted := lease.extracted + lease.fiber.toList.length } := by
  unfold takeStack at taken
  split at taken
  · cases taken
  · rename_i complete
    obtain ⟨_, _, taken⟩ := bind_eq_ok.mp taken
    cases taken
    exact ⟨not_not.mp complete, rfl⟩

theorem beginReclaim_spec {activation : ι} {lease lease' : Lease ι}
    (began : lease.beginReclaim activation = .ok (some lease')) :
    (lease.phase = .ready ∨ lease.phase = .complete) ∧
      lease' = { lease with phase := .reclaiming, holder := some activation } := by
  unfold beginReclaim at began
  split at began
  · cases began
  · obtain ⟨_, idle, began⟩ := bind_eq_ok.mp began
    cases began
    exact ⟨ensure_eq_ok.mp idle, rfl⟩

theorem cleanupContext_spec {mount : Nat} {lease lease' : Lease ι}
    (installed : lease.cleanupContext mount = .ok lease') :
    (lease.phase = .ready ∨ lease.phase = .complete) ∧
      lease' = { lease with cleanup := some mount } := by
  unfold cleanupContext at installed
  obtain ⟨_, idle, installed⟩ := bind_eq_ok.mp installed
  cases installed
  exact ⟨ensure_eq_ok.mp idle, rfl⟩

/-! ## Rejections -/

theorem beginResume_error (activation : ι) {lease : Lease ι} (sound : lease.Sound) :
    (∃ message, lease.beginResume activation = .error message) ↔
      lease.phase ≠ .ready ∧ lease.phase ≠ .reclaimed := by
  unfold beginResume
  by_cases reclaimed : lease.phase = .reclaimed
  · simp [reclaimed, pure, Except.pure]
  · by_cases ready : lease.phase = .ready
    · obtain ⟨⟨_, fiber⟩ | ⟨complete, _⟩, _⟩ := sound.idle (.inl ready)
      · simp [ready, fiber, ensure_of, pure, Except.pure]
      · simp [ready] at complete
    · simp [reclaimed, ready, ensure]

theorem beginReclaim_error (activation : ι) {lease : Lease ι} :
    (∃ message, lease.beginReclaim activation = .error message) ↔
      lease.phase = .running ∨ lease.phase = .reclaiming := by
  unfold beginReclaim
  cases lease.phase <;> simp [ensure, pure, Except.pure]

theorem cleanupContext_error (mount : Nat) {lease : Lease ι} :
    (∃ message, lease.cleanupContext mount = .error message) ↔
      lease.phase ≠ .ready ∧ lease.phase ≠ .complete := by
  unfold cleanupContext
  cases lease.phase <;> simp [ensure, pure, Except.pure]

/-! ## Moves -/

/-- One section of an activation moves a lease. -/
inductive Moves (activation : ι) : Lease ι → Lease ι → Prop where
  | resume {lease lease' : Lease ι} {fiber : Fiber} :
      lease.beginResume activation = .ok (some (lease', fiber)) → Moves activation lease lease'
  | unmount {lease : Lease ι} {fiber : Fiber} : lease.phase = .running →
      lease.holder = some activation → Moves activation lease (lease.endResume fiber)
  | take {lease lease' : Lease ι} : lease.takeStack = .ok (some lease') →
      Moves activation lease lease'
  | reclaim {lease lease' : Lease ι} : lease.beginReclaim activation = .ok (some lease') →
      Moves activation lease lease'
  | restore {lease : Lease ι} {previous : Phase} : lease.phase = .reclaiming →
      lease.holder = some activation → lease.Fits previous →
      Moves activation lease (lease.restore previous)
  | revoke {lease : Lease ι} : lease.phase = .reclaiming →
      lease.holder = some activation → Moves activation lease lease.revoke
  | install {lease lease' : Lease ι} {mount : Nat} :
      lease.cleanupContext mount = .ok lease' → Moves activation lease lease'

variable {activation : ι} {lease lease' : Lease ι}

/-- No move starts at a reclaimed lease. -/
theorem Moves.not_reclaimed (moved : lease.Moves activation lease') :
    lease.phase ≠ .reclaimed := by
  cases moved with
  | resume began => simp [(beginResume_spec began).1]
  | unmount running _ => simp [running]
  | take taken => simp [(takeStack_spec taken).1]
  | reclaim began => rcases (beginReclaim_spec began).1 with idle | idle <;> simp [idle]
  | restore reclaiming _ _ => simp [reclaiming]
  | revoke reclaiming _ => simp [reclaiming]
  | install installed => rcases (cleanupContext_spec installed).1 with idle | idle <;> simp [idle]

/-- A lease that executes or is being reclaimed is moved by its holder only. -/
theorem Moves.holder (moved : lease.Moves activation lease')
    (busy : lease.phase = .running ∨ lease.phase = .reclaiming) :
    lease.holder = some activation := by
  cases moved with
  | resume began => simp [(beginResume_spec began).1] at busy
  | unmount _ held => exact held
  | take taken => simp [(takeStack_spec taken).1] at busy
  | reclaim began => rcases (beginReclaim_spec began).1 with idle | idle <;> simp [idle] at busy
  | restore _ held _ => exact held
  | revoke _ held => exact held
  | install installed =>
      rcases (cleanupContext_spec installed).1 with idle | idle <;> simp [idle] at busy

theorem Moves.sound (sound : lease.Sound) (moved : lease.Moves activation lease') :
    lease'.Sound := by
  have once := sound.once
  cases moved with
  | resume began =>
      obtain ⟨ready, _, rfl⟩ := beginResume_spec began
      exact ⟨by simpa [ready] using once, by simp, by simp, by simp⟩
  | @unmount fiber running _ =>
      obtain ⟨isComplete⟩ := fiber
      cases isComplete <;>
        exact ⟨by simpa [endResume, running] using once, by simp [endResume, Fits],
          by simp [endResume], by simp [endResume]⟩
  | take taken =>
      obtain ⟨complete, rfl⟩ := takeStack_spec taken
      obtain ⟨⟨ready, _⟩ | ⟨_, fiber⟩, _⟩ := sound.idle (.inr complete)
      · simp [complete] at ready
      · exact ⟨by simp [complete] at once; simp [fiber, once], by simp, by simp, by simp⟩
  | reclaim began =>
      obtain ⟨idle, rfl⟩ := beginReclaim_spec began
      obtain ⟨fits, _⟩ := sound.idle idle
      refine ⟨?_, by simp, by simp, ?_⟩
      · rcases idle with idle | idle <;> simpa [idle] using once
      · rcases fits with ⟨_, fiber⟩ | ⟨_, fiber⟩ <;> simp [fiber]
  | restore reclaiming _ fits =>
      simp only [reclaiming, reduceCtorEq, if_false] at once
      rcases fits with ⟨rfl, fiber⟩ | ⟨rfl, fiber⟩ <;>
        exact ⟨by simp [Lease.restore, reclaiming]; omega,
          by simp [Lease.restore, reclaiming, Fits, fiber], by simp [Lease.restore, reclaiming],
          by simp [Lease.restore, reclaiming]⟩
  | revoke reclaiming _ =>
      obtain ⟨fiber, present⟩ := Option.isSome_iff_exists.mp (sound.present reclaiming)
      simp only [reclaiming, reduceCtorEq, if_false] at once
      exact ⟨by simp [Lease.revoke, present]; omega, by simp [Lease.revoke],
        by simp [Lease.revoke], by simp [Lease.revoke]⟩
  | install installed =>
      obtain ⟨idle, rfl⟩ := cleanupContext_spec installed
      exact ⟨once, sound.idle, sound.absent, sound.present⟩

/-- Only the holder of a busy lease moves it. -/
theorem Moves.not_other {other : ι} (busy : lease.phase = .running ∨ lease.phase = .reclaiming)
    (held : lease.holder = some other) (different : other ≠ activation) :
    ¬ lease.Moves activation lease' := by
  intro moved
  have := moved.holder busy
  rw [held, Option.some.injEq] at this
  exact different this

end Lease

/-! ## The heap -/

/-- A scope that is still open retains every lease that it issued and that is live. -/
structure Registry.Sound (heap : Heap ι) (registry : Registry ι) : Prop where
  issued : ∀ id ∈ registry.issued, id < heap.nextLease
  fibers : ∀ id ∈ registry.fibers, id ∈ registry.issued
  retained : registry.closed = false → ∀ id ∈ registry.issued, (heap.leases id).live = true →
    id ∈ registry.fibers

structure Heap.Sound (heap : Heap ι) : Prop where
  lease : ∀ id < heap.nextLease, (heap.leases id).Sound
  registry : ∀ scope < heap.nextScope, (heap.registries scope).Sound heap

/-- Only its own activation closes a scope, and a closed scope issues no lease. -/
structure Registry.Keeps (activation : ι) (registry registry' : Registry ι) : Prop where
  owner : registry'.owner = registry.owner
  closed : registry.closed = true → registry'.closed = true ∧
    registry'.issued = registry.issued ∧ registry'.ended = registry.ended
  others : registry.closed = false → registry.owner ≠ activation → registry'.closed = false

/-- What one section of an activation does to the heap. -/
structure Heap.Advances (activation : ι) (heap heap' : Heap ι) : Prop where
  nextLease : heap.nextLease ≤ heap'.nextLease
  nextScope : heap.nextScope ≤ heap'.nextScope
  lease : ∀ id < heap.nextLease, heap'.leases id = heap.leases id ∨
    (heap.leases id).Moves activation (heap'.leases id)
  registry : ∀ scope < heap.nextScope,
    (heap.registries scope).Keeps activation (heap'.registries scope)

theorem Registry.Keeps.refl (activation : ι) (registry : Registry ι) :
    registry.Keeps activation registry :=
  ⟨rfl, fun closed => ⟨closed, rfl, rfl⟩, fun opened _ => opened⟩

namespace Heap

variable {activation : ι} {heap heap' : Heap ι}

theorem Advances.refl (activation : ι) (heap : Heap ι) : heap.Advances activation heap :=
  ⟨Nat.le_refl _, Nat.le_refl _, fun _ _ => .inl rfl, fun _ _ => .refl _ _⟩

/-- A lease that is live after a section was live before it. -/
theorem Advances.live (advanced : heap.Advances activation heap') {id : Nat}
    (issued : id < heap.nextLease) (live : (heap'.leases id).live = true) :
    (heap.leases id).live = true := by
  rcases advanced.lease id issued with same | moved
  · rwa [same] at live
  · exact Lease.live_iff.mpr moved.not_reclaimed

/-- No other activation moves a busy lease. -/
theorem Advances.kept {other : ι} (advanced : heap.Advances activation heap') {id : Nat}
    (issued : id < heap.nextLease)
    (busy : (heap.leases id).phase = .running ∨ (heap.leases id).phase = .reclaiming)
    (held : (heap.leases id).holder = some other) (different : other ≠ activation) :
    heap'.leases id = heap.leases id :=
  (advanced.lease id issued).resolve_right (Lease.Moves.not_other busy held different)

/-! ### One lease moves -/

theorem setLease_advances {id : Nat} {lease : Lease ι}
    (moved : (heap.leases id).Moves activation lease) :
    heap.Advances activation (heap.setLease id lease) where
  nextLease := Nat.le_refl _
  nextScope := Nat.le_refl _
  lease other _ := by
    by_cases equal : other = id
    · subst equal
      exact .inr (by simpa [setLease] using moved)
    · exact .inl (by simp [setLease, equal])
  registry _ _ := .refl _ _

/-- A registry stays sound as long as no lease comes to life. -/
theorem registry_sound_of_live {registry : Registry ι} (sound : registry.Sound heap)
    (next : heap.nextLease ≤ heap'.nextLease)
    (live : ∀ id < heap.nextLease, (heap'.leases id).live = true →
      (heap.leases id).live = true) : registry.Sound heap' where
  issued id member := Nat.lt_of_lt_of_le (sound.issued id member) next
  fibers := sound.fibers
  retained opened id member alive :=
    sound.retained opened id member (live id (sound.issued id member) alive)

theorem setLease_sound {id : Nat} {lease : Lease ι} (sound : heap.Sound)
    (moved : (heap.leases id).Moves activation lease) (issued : id < heap.nextLease) :
    (heap.setLease id lease).Sound where
  lease other known := by
    by_cases equal : other = id
    · subst equal
      simpa [setLease] using moved.sound (sound.lease other issued)
    · simpa [setLease, equal] using sound.lease other known
  registry scope known :=
    registry_sound_of_live (sound.registry scope known) (Nat.le_refl _)
      fun _ known => (setLease_advances moved).live known

/-! ### One registry changes -/

theorem setRegistry_advances {scope : Nat} {registry : Registry ι}
    (kept : (heap.registries scope).Keeps activation registry) :
    heap.Advances activation (heap.setRegistry scope registry) where
  nextLease := Nat.le_refl _
  nextScope := Nat.le_refl _
  lease _ _ := .inl rfl
  registry other _ := by
    by_cases equal : other = scope
    · subst equal
      simpa [setRegistry] using kept
    · simpa [setRegistry, equal] using Registry.Keeps.refl activation (heap.registries other)

theorem setRegistry_sound {scope : Nat} {registry : Registry ι} (sound : heap.Sound)
    (changed : registry.Sound heap) : (heap.setRegistry scope registry).Sound where
  lease := sound.lease
  registry other known := by
    by_cases equal : other = scope
    · subst equal
      simpa [setRegistry] using (⟨changed.issued, changed.fibers, changed.retained⟩ :
        registry.Sound (heap.setRegistry other registry))
    · have before := sound.registry other known
      simpa [setRegistry, equal] using (⟨before.issued, before.fibers, before.retained⟩ :
        (heap.registries other).Sound (heap.setRegistry scope registry))

@[simp] theorem setRegistry_setRegistry (scope : Nat) (registry registry' : Registry ι) :
    (heap.setRegistry scope registry).setRegistry scope registry' =
      heap.setRegistry scope registry' := by
  simp [setRegistry]

/-- The registry after a scope is closed. -/
theorem close_registry {scope : Nat} (sound : (heap.registries scope).Sound heap) :
    ({ heap.registries scope with closed := true, fibers := [] } : Registry ι).Sound heap where
  issued := sound.issued
  fibers _ member := by cases member
  retained opened := by cases opened

theorem retainLive_registry {scope : Nat} (sound : (heap.registries scope).Sound heap) :
    ({ heap.registries scope with
      fibers := (heap.registries scope).fibers.filter fun id => (heap.leases id).live } :
        Registry ι).Sound heap where
  issued := sound.issued
  fibers id member := sound.fibers id (List.mem_filter.mp member).1
  retained opened id member live :=
    List.mem_filter.mpr ⟨sound.retained opened id member live, live⟩

/-! ### Leases and scopes are created -/

theorem issue_leases {scope id : Nat} (issued : id < heap.nextLease) :
    (heap.issue scope).leases id = heap.leases id :=
  Function.update_of_ne (Nat.ne_of_lt issued) _ _

theorem issue_registry {scope : Nat} (before : (heap.registries scope).Sound heap) :
    ((heap.issue scope).registries scope).Sound (heap.issue scope) := by
  have issued : ((heap.issue scope).registries scope).issued =
      (heap.registries scope).issued ++ [heap.nextLease] := by simp [issue]
  have fibers : ((heap.issue scope).registries scope).fibers =
      (heap.registries scope).fibers ++ [heap.nextLease] := by simp [issue]
  refine ⟨fun id member => ?_, fun id member => ?_, fun opened id member live => ?_⟩
  · rw [issued] at member
    rcases List.mem_append.mp member with member | member
    · exact Nat.lt_succ_of_lt (before.issued id member)
    · exact List.mem_singleton.mp member ▸ Nat.lt_succ_self _
  · rw [fibers] at member
    rw [issued]
    rcases List.mem_append.mp member with member | member
    · exact List.mem_append_left _ (before.fibers id member)
    · exact List.mem_append_right _ member
  · rw [issued] at member
    rw [fibers]
    rcases List.mem_append.mp member with member | member
    · rw [issue_leases (before.issued id member)] at live
      have opened : (heap.registries scope).closed = false := by simpa [issue] using opened
      exact List.mem_append_left _ (before.retained opened id member live)
    · exact List.mem_append_right _ member

theorem issue_sound {scope : Nat} (sound : heap.Sound) (known : scope < heap.nextScope) :
    (heap.issue scope).Sound where
  lease id issued := by
    by_cases fresh : id = heap.nextLease
    · subst fresh
      simpa [issue] using Lease.new_sound
    · have issued : id < heap.nextLease + 1 := issued
      rw [issue_leases (by omega)]
      exact sound.lease id (by omega)
  registry other otherKnown := by
    by_cases equal : other = scope
    · subst equal
      exact issue_registry (sound.registry other known)
    · have same : (heap.issue scope).registries other = heap.registries other :=
        Function.update_of_ne equal _ _
      rw [same]
      refine registry_sound_of_live (sound.registry other otherKnown) (Nat.le_succ _)
        fun id issued live => ?_
      rwa [issue_leases issued] at live

theorem retainLive_sound {scope : Nat} (sound : heap.Sound) (known : scope < heap.nextScope) :
    (heap.retainLive scope).Sound :=
  setRegistry_sound sound (retainLive_registry (sound.registry scope known))

theorem spawn_sound {scope : Nat} {fits : Bool} (sound : heap.Sound)
    (known : scope < heap.nextScope) : (heap.spawn scope fits).Sound := by
  unfold spawn
  dsimp only
  split
  · exact retainLive_sound sound known
  · exact issue_sound (retainLive_sound sound known) known

theorem retainLive_advances {scope : Nat} :
    heap.Advances activation (heap.retainLive scope) :=
  setRegistry_advances ⟨rfl, fun closed => ⟨closed, rfl, rfl⟩, fun opened _ => opened⟩

theorem spawn_advances {scope : Nat} {fits : Bool} :
    heap.Advances activation (heap.spawn scope fits) := by
  unfold spawn
  dsimp only
  split
  · exact retainLive_advances
  · rename_i admitted
    refine ⟨Nat.le_succ _, Nat.le_refl _, fun id issued => .inl ?_, fun other _ => ?_⟩
    · exact Function.update_of_ne (Nat.ne_of_lt issued) _ _
    · by_cases equal : other = scope
      · subst equal
        have opened : (heap.registries other).closed = false := by
          simpa [retainLive, setRegistry] using mt Or.inl admitted
        exact ⟨by simp [issue, retainLive, setRegistry], fun closed => by simp [opened] at closed,
          fun _ _ => by simpa [issue, retainLive, setRegistry] using opened⟩
      · simpa [issue, retainLive, setRegistry, equal] using
          Registry.Keeps.refl activation (heap.registries other)

theorem openScope_sound {capacity : Nat} (sound : heap.Sound) :
    (heap.openScope activation capacity).Sound where
  lease := sound.lease
  registry scope known := by
    by_cases fresh : scope = heap.nextScope
    · subst fresh
      simp only [openScope, Function.update_self]
      refine ⟨?_, ?_, ?_⟩ <;> simp
    · have before := sound.registry scope (by simp only [openScope] at known; omega)
      simp only [openScope, Function.update_of_ne fresh]
      exact ⟨before.issued, before.fibers, before.retained⟩

theorem openScope_advances {capacity : Nat} :
    heap.Advances activation (heap.openScope activation capacity) where
  nextLease := Nat.le_refl _
  nextScope := Nat.le_succ _
  lease _ _ := .inl rfl
  registry scope known := by
    simpa [openScope, Function.update_of_ne (Nat.ne_of_lt known)] using
      Registry.Keeps.refl activation (heap.registries scope)

end Heap

/-! ## Activations -/

/-- The panic of the body comes before one of the cleanup. -/
def Exit.Reports (exit : Exit) : Body → Prop
  | .panic payload => exit = .bodyPanic payload
  | .value => exit = .value ∨ ∃ payload, exit = .cleanupPanic payload

theorem Drain.exit_reports (drain : Drain) : drain.exit.Reports drain.body := by
  unfold Drain.exit
  cases drain.body with
  | panic => rfl
  | value =>
      cases drain.failure with
      | none => exact .inl rfl
      | some payload => exact .inr ⟨payload, rfl⟩

/-- A drain still has every live lease of its closed scope before it. -/
structure Drain.Sound (heap : Heap ι) (drain : Drain) : Prop where
  known : drain.scope < heap.nextScope
  closed : (heap.registries drain.scope).closed = true
  ended : (heap.registries drain.scope).ended = some drain.body
  pending : ∀ id ∈ drain.pending, id ∈ (heap.registries drain.scope).issued
  covers : ∀ id ∈ (heap.registries drain.scope).issued, (heap.leases id).live = true →
    id ∈ drain.pending

/-- A scope has been left. -/
structure Heap.Left (heap : Heap ι) (scope : Nat) (exit : Exit) : Prop where
  known : scope < heap.nextScope
  closed : (heap.registries scope).closed = true
  reclaimed : ∀ id ∈ (heap.registries scope).issued, (heap.leases id).live = false
  reports : ∃ body, (heap.registries scope).ended = some body ∧ exit.Reports body

def Caller.Sound (heap : Heap ι) : Caller → Prop
  | .user => True
  | .drain current => current.Sound heap

/-- An activation holds a lease in a busy phase. -/
structure Heap.Holds (heap : Heap ι) (activation : ι) (id : Nat) (phase : Phase) : Prop where
  issued : id < heap.nextLease
  held : (heap.leases id).holder = some activation
  phase : (heap.leases id).phase = phase

/-- What an activation relies on at its place. -/
def Pc.Sound (activation : ι) (heap : Heap ι) : Pc → Prop
  | .idle => True
  | .resuming id _ => heap.Holds activation id .running
  | .taking => True
  | .mounting id previous caller => heap.Holds activation id .reclaiming ∧
      (heap.leases id).Fits previous ∧ caller.Sound heap
  | .disposing _ _ caller => caller.Sound heap
  | .replacing => True
  | .body scope => scope < heap.nextScope ∧ (heap.registries scope).owner = activation ∧
      (heap.registries scope).closed = false
  | .draining drain => drain.Sound heap
  | .left scope exit => heap.Left scope exit

section

variable {activation : ι} {heap heap' : Heap ι}

/-! ### What the sections of others keep -/

theorem Drain.Sound.advance {drain : Drain} (valid : drain.Sound heap) (sound : heap.Sound)
    (advanced : heap.Advances activation heap') : drain.Sound heap' := by
  obtain ⟨closed, issued, ended⟩ := (advanced.registry _ valid.known).closed valid.closed
  refine ⟨Nat.lt_of_lt_of_le valid.known advanced.nextScope, closed, ended ▸ valid.ended,
    fun id member => issued ▸ valid.pending id member, fun id member live => ?_⟩
  rw [issued] at member
  have known := (sound.registry _ valid.known).issued id member
  exact valid.covers id member (advanced.live known live)

theorem Caller.Sound.advance {caller : Caller} (valid : caller.Sound heap) (sound : heap.Sound)
    (advanced : heap.Advances activation heap') : caller.Sound heap' := by
  cases caller with
  | user => trivial
  | drain => exact Drain.Sound.advance valid sound advanced

theorem Heap.Left.advance {scope : Nat} {exit : Exit} (left : heap.Left scope exit)
    (sound : heap.Sound) (advanced : heap.Advances activation heap') :
    heap'.Left scope exit := by
  obtain ⟨closed, issued, ended⟩ := (advanced.registry _ left.known).closed left.closed
  refine ⟨Nat.lt_of_lt_of_le left.known advanced.nextScope, closed, fun id member => ?_,
    ended ▸ left.reports⟩
  rw [issued] at member
  have known := (sound.registry _ left.known).issued id member
  have reclaimed := left.reclaimed id member
  cases live : (heap'.leases id).live with
  | false => rfl
  | true => rw [advanced.live known live] at reclaimed; cases reclaimed

theorem Heap.Holds.advance {other : ι} {id : Nat} {phase : Phase}
    (holds : heap.Holds other id phase) (busy : phase = .running ∨ phase = .reclaiming)
    (different : other ≠ activation) (advanced : heap.Advances activation heap') :
    heap'.Holds other id phase ∧ heap'.leases id = heap.leases id := by
  obtain ⟨issued, held, rfl⟩ := holds
  have same := advanced.kept issued busy held different
  exact ⟨⟨Nat.lt_of_lt_of_le issued advanced.nextLease, by rw [same, held], by rw [same]⟩, same⟩

theorem Pc.Sound.advance {other : ι} {pc : Pc} (valid : pc.Sound other heap)
    (sound : heap.Sound) (different : other ≠ activation)
    (advanced : heap.Advances activation heap') : pc.Sound other heap' := by
  cases pc with
  | idle => trivial
  | resuming => exact (Heap.Holds.advance valid (.inl rfl) different advanced).1
  | taking => trivial
  | mounting =>
      obtain ⟨holds, fits, called⟩ := valid
      obtain ⟨held, same⟩ := holds.advance (.inr rfl) different advanced
      exact ⟨held, by rwa [same], called.advance sound advanced⟩
  | disposing => exact Caller.Sound.advance valid sound advanced
  | replacing => trivial
  | body scope =>
      obtain ⟨known, owner, opened⟩ := valid
      have kept := advanced.registry scope known
      exact ⟨Nat.lt_of_lt_of_le known advanced.nextScope, kept.owner.trans owner,
        kept.others opened (owner ▸ different)⟩
  | draining drain => exact Drain.Sound.advance valid sound advanced
  | left => exact Heap.Left.advance valid sound advanced

/-! ### What a section establishes -/

/-- The heap and the place after a section. -/
structure Yields (activation : ι) (heap : Heap ι) (result : Heap ι × Pc) : Prop where
  sound : result.1.Sound
  advances : heap.Advances activation result.1
  place : result.2.Sound activation result.1

theorem Yields.stay {pc : Pc} (sound : heap.Sound) (place : pc.Sound activation heap) :
    Yields activation heap (heap, pc) :=
  ⟨sound, .refl _ _, place⟩

/-- A lease is moved to a place that needs nothing. -/
theorem Yields.move {id : Nat} {lease : Lease ι} {pc : Pc} (sound : heap.Sound)
    (issued : id < heap.nextLease) (moved : (heap.leases id).Moves activation lease)
    (place : pc.Sound activation (heap.setLease id lease)) :
    Yields activation heap (heap.setLease id lease, pc) :=
  ⟨Heap.setLease_sound sound moved issued, Heap.setLease_advances moved, place⟩

theorem setLease_holds {id : Nat} {lease : Lease ι} {phase : Phase} (issued : id < heap.nextLease)
    (held : lease.holder = some activation) (inPhase : lease.phase = phase) :
    (heap.setLease id lease).Holds activation id phase :=
  ⟨issued, by simpa [Heap.setLease] using held, by simpa [Heap.setLease] using inPhase⟩

/-- A reclaim begins. -/
theorem Yields.mount {id : Nat} {lease : Lease ι} {caller : Caller} (sound : heap.Sound)
    (issued : id < heap.nextLease) (called : caller.Sound heap)
    (began : (heap.leases id).beginReclaim activation = .ok (some lease)) :
    Yields activation heap
      (heap.setLease id lease, .mounting id (heap.leases id).phase caller) := by
  have moved : (heap.leases id).Moves activation lease := .reclaim began
  obtain ⟨idle, rfl⟩ := Lease.beginReclaim_spec began
  refine .move sound issued moved ⟨setLease_holds issued rfl rfl, ?_, ?_⟩
  · simpa [Heap.setLease, Lease.Fits] using ((sound.lease id issued).idle idle).1
  · exact called.advance sound (Heap.setLease_advances moved)

theorem note_sound {drain : Drain} (valid : drain.Sound heap) (failure : Option Nat) :
    (drain.note failure).Sound heap := by
  unfold Drain.note
  cases failure with
  | none => exact valid
  | some =>
      dsimp only
      split
      · exact valid
      · exact ⟨valid.known, valid.closed, valid.ended, valid.pending, valid.covers⟩

theorem resume_sound {caller : Caller} (valid : caller.Sound heap) (failure : Option Nat) :
    (caller.resume failure).Sound activation heap := by
  cases caller with
  | user => trivial
  | drain => exact note_sound valid failure

/-- A drain begins with every lease of the scope that is live. -/
theorem beginDrain_spec {scope : Nat} {failure : Option Nat} {last : Bool} {body : Body}
    (sound : heap.Sound) (known : scope < heap.nextScope)
    (ended : (heap.registries scope).ended = some body)
    (covers : ∀ id ∈ (heap.registries scope).issued, (heap.leases id).live = true →
      id ∈ (heap.registries scope).fibers) :
    (beginDrain heap scope failure last body).1.Sound ∧
      (beginDrain heap scope failure last body).2.Sound activation
        (beginDrain heap scope failure last body).1 := by
  have before := sound.registry scope known
  refine ⟨Heap.setRegistry_sound sound (Heap.close_registry before), known, ?_, ?_, ?_, ?_⟩
  · simp [beginDrain, Heap.close, Heap.setRegistry]
  · simpa [beginDrain, Heap.close, Heap.setRegistry] using ended
  · simpa [beginDrain, Heap.close, Heap.setRegistry] using before.fibers
  · simpa [beginDrain, Heap.close, Heap.setRegistry] using covers

theorem drainStep_spec {drain : Drain} (sound : heap.Sound) (valid : drain.Sound heap) :
    Yields activation heap (drainStep activation heap drain) := by
  have issued (id : Nat) (member : id ∈ drain.pending) : id < heap.nextLease :=
    (sound.registry _ valid.known).issued id (valid.pending id member)
  obtain ⟨scope, pending, attempts, failure, last, body⟩ := drain
  cases pending with
  | nil =>
      have reclaimed (id : Nat) (member : id ∈ (heap.registries scope).issued) :
          (heap.leases id).live = false := by
        cases live : (heap.leases id).live with
        | false => rfl
        | true => cases valid.covers id member live
      cases last with
      | true =>
          exact .stay sound ⟨valid.known, valid.closed, reclaimed, body, valid.ended,
            Drain.exit_reports _⟩
      | false =>
          obtain ⟨sound', place⟩ := @beginDrain_spec ι activation heap scope failure true body
            sound valid.known valid.ended fun id member live => by
              simp [reclaimed id member] at live
          exact ⟨sound', Heap.setRegistry_advances ⟨rfl, fun _ => ⟨rfl, rfl, rfl⟩,
            fun opened => by simp [valid.closed] at opened⟩, place⟩
  | cons id rest =>
      have known := issued id List.mem_cons_self
      simp only [drainStep]
      split
      · rename_i reclaimed
        refine .stay sound ⟨valid.known, valid.closed, valid.ended,
          fun other member => valid.pending other (List.mem_cons_of_mem _ member),
          fun other member live => ?_⟩
        rcases List.mem_cons.mp (valid.covers other member live) with rfl | member
        · simp [reclaimed] at live
        · exact member
      · cases attempts with
        | zero =>
            refine ⟨⟨sound.lease, fun other known => ?_⟩, ⟨Nat.le_refl _, Nat.le_refl _,
              fun _ _ => .inl rfl, fun _ _ => .refl _ _⟩, ?_⟩
            · have before := sound.registry other known
              exact ⟨before.issued, before.fibers, before.retained⟩
            · exact ⟨valid.known, valid.closed, valid.ended, valid.pending, valid.covers⟩
        | succ attempts =>
            have next : (⟨scope, id :: rest, attempts, failure, last, body⟩ : Drain).Sound heap :=
              ⟨valid.known, valid.closed, valid.ended, valid.pending, valid.covers⟩
            dsimp only
            split
            · exact .stay sound (note_sound next _)
            · exact .stay sound next
            · rename_i began
              exact .mount sound known next began

theorem callStep_spec {choice : Choice} {result : Heap ι × Pc} (sound : heap.Sound)
    (taken : callStep activation heap choice = some result) : Yields activation heap result := by
  have idle : Yields activation heap (heap, .idle) := .stay sound trivial
  cases choice with
  | resume id =>
      simp only [callStep] at taken
      split at taken
      · rename_i issued
        split at taken
        · rename_i began
          cases taken
          obtain ⟨_, _, rfl⟩ := Lease.beginResume_spec began
          exact .move sound issued (.resume began) (setLease_holds issued rfl rfl)
        · cases taken
          exact idle
      · cases taken
  | takeStack id =>
      simp only [callStep] at taken
      split at taken
      · rename_i issued
        split at taken
        · rename_i extracted
          cases taken
          exact .move sound issued (.take extracted) trivial
        · cases taken
          exact idle
      · cases taken
  | reclaim id =>
      simp only [callStep] at taken
      split at taken
      · rename_i issued
        split at taken
        · rename_i began
          cases taken
          exact .mount sound issued trivial began
        · cases taken
          exact idle
      · cases taken
  | cleanupContext =>
      simp only [callStep] at taken
      split at taken
      · rename_i issued
        split at taken
        · rename_i installed
          cases taken
          exact .move sound issued (.install installed) trivial
        · cases taken
          exact idle
      · cases taken
  | fiberScope =>
      cases taken
      refine ⟨Heap.openScope_sound sound, Heap.openScope_advances, Nat.lt_succ_self _, ?_, ?_⟩ <;>
        simp [Heap.openScope]
  | spawn =>
      simp only [callStep] at taken
      split at taken
      · rename_i known
        cases taken
        exact ⟨Heap.spawn_sound sound known, Heap.spawn_advances, trivial⟩
      · cases taken
  | unmount | back | panics | go => cases taken

/-- The body of a scope ends, and the first drain begins. -/
theorem finish_spec {scope : Nat} {body : Body} (sound : heap.Sound)
    (running : (Pc.body scope).Sound activation heap) :
    Yields activation heap (beginDrain (heap.finish scope body) scope none false body) := by
  obtain ⟨known, owner, opened⟩ := running
  have before := sound.registry scope known
  have finished : (heap.finish scope body).Sound :=
    Heap.setRegistry_sound sound ⟨before.issued, before.fibers, before.retained⟩
  obtain ⟨sound', place⟩ := @beginDrain_spec ι activation (heap.finish scope body) scope none
    false body finished known (by simp [Heap.finish, Heap.setRegistry]) (by
      simpa [Heap.finish, Heap.setRegistry] using before.retained opened)
  refine ⟨sound', ?_, place⟩
  simp only [beginDrain, Heap.close, Heap.finish, Heap.setRegistry_setRegistry]
  exact Heap.setRegistry_advances ⟨by simp [Heap.setRegistry],
    fun closed => by simp [opened] at closed, fun _ other => absurd owner other⟩

theorem step_spec {choice : Choice} {pc : Pc} {result : Heap ι × Pc} (sound : heap.Sound)
    (place : pc.Sound activation heap) (taken : step activation choice heap pc = some result) :
    Yields activation heap result := by
  unfold step at taken
  split at taken
  · cases taken
  · split at taken
    · exact callStep_spec sound taken
    · obtain ⟨issued, held, running⟩ := place
      cases taken
      exact .move sound issued (.unmount running held) trivial
    · cases taken
      exact .stay sound trivial
    · cases taken
      exact .stay sound trivial
    · cases taken
      exact .stay sound trivial
    · cases taken
      exact .stay sound trivial
    · obtain ⟨⟨issued, held, reclaiming⟩, _, called⟩ := place
      cases taken
      have moved := Lease.Moves.revoke reclaiming held
      exact .move sound issued moved (called.advance sound (Heap.setLease_advances moved))
    · obtain ⟨⟨issued, held, reclaiming⟩, fits, called⟩ := place
      split at taken
      · cases taken
        have moved := Lease.Moves.restore reclaiming held fits
        exact .move sound issued moved
          (resume_sound (called.advance sound (Heap.setLease_advances moved)) _)
      · cases taken
    · cases taken
      exact .stay sound (resume_sound place _)
    · cases taken
      exact .stay sound place
    · cases taken
      exact .stay sound place
    · cases taken
      exact finish_spec sound place
    · cases taken
      exact finish_spec sound place
    · cases taken
      exact drainStep_spec sound place
    · cases taken

theorem resume_not_mounting {caller caller' : Caller} {failure : Option Nat} {id : Nat}
    {previous : Phase} : caller.resume failure ≠ .mounting id previous caller' := by
  cases caller <;> simp [Caller.resume]

/-- A cleanup mount begins with a reclaim of its lease. -/
theorem drainStep_mounting {activation : ι} {heap heap' : Heap ι} {drain : Drain} {id : Nat}
    {previous : Phase} {caller : Caller}
    (taken : drainStep activation heap drain = (heap', .mounting id previous caller)) :
    ∃ lease, (heap.leases id).beginReclaim activation = .ok (some lease) ∧
      heap' = heap.setLease id lease ∧ previous = (heap.leases id).phase ∧
        id ∈ drain.pending := by
  unfold drainStep at taken
  split at taken
  · split at taken
    · cases taken
    · simp [beginDrain] at taken
  · rename_i pending
    split at taken
    · cases taken
    · split at taken
      · cases taken
      · split at taken
        · cases taken
        · cases taken
        · rename_i began
          cases taken
          exact ⟨_, began, rfl, rfl, by simp [pending]⟩

theorem step_mounting {activation : ι} {choice : Choice} {heap heap' : Heap ι} {pc : Pc}
    {id : Nat} {previous : Phase} {caller : Caller} (sound : heap.Sound)
    (place : pc.Sound activation heap)
    (taken : step activation choice heap pc = some (heap', .mounting id previous caller)) :
    ∃ lease, (heap.leases id).beginReclaim activation = .ok (some lease) ∧
      heap' = heap.setLease id lease ∧ previous = (heap.leases id).phase ∧
        id < heap.nextLease := by
  unfold step at taken
  split at taken
  · cases taken
  · split at taken
    case h_1 =>
      unfold callStep at taken
      split at taken
      case h_3 =>
        split at taken
        · rename_i issued
          split at taken
          · rename_i began
            cases taken
            exact ⟨_, began, rfl, rfl, issued⟩
          · cases taken
        · cases taken
      all_goals (repeat' split at taken) <;> cases taken
    case h_14 =>
      simp only [Option.some.injEq] at taken
      obtain ⟨lease, began, rfl, found, pending⟩ := drainStep_mounting taken
      exact ⟨lease, began, rfl, found,
        (sound.registry _ place.known).issued id (place.pending id pending)⟩
    case h_8 =>
      split at taken
      · simp only [Option.some.injEq, Prod.mk.injEq] at taken
        exact absurd taken.2 resume_not_mounting
      · cases taken
    case h_9 =>
      simp only [Option.some.injEq, Prod.mk.injEq] at taken
      exact absurd taken.2 resume_not_mounting
    all_goals cases taken

/-! ### Rejected calls -/

/-- The assertion of a call on the phase of its lease fails. -/
def Heap.Rejects (heap : Heap ι) : Choice → Prop
  | .resume id => id < heap.nextLease ∧ (heap.leases id).phase ≠ .ready ∧
      (heap.leases id).phase ≠ .reclaimed
  | .reclaim id => id < heap.nextLease ∧
      ((heap.leases id).phase = .running ∨ (heap.leases id).phase = .reclaiming)
  | .cleanupContext id _ => id < heap.nextLease ∧ (heap.leases id).phase ≠ .ready ∧
      (heap.leases id).phase ≠ .complete
  | _ => False

theorem rejected_call {heap : Heap ι} (sound : heap.Sound) {choice : Choice}
    (rejects : heap.Rejects choice) (activation : ι) :
    callStep activation heap choice = some (heap, .idle) := by
  cases choice with
  | resume id =>
      obtain ⟨issued, rejected⟩ := rejects
      obtain ⟨message, failed⟩ := (Lease.beginResume_error activation (sound.lease id issued)).mpr
        rejected
      simp [callStep, issued, failed]
  | reclaim id =>
      obtain ⟨issued, rejected⟩ := rejects
      obtain ⟨message, failed⟩ := (Lease.beginReclaim_error activation).mpr rejected
      simp [callStep, issued, failed]
  | cleanupContext id mount =>
      obtain ⟨issued, rejected⟩ := rejects
      obtain ⟨message, failed⟩ := (Lease.cleanupContext_error mount).mpr rejected
      simp [callStep, issued, failed]
  | takeStack | fiberScope | spawn | unmount | back | panics | go => cases rejects

/-- An attempt of a drain that is rejected. -/
theorem rejected_attempt {heap : Heap ι} {drain : Drain} {id : Nat} {rest : List Nat}
    {attempts : Nat} (pending : drain.pending = id :: rest) (left : drain.attempts = attempts + 1)
    (rejects : heap.Rejects (.reclaim id)) (activation : ι) :
    (drainStep activation heap drain).1 = heap := by
  obtain ⟨issued, rejected⟩ := rejects
  obtain ⟨message, failed⟩ := (Lease.beginReclaim_error activation).mpr rejected
  have live : (heap.leases id).live = true := by
    rcases rejected with phase | phase <;> simp [Lease.live, phase]
  simp [drainStep, pending, live, left, failed]

/-- However a resume ends, its fiber is back and the lease is ready or complete. -/
theorem resume_ends {activation : ι} {choice : Choice} {heap : Heap ι} {id : Nat} {fiber : Fiber}
    {result : Heap ι × Pc}
    (taken : step activation choice heap (.resuming id fiber) = some result) :
    ((result.1.leases id).phase = .ready ∨ (result.1.leases id).phase = .complete) ∧
      (result.1.leases id).fiber.isSome := by
  cases choice with
  | unmount isComplete =>
      simp only [step] at taken
      split at taken
      · cases taken
      · cases taken
        cases isComplete <;> simp [Heap.setLease, Lease.endResume]
  | resume | takeStack | reclaim | cleanupContext | fiberScope | spawn | back | panics | go =>
      simp [step] at taken

end

/-! ## Runs -/

variable [Inhabited ι] [DecidableEq ι]

theorem reachable_sound {state : Threads ι (Heap ι) Pc}
    (reachable : (program ι).system.Reachable state) :
    state.shared.Sound ∧
      ∀ activation, (state.locals activation).Sound activation state.shared := by
  refine Program.invariant ?_ ?_ ?_ reachable
  · rintro _ rfl
    exact ⟨⟨fun _ issued => absurd issued (Nat.not_lt_zero _),
      fun _ known => absurd known (Nat.not_lt_zero _)⟩, fun _ => trivial⟩
  · rintro activation heap pc heap' pc' sound place ⟨choice, taken⟩
    have yields := step_spec sound place taken
    exact ⟨yields.sound, yields.place⟩
  · rintro activation other heap pc otherPc heap' pc' different sound place otherPlace
      ⟨choice, taken⟩
    exact otherPlace.advance sound different (step_spec sound place taken).advances


variable {state : Threads ι (Heap ι) Pc}

/-- While the holder of a busy lease stands still, the lease does. -/
theorem aside_kept (reachable : (program ι).system.Reachable state) {middle : Threads ι (Heap ι) Pc}
    {activation : ι} {id : Nat} {phase : Phase} (busy : phase = .running ∨ phase = .reclaiming)
    (holds : state.shared.Holds activation id phase)
    (aside : (program ι).Aside activation state middle) :
    middle.shared.Holds activation id phase ∧
      middle.shared.leases id = state.shared.leases id := by
  induction aside with
  | refl => exact ⟨holds, rfl⟩
  | @tail between _ before moved ih =>
      obtain ⟨other, heap, pc, different, ⟨choice, taken⟩, rfl⟩ := moved
      obtain ⟨sound, places⟩ := reachable_sound (Program.Aside.reachable before reachable)
      obtain ⟨held, same⟩ :=
        ih.1.advance busy different.symm (step_spec sound (places other) taken).advances
      exact ⟨held, same.trans ih.2⟩

/-! ## The lifecycle -/

/-- A cleanup mount that panics leaves the lease as its reclaim found it. -/
theorem mount_panics (reachable : (program ι).system.Reachable state) {activation : ι}
    {choice : Choice} {heap : Heap ι} {id payload : Nat} {previous : Phase} {caller : Caller}
    {middle : Threads ι (Heap ι) Pc} {result : Heap ι × Pc}
    (began : step activation choice state.shared (state.locals activation) =
      some (heap, .mounting id previous caller))
    (aside : (program ι).Aside activation
      ⟨heap, fun other => if other = activation then .mounting id previous caller
        else state.locals other⟩ middle)
    (panicked : step activation (.panics payload) middle.shared (middle.locals activation) =
      some result) :
    result.1.leases id = state.shared.leases id ∧ (result.1.leases id).phase = previous ∧
      (result.1.leases id).fiber.isSome := by
  obtain ⟨sound, places⟩ := reachable_sound reachable
  have mounted := System.Reachable.step reachable (.mk activation ⟨choice, began⟩)
  obtain ⟨lease, reclaimed, rfl, rfl, issued⟩ := step_mounting sound (places activation) began
  obtain ⟨idle, rfl⟩ := Lease.beginReclaim_spec reclaimed
  obtain ⟨fits, free⟩ := (sound.lease id issued).idle idle
  obtain ⟨held, same⟩ := aside_kept mounted (.inr rfl) (setLease_holds issued rfl rfl) aside
  have place : middle.locals activation = .mounting id (state.shared.leases id).phase caller := by
    rw [aside.locals]
    exact if_pos rfl
  simp only [step, place] at panicked
  split at panicked
  · cases panicked
  · split at panicked
    · cases panicked
      have restored : ((middle.shared.leases id).restore (state.shared.leases id).phase) =
          state.shared.leases id := by
        rw [same]
        simp [Heap.setLease, Lease.restore, ← free]
      simp only [Heap.setLease, Function.update_self, restored, true_and]
      rcases fits with ⟨_, fiber⟩ | ⟨_, fiber⟩ <;> simp [fiber]
    · cases panicked

/-- A reclaimed lease never changes, so that its fiber is not mounted again. -/
theorem reclaimed_stays (reachable : (program ι).system.Reachable state)
    {next : Threads ι (Heap ι) Pc} (taken : (program ι).system.step state next) {id : Nat}
    (issued : id < state.shared.nextLease)
    (reclaimed : (state.shared.leases id).phase = .reclaimed) :
    id < next.shared.nextLease ∧ next.shared.leases id = state.shared.leases id := by
  obtain ⟨sound, places⟩ := reachable_sound reachable
  cases taken with
  | mk activation moved =>
      obtain ⟨choice, moved⟩ := moved
      have advanced := (step_spec sound (places activation) moved).advances
      exact ⟨Nat.lt_of_lt_of_le issued advanced.nextLease,
        (advanced.lease id issued).resolve_right fun moves => moves.not_reclaimed reclaimed⟩

/-- The leases of a scope of fibers, in every reachable state of any number of activations that
call them, also from inside a fiber, a cleanup mount or a destructor. -/
theorem lease_lifecycle (reachable : (program ι).system.Reachable state) :
    (∀ id < state.shared.nextLease,
      (state.shared.leases id).extracted + (state.shared.leases id).dropped =
        if (state.shared.leases id).phase = .reclaimed then 1 else 0) ∧
    (∀ next, (program ι).system.step state next → ∀ id < state.shared.nextLease,
      (state.shared.leases id).phase = .reclaimed →
        next.shared.leases id = state.shared.leases id) ∧
    (∀ activation choice heap id previous caller middle payload result,
      step activation choice state.shared (state.locals activation) =
        some (heap, .mounting id previous caller) →
      (program ι).Aside activation ⟨heap, fun other => if other = activation
        then .mounting id previous caller else state.locals other⟩ middle →
      step activation (.panics payload) middle.shared (middle.locals activation) = some result →
      result.1.leases id = state.shared.leases id ∧ (result.1.leases id).phase = previous ∧
        (result.1.leases id).fiber.isSome) ∧
    (∀ activation id fiber choice result, state.locals activation = .resuming id fiber →
      step activation choice state.shared (state.locals activation) = some result →
      ((result.1.leases id).phase = .ready ∨ (result.1.leases id).phase = .complete) ∧
        (result.1.leases id).fiber.isSome) ∧
    (∀ choice, state.shared.Rejects choice → ∀ activation,
      callStep activation state.shared choice = some (state.shared, .idle)) ∧
    (∀ drain id rest attempts, drain.pending = id :: rest → drain.attempts = attempts + 1 →
      state.shared.Rejects (.reclaim id) → ∀ activation,
      (drainStep activation state.shared drain).1 = state.shared) ∧
    (∀ activation scope exit, state.locals activation = .left scope exit →
      (∀ id ∈ (state.shared.registries scope).issued,
        (state.shared.leases id).phase = .reclaimed) ∧
      ∃ body, (state.shared.registries scope).ended = some body ∧ exit.Reports body) := by
  obtain ⟨sound, places⟩ := reachable_sound reachable
  refine ⟨fun id issued => (sound.lease id issued).once, ?_, ?_, ?_, ?_, ?_, ?_⟩
  · intro next taken id issued reclaimed
    exact (reclaimed_stays reachable taken issued reclaimed).2
  · intro activation choice heap id previous caller middle payload result began aside panicked
    exact mount_panics reachable began aside panicked
  · intro activation id fiber choice result place taken
    rw [place] at taken
    exact resume_ends taken
  · intro choice rejects activation
    exact rejected_call sound rejects activation
  · intro drain id rest attempts pending left rejects activation
    exact rejected_attempt pending left rejects activation
  · intro activation scope exit place
    have left := places activation
    rw [place] at left
    exact ⟨fun id member => by simpa [Lease.live] using left.reclaimed id member, left.reports⟩

/-- A scope whose body panics after it spawned a fiber, and whose cleanup mount panics once. -/
def leavingSchedule : List (Nat × Choice) :=
  [(0, .fiberScope 1), (1, .spawn 0 true), (1, .resume 0), (2, .resume 0), (1, .unmount false),
    (1, .cleanupContext 0 7), (1, .back), (0, .panics 5), (0, .go), (0, .panics 9), (0, .go),
    (0, .back), (0, .back), (0, .back), (0, .panics 3), (0, .back), (0, .go), (0, .go), (0, .go),
    (0, .go)]

/-- The panic of the body goes on, and the lease is reclaimed. -/
theorem lease_lifecycle_leaving : ∃ state : Threads Nat (Heap Nat) Pc,
    (program Nat).system.Reachable state ∧ state.locals 0 = .left 0 (.bodyPanic 5) ∧
      (state.shared.registries 0).issued = [0] ∧ (state.shared.leases 0).phase = .reclaimed := by
  have runs : ((scheduler Nat).run leavingSchedule ⟨.new, fun _ => .idle⟩).map (fun state =>
      (state.locals 0, (state.shared.registries 0).issued)) =
        some (.left 0 (.bodyPanic 5), [0]) := by
    decide
  obtain ⟨state, run, places⟩ := Option.map_eq_some_iff.mp runs
  simp only [Prod.mk.injEq] at places
  obtain ⟨place, issued⟩ := places
  have fresh : (program Nat).system.Reachable ⟨.new, fun _ => .idle⟩ :=
    .initial ⟨rfl, fun _ => rfl⟩
  have reachable := (scheduler Nat).run_reachable fresh run
  obtain ⟨-, -, -, -, -, -, left⟩ := lease_lifecycle reachable
  exact ⟨state, reachable, place, issued, (left 0 0 _ place).1 0 (by simp [issued])⟩

end VThread.Stack

import VThread.Kernel.Dispatch
import VThread.Kernel.Receiving

/-!
# Scopes that have been aborted

Once a scope that admits no more tasks has been aborted, it has a pending abort for as long as
any of its started tasks is there.
-/

namespace VThread.Kernel

open VThread.Lib VThread.Carrier VThread.Ready VThread.Wait

/-! ## Barred scopes -/

/-- A scope that is known admits no task any more. -/
structure Closed (scope : Nat) (world : World) : Prop where
  old : scope < world.nextScope
  shut : world.accepting = false ∨
    world.inbox.state.stopped = true ∧ world.inbox.stopped = true ∨
    ∀ state ∈ world.scopes, state.id = scope → state.aborting ≠ none

/-- No task of the scope is left, except started ones while the abort of the scope is pending. -/
structure Barred (scope : Nat) (world : World) : Prop where
  closed : Closed scope world
  packets : ∀ packet ∈ world.packets, packet.scope ≠ scope
  starts : ∀ task ∈ world.starts, task.scope ≠ scope
  held : world.blocked scope = true ∨
    ∀ key task, world.tasks.get key = some task → task.scope ≠ scope

/-- What the rest of the runtime keeps of its scopes, and what publishers ask of the inbox. -/
structure Undisturbed (world world' : World) : Prop where
  accepting : world'.accepting = world.accepting
  scopes : world'.scopes = world.scopes
  nextScope : world'.nextScope = world.nextScope
  inbox : OnlyStarts world.inbox world'.inbox

theorem Undisturbed.of_aside {world world' : World} (same : world'.aside = world.aside) :
    Undisturbed world world' where
  accepting := (congrArg World.accepting same :)
  scopes := (congrArg World.scopes same :)
  nextScope := (congrArg World.nextScope same :)
  inbox := by
    have inbox : world'.inbox = world.inbox := (congrArg World.inbox same :)
    exact inbox ▸ .refl _

theorem Undisturbed.refl (world : World) : Undisturbed world world := ⟨rfl, rfl, rfl, .refl _⟩

theorem Undisturbed.trans {first second third : World} (before : Undisturbed first second)
    (after : Undisturbed second third) : Undisturbed first third :=
  ⟨after.accepting.trans before.accepting, after.scopes.trans before.scopes,
    after.nextScope.trans before.nextScope, before.inbox.trans after.inbox⟩

theorem Closed.undisturbed {scope : Nat} {world world' : World} (closed : Closed scope world)
    (same : Undisturbed world world') : Closed scope world' := by
  obtain ⟨accepting, scopes, nextScope, inbox⟩ := same
  obtain ⟨_, _, inbox⟩ := inbox
  refine ⟨nextScope ▸ closed.old, ?_⟩
  rw [accepting, scopes, inbox]
  exact closed.shut

theorem Received.undisturbed {world world' : World} (received : Received world world') :
    Undisturbed world world' ∧ world'.pendingAborts = world.pendingAborts := by
  have inbox := received.inbox
  obtain ⟨_, _, _, _, _, _, _, _, _, _, _, rfl⟩ := received.same
  exact ⟨⟨rfl, rfl, rfl, inbox⟩, rfl⟩

namespace Barred

variable {scope : Nat} {world world' : World}

/-- Where only started tasks come to an end, and tasks of other scopes are queued. -/
theorem keep (barred : Barred scope world) (same : world'.aside = world.aside)
    (live : ∀ key task, world'.tasks.get key = some task → world.tasks.get key = some task)
    (starts : ∀ start ∈ world'.starts, start ∈ world.starts ∨ start.scope ≠ scope) :
    Barred scope world' where
  closed := barred.closed.undisturbed (.of_aside same)
  packets := by
    have packets : world'.packets = world.packets := (congrArg World.packets same :)
    exact packets ▸ barred.packets
  starts start member := (starts start member).elim (barred.starts start) id
  held := by
    have pending : world'.pendingAborts = world.pendingAborts :=
      (congrArg World.pendingAborts same :)
    rw [World.blocked, pending]
    exact barred.held.imp_right fun none' key task there => none' key task (live key task there)

theorem woken (barred : Barred scope world) (woken : Woken world world') :
    Barred scope world' := by
  obtain ⟨_, _, _, _, _, _, _, _, _, rfl⟩ := woken
  exact barred.keep rfl (fun _ _ => id) fun _ => .inl

theorem revoked (barred : Barred scope world) (revoked : World.Revoked world world') :
    Barred scope world' := by
  refine barred.keep ?_ revoked.tasks fun start member => .inl (revoked.starts ▸ member)
  exact (World.aside_of_outside revoked.outside).trans rfl

/-- A task whose scope has no pending abort belongs to another scope. -/
theorem apart (barred : Barred scope world) {key : TaskKey} {task : Task}
    (there : world.tasks.get key = some task) (unblocked : world.blocked task.scope = false) :
    task.scope ≠ scope := by
  rintro rfl
  rcases barred.held with blocks | none'
  · rw [unblocked] at blocks
    cases blocks
  · exact none' key task there rfl

theorem returned (barred : Barred scope world) {other : Nat} (different : other ≠ scope)
    (returned : Returned other world world') : Barred scope world' :=
  barred.keep returned.aside returned.live fun start member =>
    (returned.starts start member).imp_right (Eq.trans_ne · different)

theorem received (barred : Barred scope world) (received : Received world world') :
    Barred scope world' := by
  have none' : ∀ key task, world'.tasks.get key = some task → task.scope = scope →
      world.tasks.get key = some task := by
    intro key task there isScope
    rcases received.new key task there with there | ⟨-, queued⟩ | ⟨-, packet, member, same⟩
    · exact there
    · exact absurd isScope (barred.starts task queued)
    · exact absurd (same.trans isScope) (barred.packets packet member)
  have same := received.undisturbed
  refine ⟨barred.closed.undisturbed same.1, fun packet member =>
    barred.packets packet (received.packets member), fun start member =>
    barred.starts start (received.starts member), ?_⟩
  rw [World.blocked, same.2]
  refine barred.held.imp_right fun absent key task there isScope => ?_
  exact absent key task (none' key task there isScope) isScope

end Barred

/-! ## Aborts -/

namespace World.Aborted

variable {others : Nat → List Move} {scope : Option Nat} {reason : TaskFailure}
  {world world' : World} {retired : Bool} {other : Nat}

theorem undisturbed (aborted : Aborted others scope reason world world' retired) :
    Undisturbed world world' ∧ world'.packets = world.packets.filter (!inScope scope ·.scope) := by
  obtain ⟨begun, prepared, keys, begins, ⟨stirred, -⟩, reclaims, defers⟩ := aborted.parts
  have before : Undisturbed world prepared ∧
      prepared.packets = world.packets.filter (!inScope scope ·.scope) := by
    obtain ⟨_, _, _, _, _, same, -⟩ := stirred
    rw [same]
    have inbox := begins.inbox
    have packets := begins.packets
    obtain ⟨_, _, _, _, _, _, begun⟩ := begins.same
    refine ⟨⟨?_, ?_, ?_, inbox⟩, packets⟩ <;> rw [begun]
  cases retired with
  | true =>
      obtain ⟨gone, reclaimed⟩ := reclaims rfl
      have outside := reclaimed.discarded.outside
      refine ⟨⟨(congrArg World.accepting outside :).trans before.1.accepting,
        (congrArg World.scopes outside :).trans before.1.scopes,
        (congrArg World.nextScope outside :).trans before.1.nextScope, ?_⟩,
        (congrArg World.packets outside :).trans before.2⟩
      have inbox : world'.inbox = prepared.inbox := (congrArg World.inbox outside :)
      exact inbox ▸ before.1.inbox
  | false =>
      obtain ⟨_, _, _, same⟩ := (defers rfl).same
      rw [same]
      exact ⟨⟨before.1.accepting, before.1.scopes, before.1.nextScope, before.1.inbox⟩, before.2⟩

theorem live (aborted : Aborted others scope reason world world' retired) {key : TaskKey}
    {task : Task} (there : world'.tasks.get key = some task) :
    world.tasks.get key = some task ∨ key.isBorrowed = true ∧ task ∈ world.starts := by
  obtain ⟨begun, prepared, keys, begins, ⟨stirred, -⟩, reclaims, defers⟩ := aborted.parts
  refine begins.new key task (stirred.tasks ▸ ?_)
  cases retired with
  | true =>
      obtain ⟨gone, reclaimed⟩ := reclaims rfl
      exact (reclaimed.discarded.live there).2
  | false =>
      obtain ⟨_, _, _, same⟩ := (defers rfl).same
      rw [same] at there
      exact there

/-- Nothing started is left of the scope, or its abort is pending. -/
theorem settles (aborted : Aborted others scope reason world world' retired)
    (isIn : inScope scope other = true) : world'.blocked other = true ∨
      ∀ key task, world'.tasks.get key = some task → task.scope ≠ other := by
  obtain ⟨begun, prepared, keys, begins, ⟨stirred, -⟩, reclaims, defers⟩ := aborted.parts
  cases retired with
  | true =>
      obtain ⟨gone, reclaimed⟩ := reclaims rfl
      refine .inr fun key task there same => ?_
      obtain ⟨kept, before⟩ := reclaimed.discarded.live there
      refine kept ((reclaimed.exact key).mpr ?_)
      rw [keyIn_eq (show prepared.tasks.get key = some task from before), same, isIn]
  | false => exact .inl ((defers rfl).covered other isIn)

/-- The abort of another scope stays pending. -/
theorem blocked (aborted : Aborted others scope reason world world' retired)
    (isOut : inScope scope other = false) (blocks : world.blocked other = true) :
    world'.blocked other = true := by
  obtain ⟨begun, prepared, keys, begins, ⟨stirred, -⟩, reclaims, defers⟩ := aborted.parts
  have pending : prepared.pendingAborts = world.pendingAborts := by
    obtain ⟨_, _, _, _, _, same, -⟩ := stirred
    obtain ⟨_, _, _, _, _, _, begun⟩ := begins.same
    rw [same, begun]
  have before : prepared.blocked other = true := by
    rw [World.blocked, pending]
    exact blocks
  cases retired with
  | true =>
      obtain ⟨gone, reclaimed⟩ := reclaims rfl
      have left : world'.pendingAborts = prepared.pendingAborts.filter fun entry =>
          scope.isSome && entry.1 != scope :=
        (congrArg World.pendingAborts reclaimed.discarded.outside :)
      cases scope with
      | none => cases isOut
      | some scope =>
          rw [World.blocked, left, List.any_eq_true]
          obtain ⟨entry, member, covers⟩ := List.any_eq_true.mp before
          refine ⟨entry, List.mem_filter.mpr ⟨member, ?_⟩, covers⟩
          rw [Option.isSome_some, Bool.true_and, bne_iff_ne]
          intro same
          rw [same, isOut] at covers
          cases covers
  | false => exact (defers rfl).blocked other before

/-- An aborted scope that admits no task is barred. -/
theorem bars (aborted : Aborted others scope reason world world' retired)
    (isIn : inScope scope other = true) (closed : Closed other world) : Barred other world' := by
  obtain ⟨same, packets⟩ := aborted.undisturbed
  refine ⟨closed.undisturbed same, fun packet member isOther => ?_, fun start member => ?_,
    aborted.settles isIn⟩
  · have kept := (List.mem_filter.mp (packets ▸ member)).2
    rw [isOther, isIn] at kept
    cases kept
  · rw [aborted.starts] at member
    cases member

theorem barred (aborted : Aborted others scope reason world world' retired)
    (barred : Barred other world) : Barred other world' := by
  cases isIn : inScope scope other with
  | true => exact aborted.bars isIn barred.closed
  | false =>
      obtain ⟨same, packets⟩ := aborted.undisturbed
      refine ⟨barred.closed.undisturbed same, fun packet member => barred.packets packet
        (List.mem_filter.mp (packets ▸ member)).1, fun start member => ?_, ?_⟩
      · rw [aborted.starts] at member
        cases member
      · rcases barred.held with blocks | none'
        · exact .inl (aborted.blocked isIn blocks)
        · refine .inr fun key task there isOther => ?_
          rcases aborted.live there with there | ⟨-, queued⟩
          · exact none' key task there isOther
          · exact barred.starts task queued isOther

end World.Aborted

/-- Retries keep a scope barred. -/
theorem Barred.retried {others : Nat → List Move} {entries : List (Option Nat × TaskFailure)}
    {scope : Nat} {world world' : World} (barred : Barred scope world)
    (swept : Swept World.pendingAborts World.setPendingAborts (World.Retried others) entries world
      world') : Barred scope world' := by
  induction swept with
  | done state => exact barred
  | @next entry rest entries state state' final perm retried _ ih =>
      obtain ⟨-, retired, -, aborted⟩ := retried
      refine ih ?_
      have closed : Closed scope (World.setPendingAborts rest state) :=
        barred.closed.undisturbed ⟨rfl, rfl, rfl, .refl _⟩
      cases isIn : inScope entry.1 scope with
      | true => exact aborted.bars isIn closed
      | false =>
          refine aborted.barred ⟨closed, barred.packets, barred.starts, ?_⟩
          refine barred.held.imp_left fun blocks => ?_
          obtain ⟨other, member, covers⟩ := List.any_eq_true.mp blocks
          refine List.any_eq_true.mpr ⟨other, ?_, covers⟩
          rcases List.mem_cons.mp (perm.subset member) with rfl | member
          · rw [isIn] at covers
            cases covers
          · exact member

theorem undisturbed_of_retried {others : Nat → List Move}
    {entries : List (Option Nat × TaskFailure)} {world world' : World}
    (swept : Swept World.pendingAborts World.setPendingAborts (World.Retried others) entries world
      world') : Undisturbed world world' := by
  induction swept with
  | done state => exact .refl state
  | @next entry rest entries state state' final perm retried _ ih =>
      obtain ⟨-, retired, -, aborted⟩ := retried
      have removed : Undisturbed state (World.setPendingAborts rest state) :=
        ⟨rfl, rfl, rfl, .refl _⟩
      exact removed.trans (aborted.undisturbed.1.trans ih)

end VThread.Kernel

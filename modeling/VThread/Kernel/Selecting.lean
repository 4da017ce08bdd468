import VThread.Kernel.Dispatch
import VThread.Ready.Service

/-!
# Selection of the task in flight

A carrier takes its next task as if its ready queue held no task of a scope with a pending
abort.
-/

namespace VThread.Kernel

open VThread.Lib VThread.Carrier VThread.Ready VThread.Wait

/-! ## The choice -/

/-- A task was moved from the ready queue into flight. -/
theorem Sound.choose {world : World} (sound : Sound none world) (idle : world.inFlight = none)
    {ready : ReadyQueue TaskKey} {selected : Option TaskKey}
    (perm : (selected.toList ++ ready.held).Perm world.ready.held) :
    Sound none { world with ready, inFlight := selected } := by
  have valid := sound.valid
  have admitted := sound.admitted
  refine ⟨⟨valid.located.perm ?_, valid.framed, valid.waiting, valid.deferring, valid.noticed⟩,
    ⟨sound.bounded.records, sound.bounded.owned, sound.bounded.borrowed⟩, sound.pending,
    ⟨admitted.distinct, admitted.bounded, admitted.fresh, admitted.live, admitted.queued,
      admitted.issued⟩⟩
  have counts := fun key => perm.count_eq key
  simp only [World.keys, idle, ReadyQueue.held, List.perm_iff_count, List.count_append,
    Option.toList_none, List.count_nil] at counts ⊢
  intro key
  have same := counts key
  omega

namespace World

variable {world : World}

/-- A task whose scope has no pending abort. -/
def eligible (world : World) (key : TaskKey) : Bool := (world.scopeOf key).any (!world.blocked ·)

theorem eligible_eq {key : TaskKey} {task : Task} (there : world.tasks.get key = some task) :
    world.eligible key = !world.blocked task.scope := by
  rw [eligible, scopeOf, there]
  rfl

theorem eligible_get {key : TaskKey} (isEligible : world.eligible key = true) :
    ∃ task, world.tasks.get key = some task ∧ world.blocked task.scope = false := by
  cases there : world.tasks.get key with
  | none =>
      rw [eligible, scopeOf, there] at isEligible
      cases isEligible
  | some task =>
      rw [eligible_eq there, Bool.not_eq_true'] at isEligible
      exact ⟨task, rfl, isEligible⟩

/-- The task that a selection takes. -/
def chosen (world : World) : Option TaskKey := (world.ready.restrict world.eligible).popFront.2

theorem chosen_eligible {key : TaskKey} (isChosen : world.chosen = some key) :
    world.eligible key = true := by
  have perm := ReadyQueue.pop_held (ReadyQueue.popFront_pops (world.ready.restrict world.eligible))
  rw [show (world.ready.restrict world.eligible).popFront.2 = some key from isChosen,
    Option.toList_some] at perm
  have member := perm.subset (List.mem_append_left _ List.mem_cons_self)
  rw [ReadyQueue.held, ReadyQueue.restrict] at member
  rcases List.mem_append.mp member with member | member
  · exact (List.mem_filter.mp member).2
  · exact (List.mem_filter.mp member).2

/-- Nothing is chosen only where no ready task is eligible. -/
theorem chosen_none (isNone : world.chosen = none) :
    ∀ key ∈ world.ready.held, world.eligible key = false := by
  have empty := ReadyQueue.popFront_none isNone
  rw [ReadyQueue.isEmpty, ReadyQueue.restrict, Bool.and_eq_true, List.isEmpty_iff,
    List.isEmpty_iff, List.filter_eq_nil_iff, List.filter_eq_nil_iff] at empty
  intro key member
  rcases List.mem_append.mp member with member | member
  · simpa using empty.1 key member
  · simpa using empty.2 key member

theorem ready_live (valid : Valid none world) {key : TaskKey} (member : key ∈ world.ready.held) :
    ∃ task, world.tasks.get key = some task := by
  refine valid.located.get ?_
  rw [ReadyQueue.held] at member
  rcases List.mem_append.mp member with member | member <;> simp [keys, member]

theorem selectReady_spec (sound : Sound none world) :
    ∃ ready, world.selectReady = .ok { world with ready, inFlight := world.chosen } ∧
      (world.chosen.toList ++ ready.held).Perm world.ready.held := by
  by_cases quiet : world.pendingAborts = []
  · have all : ∀ key ∈ world.ready.held, world.eligible key = true := by
      intro key member
      obtain ⟨task, there⟩ := ready_live sound.valid member
      rw [eligible_eq there, blocked, quiet]
      rfl
    have whole : world.ready.restrict world.eligible = world.ready := by
      rw [ReadyQueue.restrict, List.filter_eq_self.mpr fun key member =>
        all key (List.mem_append_left _ member), List.filter_eq_self.mpr fun key member =>
        all key (List.mem_append_right _ member)]
    refine ⟨world.ready.popFront.1, ?_, ?_⟩
    · rw [selectReady, chosen, whole, quiet]
      rfl
    · rw [chosen, whole]
      exact ReadyQueue.pop_held (ReadyQueue.popFront_pops _)
  · have live : ∀ key ∈ world.ready.normal ++ world.ready.wakes,
        (world.tasks.get key).isSome = true := by
      intro key member
      obtain ⟨task, there⟩ := ready_live sound.valid member
      rw [there]
      rfl
    have unblocked : ∀ ready selected,
        world.ready.popMatching world.eligible = .ok (ready, selected) →
        world.selectReady = .ok { world with ready, inFlight := selected } := by
      intro ready selected popped
      have popped' : (world.ready.popMatching fun key => (world.scopeOf key).any
          (!world.blocked ·)) = .ok (ready, selected) := popped
      rw [selectReady, if_neg (by simpa using quiet), selectUnblocked, ensure_of live, ok_bind,
        popped']
      rfl
    by_cases any : ∃ key ∈ world.ready.normal ++ world.ready.wakes, world.eligible key = true
    · obtain ⟨ready, key, popped, selects⟩ := world.ready.popMatching_selects any
      have isChosen : world.chosen = some key := congrArg Prod.snd selects.plain
      refine ⟨ready, isChosen ▸ unblocked _ _ popped, ?_⟩
      · rw [isChosen, Option.toList_some, List.singleton_append, ReadyQueue.held, ReadyQueue.held]
        rcases selects.others with ⟨⟨before, after, same, left⟩, wakes⟩ |
          ⟨normal, before, after, same, left⟩
        · rw [same, left, wakes, List.append_assoc, List.append_assoc]
          exact List.perm_middle.symm
        · rw [same, left, normal, ← List.append_assoc, ← List.append_assoc]
          exact List.perm_middle.symm
    · have none' : NoMatch world.eligible (world.ready.normal ++ world.ready.wakes) := by
        intro key member
        by_contra isEligible
        exact any ⟨key, member, by simpa using isEligible⟩
      have noNormal : world.ready.normal.filter world.eligible = [] :=
        NoMatch.filter fun key member => none' key (List.mem_append_left _ member)
      have noWakes : world.ready.wakes.filter world.eligible = [] :=
        NoMatch.filter fun key member => none' key (List.mem_append_right _ member)
      have isChosen : world.chosen = none := by
        rw [chosen, ReadyQueue.restrict, noNormal, noWakes]
        rfl
      refine ⟨world.ready, isChosen ▸ unblocked _ _ (ReadyQueue.popMatching_none _ none'), ?_⟩
      rw [isChosen]
      exact .refl _

end World

end VThread.Kernel

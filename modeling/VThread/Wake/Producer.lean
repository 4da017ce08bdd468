import VThread.Wake.Invariant

/-!
# Steps of a producer

A producer writes its own slot while the slot is in neither chain, and links it with one
compare-exchange.
-/

namespace VThread.Wake

open VThread.Lib VThread.Wait

variable {ι : Type} {shared : Shared ι} {id : ι}

/-- What a producer's step establishes for itself and leaves to the others. -/
structure Produced (id : ι) (shared : Shared ι) (result : Shared ι × Pc) : Prop where
  inv : result.1.Inv
  fact : PcFact result.1 (.producer id) result.2
  consumer : ConsumerFrame shared result.1
  producers : ∀ index, shared.pushing index ≠ none → shared.pushing index ≠ some id →
    ProducerFrame index shared result.1

section Frames

theorem ConsumerFrame.refl (shared : Shared ι) : ConsumerFrame shared shared :=
  ⟨rfl, rfl, rfl, fun _ _ => rfl, id⟩

theorem ProducerFrame.refl (index : Nat) (shared : Shared ι) :
    ProducerFrame index shared shared :=
  ⟨rfl, rfl, fun _ => rfl, id, id⟩

/-- A step that changes nothing shared. -/
theorem Produced.stay (inv : shared.Inv) {pc : Pc} (fact : PcFact shared (.producer id) pc) :
    Produced id shared (shared, pc) :=
  ⟨inv, fact, .refl shared, fun index _ _ => .refl index shared⟩

end Frames

namespace Shared

section SetSlot

variable (index : Nat) (slot : Slot)

@[simp] theorem setSlot_self : (shared.setSlot index slot).queue.slots index = slot :=
  Function.update_self ..

theorem setSlot_ne {other : Nat} (ne : other ≠ index) :
    (shared.setSlot index slot).queue.slots other = shared.queue.slots other :=
  Function.update_of_ne ne ..

end SetSlot

theorem leave_ne {index other : Nat} (ne : other ≠ index) :
    (shared.leave index).pushing other = shared.pushing other :=
  Function.update_of_ne ne ..

theorem slotOf_mem {notice : Notice} (member : notice ∈ shared.batch ++ shared.stack) :
    slotOf notice ∈ shared.nodes :=
  List.mem_map_of_mem member

/-- A write to the slot of a running push that is not queued. -/
theorem Inv.write (inv : shared.Inv) {index : Nat} (slot : Slot)
    (pushed : shared.pushing index ≠ none) (absent : index ∉ shared.nodes) :
    (shared.setSlot index slot).Inv := by
  have other : ∀ {notice}, notice ∈ shared.batch ++ shared.stack →
      (shared.setSlot index slot).queue.slots (slotOf notice) =
        shared.queue.slots (slotOf notice) := by
    intro notice member
    apply setSlot_ne
    intro same
    rw [← same] at absent
    exact absent (slotOf_mem member)
  exact {
    linked := by
      apply inv.linked.frame
      intro node member
      obtain ⟨notice, inside, rfl⟩ := List.mem_map.1 member
      exact congrArg Slot.next (other (List.mem_append_right _ inside))
    distinct := inv.distinct
    ranged := inv.ranged
    queueable := inv.queueable
    stored := fun notice member => by
      rw [other member]
      exact inv.stored notice member
    asleep := inv.asleep
    free := by
      intro free unpushed task
      have ne : free ≠ index := by
        intro same
        rw [same] at unpushed
        exact pushed unpushed
      rw [setSlot_ne _ _ ne] at task
      exact inv.free free unpushed task
    run := inv.run }

/-- A push ends without a link. -/
theorem Inv.leave (inv : shared.Inv) {index : Nat}
    (queued : (shared.queue.slots index).task ≠ 0 → index ∈ shared.nodes) :
    (shared.leave index).Inv :=
  { inv with
    free := by
      intro free unpushed task
      by_cases same : free = index
      · subst same
        exact queued task
      · rw [leave_ne same] at unpushed
        exact inv.free free unpushed task }

/-- A successful link. -/
def link (shared : Shared ι) (notice : Notice) (head : Head) : Shared ι :=
  (({ shared with stack := notice :: shared.stack }.setHead
    ⟨notice.route.encoded, false⟩).leave notice.route.encoded).event
      (.link notice head.sleeping)

theorem link_nodes (notice : Notice) (head : Head) :
    (shared.link notice head).nodes.Perm (slotOf notice :: shared.nodes) :=
  (List.perm_middle.map slotOf).trans (by rw [List.map_cons]; rfl)

theorem Inv.link (inv : shared.Inv) {notice : Notice}
    (ranged : slotOf notice < shared.queue.count) (queueable : Queueable notice)
    (absent : slotOf notice ∉ shared.nodes)
    (stored : Stored (shared.queue.slots (slotOf notice)) notice)
    (next : (shared.queue.slots (slotOf notice)).next = shared.queue.head.index) :
    (shared.link notice shared.queue.head).Inv := by
  have perm := shared.link_nodes notice shared.queue.head
  have members : ∀ {other}, other ∈ shared.batch ++ notice :: shared.stack →
      other = notice ∨ other ∈ shared.batch ++ shared.stack := by
    intro other member
    exact List.mem_cons.1 (List.perm_middle.mem_iff.1 member)
  exact {
    linked := inv.linked.push notice.route.nonzero next fun _ _ => rfl
    distinct := perm.nodup_iff.2 (List.nodup_cons.2 ⟨absent, inv.distinct⟩)
    ranged := fun other member => by
      rcases members member with rfl | old
      · exact ranged
      · exact inv.ranged other old
    queueable := fun other member => by
      rcases members member with rfl | old
      · exact queueable
      · exact inv.queueable other old
    stored := fun other member => by
      rcases members member with rfl | old
      · exact stored
      · exact inv.stored other old
    asleep := fun sleeping => nomatch sleeping
    free := by
      intro free unpushed task
      rw [perm.mem_iff, List.mem_cons]
      by_cases same : free = slotOf notice
      · exact .inl same
      · refine .inr (inv.free free ?_ task)
        exact (leave_ne same).symm.trans unpushed
    run := by
      have run := inv.run.snoc (.link shared.pending shared.queue.head.sleeping notice)
      have pending : (shared.link notice shared.queue.head).pending =
          shared.pending ++ [notice] := by
        change shared.batch ++ (notice :: shared.stack).reverse = _
        rw [List.reverse_cons, ← List.append_assoc]
        rfl
      rw [pending]
      exact run }

end Shared

/-! ## The stages of a push -/

section Push

variable {notice : Notice}

/-- A producer writes its slot and goes on. -/
theorem Produced.write (inv : shared.Inv) (slot : Slot) {stage : Stage}
    (pushing : shared.pushing (slotOf notice) = some id)
    (ranged : slotOf notice < shared.queue.count) (queueable : Queueable notice)
    (absent : slotOf notice ∉ shared.nodes)
    (fact : PushFact (shared.setSlot (slotOf notice) slot) notice stage) :
    Produced id shared (shared.setSlot (slotOf notice) slot, .run (.push notice) stage) where
  inv := inv.write slot (by simp [pushing]) absent
  fact := ⟨pushing, ranged, queueable, fact⟩
  consumer := by
    refine ⟨rfl, rfl, rfl, ?_, fun stack => stack⟩
    intro other member
    have ne : slotOf other ≠ slotOf notice := by
      intro same
      rw [← same] at absent
      exact absent (Shared.slotOf_mem (List.mem_append_left _ member))
    exact congrArg Slot.next (Shared.setSlot_ne _ _ ne)
  producers := by
    intro index _ foreign
    have ne : index ≠ slotOf notice := by
      rintro rfl
      exact foreign pushing
    have same : (shared.setSlot (slotOf notice) slot).queue.slots index =
        shared.queue.slots index := Shared.setSlot_ne _ _ ne
    refine ⟨rfl, rfl, fun _ => same, fun absent => absent, ?_⟩
    rw [same]
    exact fun queued => queued

/-- Each step of a push. -/
theorem pushStep_produced (inv : shared.Inv) (spurious : Bool) {stage : Stage}
    (fact : PcFact shared (.producer id) (.run (.push notice) stage)) :
    Produced id shared (pushStep spurious shared notice stage) := by
  obtain ⟨pushing, ranged, queueable, fact⟩ := fact
  cases stage with
  | loadTask =>
      rw [pushStep]
      split
      · refine ⟨inv.leave fact, trivial, ⟨rfl, rfl, rfl, fun _ _ => rfl, fun stack => stack⟩, ?_⟩
        intro index _ foreign
        have ne : index ≠ slotOf notice := by
          rintro rfl
          exact foreign pushing
        exact ⟨Shared.leave_ne ne, rfl, fun _ => rfl, fun absent => absent,
          fun queued => queued⟩
      · rename_i free
        refine .stay inv ⟨pushing, ranged, queueable, ?_⟩
        -- A queued slot has a task.
        intro member
        obtain ⟨queued, inside, same⟩ := List.mem_map.1 member
        have stored := inv.stored queued inside
        rw [same] at stored
        apply free
        rw [stored.task]
        exact (inv.queueable queued inside).task
  | storeTask =>
      exact .write inv _ pushing ranged queueable fact ⟨fact, by rw [Shared.setSlot_self]⟩
  | storeWait =>
      obtain ⟨absent, task⟩ := fact
      refine .write inv _ pushing ranged queueable absent ⟨absent, ?_, ?_⟩
      · rw [Shared.setSlot_self]
        exact task
      · rw [Shared.setSlot_self]
  | storeSelection =>
      obtain ⟨absent, task, wait⟩ := fact
      rw [pushStep, encodeSelection_eq queueable.generation]
      refine .write inv _ pushing ranged queueable absent ⟨absent, ?_⟩
      rw [Shared.setSlot_self]
      exact ⟨task, wait, rfl⟩
  | loadHead => exact .stay inv ⟨pushing, ranged, queueable, fact⟩
  | storeNext head =>
      obtain ⟨absent, stored⟩ := fact
      refine .write inv _ pushing ranged queueable absent ⟨absent, ?_, ?_⟩
      · rw [Shared.setSlot_self]
        exact ⟨stored.task, stored.wait, stored.selection⟩
      · rw [Shared.setSlot_self]
  | exchangeHead head =>
      obtain ⟨absent, stored, next⟩ := fact
      rw [pushStep]
      split
      · rename_i exchanged
        obtain ⟨same, -⟩ := exchanged
        subst same
        refine ⟨inv.link ranged queueable absent stored next, trivial,
          ⟨rfl, rfl, rfl, fun _ _ => rfl, fun _ => List.cons_ne_nil _ _⟩, ?_⟩
        intro index _ foreign
        have ne : index ≠ slotOf notice := by
          rintro rfl
          exact foreign pushing
        have perm := shared.link_nodes notice shared.queue.head
        refine ⟨Shared.leave_ne ne, rfl, fun _ => rfl, ?_, ?_⟩
        · intro absent'
          exact fun member => (List.mem_cons.1 (perm.mem_iff.1 member)).elim ne absent'
        · intro queued task
          exact perm.mem_iff.2 (List.mem_cons_of_mem _ (queued task))
      · exact .stay inv ⟨pushing, ranged, queueable, absent, stored⟩
  | _ => exact fact.elim

/-- The start of a push. -/
theorem startPush_produced (inv : shared.Inv)
    (allows : shared.Allows (.producer id) (.push notice)) :
    Produced id shared (startCall shared (.producer id) (.push notice)) := by
  obtain ⟨free, task, generation⟩ := allows
  rw [startCall]
  split
  · rename_i ranged
    refine ⟨?_, ⟨Function.update_self .., ranged, ⟨task, generation⟩, ?_⟩,
      ⟨rfl, rfl, rfl, fun _ _ => rfl, fun stack => stack⟩, ?_⟩
    · exact { inv with
        free := by
          intro index unpushed queued
          by_cases same : index = slotOf notice
          · rw [same] at unpushed
            simp at unpushed
          · exact inv.free index ((Function.update_of_ne same ..).symm.trans unpushed) queued }
    · exact inv.free _ free
    · intro index pushed _
      have ne : index ≠ slotOf notice := by
        rintro rfl
        exact pushed free
      exact ⟨Function.update_of_ne ne .., rfl, fun _ => rfl, fun absent => absent,
        fun queued => queued⟩
  · exact .stay inv trivial

end Push

end VThread.Wake

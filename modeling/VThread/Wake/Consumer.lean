import VThread.Wake.Producer

/-!
# Steps of the consumer

The consumer captures the whole stack, reverses its links in place and takes the notices
off one by one; the producers' slots stay as they are.
-/

namespace VThread.Wake

open VThread.Lib VThread.Wait

variable {ι : Type} {shared : Shared ι}

/-- What the consumer's step establishes for itself and leaves to the producers. -/
structure Consumed (shared : Shared ι) (result : Shared ι × Pc) : Prop where
  inv : result.1.Inv
  fact : PcFact result.1 .consumer result.2
  producers : ∀ index, ProducerFrame index shared result.1

theorem Consumed.stay (inv : shared.Inv) {pc : Pc} (fact : PcFact shared .consumer pc) :
    Consumed shared (shared, pc) :=
  ⟨inv, fact, fun index => .refl index shared⟩

namespace Shared

/-- A consumed event that leaves the slots and the notices alone. -/
theorem consumed_head (inv : shared.Inv) (settled : Settled shared) {head : Head}
    {event : MailboxEvent Notice} {call : Call} {outcome : Outcome}
    (index : head.index = shared.queue.head.index)
    (asleep : head.sleeping = true → head.index = 0)
    (step : Mailbox.Step ⟨shared.pending, shared.queue.head.sleeping⟩ event
      ⟨shared.pending, head.sleeping⟩) :
    Consumed shared ((shared.setHead head).event event, .rest (some (call, outcome))) where
  inv := { inv with
    linked := by
      have linked := inv.linked
      rw [← index] at linked
      exact linked
    asleep := asleep
    run := inv.run.snoc step }
  fact := settled
  producers := fun _ => ⟨rfl, rfl, fun _ => rfl, fun absent => absent, fun queued => queued⟩

theorem consumed_event (inv : shared.Inv) (settled : Settled shared)
    {event : MailboxEvent Notice} {call : Call} {outcome : Outcome}
    (step : Mailbox.Step ⟨shared.pending, shared.queue.head.sleeping⟩ event
      ⟨shared.pending, shared.queue.head.sleeping⟩) :
    Consumed shared (shared.event event, .rest (some (call, outcome))) :=
  consumed_head inv settled rfl inv.asleep step

/-- A null head has nothing behind it. -/
theorem Inv.stack_eq_nil (inv : shared.Inv) (null : shared.queue.head.index = 0) :
    shared.stack = [] := by
  have linked := inv.linked
  rw [null] at linked
  exact List.map_eq_nil_iff.1 linked.eq_nil

theorem Inv.stack_ne_nil (inv : shared.Inv) (notNull : shared.queue.head.index ≠ 0) :
    shared.stack ≠ [] := by
  intro none
  have nodes := inv.linked.head_eq_null_iff.2
  rw [none] at nodes
  exact notNull (nodes rfl)

/-- The slots of distinct queued notices are distinct. -/
theorem Inv.batch_nodup (inv : shared.Inv) : (shared.batch.map slotOf).Nodup := by
  have distinct := inv.distinct
  rw [nodes, List.map_append] at distinct
  exact (List.nodup_append.1 distinct).1

theorem Inv.batch_ne_stack (inv : shared.Inv) {first second : Notice}
    (inBatch : first ∈ shared.batch) (inStack : second ∈ shared.stack) :
    slotOf first ≠ slotOf second := by
  have distinct := inv.distinct
  rw [nodes, List.map_append] at distinct
  exact (List.nodup_append.1 distinct).2.2 _ (List.mem_map_of_mem inBatch) _
    (List.mem_map_of_mem inStack)

/-- Relinking a captured node. -/
theorem Inv.relink (inv : shared.Inv) {node : Notice} (captured : node ∈ shared.batch)
    (next : Nat) :
    (shared.setSlot (slotOf node)
      { shared.queue.slots (slotOf node) with next }).Inv where
  linked := by
    apply inv.linked.frame
    intro other member
    obtain ⟨notice, inside, rfl⟩ := List.mem_map.1 member
    exact congrArg Slot.next (setSlot_ne _ _ (inv.batch_ne_stack captured inside).symm)
  distinct := inv.distinct
  ranged := inv.ranged
  queueable := inv.queueable
  stored := by
    intro notice member
    have stored := inv.stored notice member
    by_cases same : slotOf notice = slotOf node
    · rw [same, setSlot_self, ← same]
      exact ⟨stored.task, stored.wait, stored.selection⟩
    · rw [setSlot_ne _ _ same]
      exact stored
  asleep := inv.asleep
  free := by
    intro free unpushed task
    by_cases same : free = slotOf node
    · rw [same]
      exact slotOf_mem (List.mem_append_left _ captured)
    · rw [setSlot_ne _ _ same] at task
      exact inv.free free unpushed task
  run := inv.run

/-- Producers do not see a write to a captured node. -/
theorem relink_frame {node : Notice} (captured : node ∈ shared.batch) (next index : Nat) :
    ProducerFrame index shared (shared.setSlot (slotOf node)
      { shared.queue.slots (slotOf node) with next }) := by
  have inside := slotOf_mem (List.mem_append_left shared.stack captured)
  refine ⟨rfl, rfl, ?_, fun absent => absent, ?_⟩
  · intro absent
    apply setSlot_ne
    rintro rfl
    exact absent inside
  · intro queued task
    by_cases same : index = slotOf node
    · rw [same]
      exact inside
    · rw [setSlot_ne _ _ same] at task
      exact queued task

/-- Capturing the stack. -/
def swap (shared : Shared ι) : Shared ι :=
  { shared with batch := shared.batch ++ shared.stack.reverse, stack := [] }.setHead ⟨0, false⟩

theorem swap_nodes : shared.swap.nodes.Perm shared.nodes := by
  rw [nodes, nodes]
  apply List.Perm.map
  change ((shared.batch ++ shared.stack.reverse) ++ []).Perm _
  rw [List.append_nil]
  exact (List.reverse_perm shared.stack).append_left shared.batch

theorem Inv.swap (inv : shared.Inv) (awake : shared.queue.head.sleeping = false) :
    shared.swap.Inv := by
  have members : ∀ {notice}, notice ∈ shared.swap.batch ++ shared.swap.stack →
      notice ∈ shared.batch ++ shared.stack := by
    intro notice member
    simpa [Shared.swap, setHead] using member
  exact {
    linked := .nil
    distinct := swap_nodes.nodup_iff.2 inv.distinct
    ranged := fun notice member => inv.ranged notice (members member)
    queueable := fun notice member => inv.queueable notice (members member)
    stored := fun notice member => inv.stored notice (members member)
    asleep := fun _ => rfl
    free := fun index unpushed task => swap_nodes.mem_iff.2 (inv.free index unpushed task)
    run := by
      have run := inv.run
      rw [awake] at run
      have pending : shared.swap.pending = shared.pending := by
        change (shared.batch ++ shared.stack.reverse) ++ [].reverse = _
        rw [List.reverse_nil, List.append_nil]
        rfl
      rw [pending]
      exact run }

theorem swap_frame (index : Nat) : ProducerFrame index shared shared.swap :=
  ⟨rfl, rfl, fun _ => rfl, fun absent member => absent (swap_nodes.mem_iff.1 member),
    fun queued task => swap_nodes.mem_iff.2 (queued task)⟩

/-- Taking the first captured notice off. -/
def take (shared : Shared ι) (first : Notice) : Shared ι :=
  (({ shared with batch := shared.batch.tail }.setSlot (slotOf first)
    { shared.queue.slots (slotOf first) with task := 0 }).event (.pop first))

theorem take_self (first : Notice) :
    ((shared.take first).queue.slots (slotOf first)).task = 0 := by
  have slot : (shared.take first).queue.slots (slotOf first) =
      { shared.queue.slots (slotOf first) with task := 0 } := Function.update_self ..
  rw [slot]

theorem take_ne {first : Notice} {index : Nat} (ne : index ≠ slotOf first) :
    (shared.take first).queue.slots index = shared.queue.slots index :=
  Function.update_of_ne ne ..

theorem take_nodes {first : Notice} {rest : List Notice} (batch : shared.batch = first :: rest) :
    shared.nodes = slotOf first :: (shared.take first).nodes := by
  have tail : (shared.take first).batch = rest := congrArg List.tail batch
  rw [nodes, nodes, tail, batch]
  rfl

theorem Inv.take (inv : shared.Inv) {first : Notice} {rest : List Notice}
    (batch : shared.batch = first :: rest) : (shared.take first).Inv := by
  have tail : (shared.take first).batch = rest := congrArg List.tail batch
  have nodes := take_nodes batch
  have distinct := inv.distinct
  rw [nodes, List.nodup_cons] at distinct
  have members : ∀ {notice}, notice ∈ (shared.take first).batch ++ (shared.take first).stack →
      notice ∈ shared.batch ++ shared.stack := by
    intro notice member
    rw [tail] at member
    rw [batch]
    exact List.mem_cons_of_mem _ member
  have other : ∀ {notice}, notice ∈ (shared.take first).batch ++ (shared.take first).stack →
      (shared.take first).queue.slots (slotOf notice) =
        shared.queue.slots (slotOf notice) := by
    intro notice member
    apply take_ne
    intro same
    have inside := slotOf_mem member
    rw [same] at inside
    exact distinct.1 inside
  exact {
    linked := by
      apply inv.linked.frame
      intro node member
      obtain ⟨notice, inside, rfl⟩ := List.mem_map.1 member
      exact congrArg Slot.next (other (List.mem_append_right _ inside))
    distinct := distinct.2
    ranged := fun notice member => inv.ranged notice (members member)
    queueable := fun notice member => inv.queueable notice (members member)
    stored := fun notice member => by
      rw [other member]
      exact inv.stored notice (members member)
    asleep := inv.asleep
    free := by
      intro index unpushed task
      by_cases same : index = slotOf first
      · subst same
        exact (task (take_self first)).elim
      · rw [take_ne same] at task
        have queued := inv.free index unpushed task
        rw [nodes, List.mem_cons] at queued
        exact queued.resolve_left same
    run := by
      have run := inv.run
      have pending : shared.pending = first :: (shared.take first).pending := by
        rw [Shared.pending, Shared.pending, tail, batch]
        rfl
      rw [pending] at run
      exact run.snoc (.pop _ _ first) }

theorem take_frame {first : Notice} {rest : List Notice}
    (batch : shared.batch = first :: rest) (index : Nat) :
    ProducerFrame index shared (shared.take first) := by
  have nodes := take_nodes batch
  have inside : slotOf first ∈ shared.nodes := by
    rw [nodes]
    exact List.mem_cons_self ..
  refine ⟨rfl, rfl, ?_, ?_, ?_⟩
  · intro absent
    apply take_ne
    rintro rfl
    exact absent inside
  · intro absent member
    apply absent
    rw [nodes]
    exact List.mem_cons_of_mem _ member
  · intro queued task
    by_cases same : index = slotOf first
    · subst same
      exact (task (take_self first)).elim
    · rw [take_ne same] at task
      have member := queued task
      rw [nodes, List.mem_cons] at member
      exact member.resolve_left same

end Shared

/-! ## The stages of a pop -/

section Pop

/-- A captured node is a slot of the queue. -/
theorem withSlot_captured (inv : shared.Inv) {index : Nat}
    (captured : index ∈ shared.batch.map slotOf) (next : Slot → Shared ι × Pc) :
    shared.queue.withSlot index next shared = next (shared.queue.slots index) := by
  obtain ⟨notice, inside, rfl⟩ := List.mem_map.1 captured
  exact if_pos (inv.ranged notice (List.mem_append_left _ inside))

/-- The reversal goes on, or has turned the whole batch. -/
theorem consumed_reverse {head reversed : Nat} (done rest : List Notice)
    (batch : shared.batch = rest.reverse ++ done) (captured : shared.batch ≠ [])
    (chain : Chain 0 shared.queue.next head (rest.map slotOf))
    (reversedChain : Chain 0 shared.queue.next reversed (done.map slotOf)) :
    PcFact shared .consumer (.run .pop (afterReverse head reversed)) := by
  rw [afterReverse]
  split
  · rename_i notNull
    exact ⟨done, rest, batch, notNull, chain, reversedChain⟩
  · rename_i null
    have none : rest = [] := by
      rw [Decidable.not_not.1 null] at chain
      exact List.map_eq_nil_iff.1 chain.eq_nil
    rw [none, List.reverse_nil, List.nil_append] at batch
    refine ⟨?_, by rw [batch]; exact reversedChain⟩
    intro equal
    rw [equal] at reversedChain
    rw [batch] at captured
    exact captured (List.map_eq_nil_iff.1 reversedChain.eq_nil)

/-- The first captured notice and its slot. -/
theorem Taking.first {index : Nat} (inv : shared.Inv) (taking : Taking shared index) :
    ∃ first rest, shared.batch = first :: rest ∧ slotOf first = index ∧
      Stored (shared.queue.slots index) first ∧ Queueable first ∧
      Chain 0 shared.queue.next shared.queue.consumer (rest.map slotOf) := by
  obtain ⟨first, rest, batch, same, chain⟩ := taking
  have inside : first ∈ shared.batch ++ shared.stack := by simp [batch]
  have stored := inv.stored first inside
  rw [same] at stored
  exact ⟨first, rest, batch, same, stored, inv.queueable first inside, chain⟩

/-- Each step of a pop. -/
theorem popStep_consumed (inv : shared.Inv) {stage : Stage}
    (fact : PopFact shared stage) : Consumed shared (popStep shared stage) := by
  cases stage with
  | loadConsumer =>
      rw [popStep]
      have settled : Settled shared := fact
      split
      · rename_i null
        have chain := settled
        rw [Settled, null] at chain
        exact .stay inv ⟨List.map_eq_nil_iff.1 chain.eq_nil, null⟩
      · rename_i notNull
        exact .stay inv ⟨notNull, settled⟩
  | peekHead =>
      obtain ⟨none, consumer⟩ := fact
      rw [popStep]
      split
      · rename_i null
        have settled : Settled shared := by
          rw [Settled, none, consumer]
          exact .nil
        apply Shared.consumed_event inv settled
        have nothing : shared.pending = [] := by
          rw [Shared.pending, none, inv.stack_eq_nil null]
          rfl
        rw [nothing]
        exact .empty _
      · rename_i notNull
        exact .stay inv ⟨none, consumer, inv.stack_ne_nil notNull⟩
  | swapHead =>
      obtain ⟨none, consumer, captured⟩ := fact
      have notNull : shared.queue.head.index ≠ 0 := by
        intro null
        exact captured (inv.stack_eq_nil null)
      have awake : shared.queue.head.sleeping = false := by
        rw [← Bool.not_eq_true]
        exact fun sleeping => notNull (inv.asleep sleeping)
      have batch : shared.swap.batch = shared.stack.reverse := by
        change shared.batch ++ shared.stack.reverse = _
        rw [none, List.nil_append]
      have step : popStep shared .swapHead =
          (shared.swap, .run .pop (.firstNext shared.queue.head.index)) := by
        rw [popStep]
        exact if_neg notNull
      rw [step]
      refine ⟨inv.swap awake, ⟨consumer, ?_, ?_⟩, Shared.swap_frame⟩
      · rw [batch]
        exact fun empty => captured (List.reverse_eq_nil_iff.1 empty)
      · rw [batch, List.reverse_reverse]
        exact inv.linked
  | firstNext index =>
      obtain ⟨consumer, captured, chain⟩ := fact
      have notNull : index ≠ 0 := by
        intro null
        rw [null] at chain
        exact captured (List.reverse_eq_nil_iff.1 (List.map_eq_nil_iff.1 chain.eq_nil))
      obtain ⟨rest, nodes, tail⟩ := chain.exists_cons notNull
      have member : index ∈ shared.batch.map slotOf := by
        have inside : index ∈ shared.batch.reverse.map slotOf := by
          rw [nodes]
          exact List.mem_cons_self ..
        rw [List.map_reverse] at inside
        exact List.mem_reverse.1 inside
      rw [popStep, withSlot_captured inv member]
      split
      · apply Consumed.stay inv
        exact consumed_reverse [] shared.batch.reverse (by simp) captured chain .nil
      · rename_i last
        -- A single captured notice is its own reversal.
        have single : shared.queue.next index = 0 := Decidable.not_not.1 last
        rw [single] at tail
        rw [tail.eq_nil] at nodes
        refine .stay inv ⟨notNull, ?_⟩
        have same : shared.batch.map slotOf = shared.batch.reverse.map slotOf := by
          rw [List.map_reverse] at nodes ⊢
          rw [nodes, ← List.reverse_reverse (shared.batch.map slotOf), nodes]
          rfl
        rw [same]
        exact chain
  | reverseLoad =>
      obtain ⟨done, rest, batch, notNull, chain, reversedChain⟩ := fact
      obtain ⟨nodes, equal, tail⟩ := chain.exists_cons notNull
      obtain ⟨node, others, rfl, rfl, rfl⟩ := List.map_eq_cons_iff.1 equal
      have member : slotOf node ∈ shared.batch.map slotOf := by
        rw [batch]
        exact List.mem_map_of_mem (by simp)
      rw [popStep, withSlot_captured inv member]
      exact .stay inv ⟨done, node, others, by simp [batch], rfl, tail, reversedChain⟩
  | reverseStore head next reversed =>
      obtain ⟨done, node, rest, batch, rfl, chain, reversedChain⟩ := fact
      have inside : node ∈ shared.batch := by simp [batch]
      have distinct := inv.batch_nodup
      rw [batch, List.map_append, List.map_cons, List.nodup_append, List.nodup_cons] at distinct
      obtain ⟨-, ⟨notDone, -⟩, apart⟩ := distinct
      have notRest : slotOf node ∉ rest.map slotOf := by
        intro member
        apply apart (slotOf node) ?_ (slotOf node) (List.mem_cons_self ..) rfl
        rw [List.map_reverse]
        exact List.mem_reverse.2 member
      refine ⟨inv.relink inside reversed, ?_, Shared.relink_frame inside reversed⟩
      apply consumed_reverse (node :: done) rest
      · exact batch
      · exact List.ne_nil_of_mem inside
      · apply chain.frame
        intro other member
        refine congrArg Slot.next (Shared.setSlot_ne _ _ ?_)
        rintro rfl
        exact notRest member
      · apply reversedChain.push node.route.nonzero
        · exact congrArg Slot.next (Shared.setSlot_self ..)
        · intro other member
          refine congrArg Slot.next (Shared.setSlot_ne _ _ ?_)
          rintro rfl
          exact notDone member
  | loadNext index =>
      obtain ⟨notNull, chain⟩ := fact
      obtain ⟨nodes, equal, tail⟩ := chain.exists_cons notNull
      obtain ⟨first, rest, batch, rfl, rfl⟩ := List.map_eq_cons_iff.1 equal
      rw [popStep, withSlot_captured inv (by rw [equal]; exact List.mem_cons_self ..)]
      exact .stay inv ⟨first, rest, batch, rfl, tail⟩
  | storeConsumer =>
      obtain ⟨first, rest, batch, same, chain⟩ := fact
      exact ⟨{ inv with }, ⟨first, rest, batch, same, chain⟩,
        fun _ => ⟨rfl, rfl, fun _ => rfl, fun absent => absent, fun queued => queued⟩⟩
  | loadSelection index =>
      obtain ⟨first, rest, batch, same, stored, -, chain⟩ := Taking.first inv fact
      rw [popStep, stored.selection, decodeSelection_encode]
      exact .stay inv ⟨fact, by simp [batch]⟩
  | loadWait =>
      obtain ⟨first, rest, batch, same, stored, -, chain⟩ := Taking.first inv fact.1
      have known := fact.2
      rw [batch] at known
      obtain ⟨generation_eq, cause_eq⟩ := known first rfl
      refine .stay inv ⟨fact.1, ?_⟩
      rw [batch]
      intro other member
      cases member
      rw [stored.wait, ← generation_eq]
      exact ⟨rfl, cause_eq⟩
  | loadTaskId index =>
      obtain ⟨first, rest, batch, same, stored, queueable, chain⟩ := Taking.first inv fact.1
      have known := fact.2
      rw [batch] at known
      obtain ⟨token_eq, cause_eq⟩ := known first rfl
      have notNull : index ≠ 0 := by
        rw [← same]
        exact first.route.nonzero
      rw [popStep]
      simp only [stored.task, queueable.task, notNull, ne_eq, not_false_eq_true, dite_true,
        if_false]
      refine .stay inv ⟨fact.1, ?_⟩
      rw [batch]
      intro other member
      cases member
      subst same
      rw [← token_eq, ← cause_eq]
  | release index notice =>
      obtain ⟨first, rest, batch, same, -, -, chain⟩ := Taking.first inv fact.1
      have known := fact.2
      rw [batch] at known
      cases known first rfl
      subst same
      have step : popStep shared (.release (slotOf notice) notice) =
          (shared.take notice, .rest (some (.pop, .popped (some notice)))) := rfl
      rw [step]
      refine ⟨inv.take batch, ?_, Shared.take_frame batch⟩
      have tail : (shared.take notice).batch = rest := congrArg List.tail batch
      change Settled (shared.take notice)
      rw [Settled, tail]
      apply chain.frame
      intro other member
      refine congrArg Slot.next (Shared.take_ne ?_)
      rintro rfl
      have distinct := inv.batch_nodup
      rw [batch, List.map_cons, List.nodup_cons] at distinct
      exact distinct.1 member
  | _ => exact fact.elim

end Pop

/-! ## Arming -/

section Arm

/-- The loop of `arm_wait` on the current head. -/
theorem armAfter_consumed (inv : shared.Inv) (settled : Settled shared)
    (none : shared.batch = []) : Consumed shared (armStep.armAfter shared) := by
  rw [armStep.armAfter]
  split
  · rename_i notNull
    apply Shared.consumed_event inv settled
    apply Mailbox.Step.ready
    rw [Shared.pending, none, List.nil_append]
    exact fun empty => inv.stack_ne_nil notNull (List.reverse_eq_nil_iff.1 empty)
  rename_i null
  have null : shared.queue.head.index = 0 := Decidable.not_not.1 null
  split
  · rename_i sleeping
    apply Shared.consumed_event inv settled
    have nothing : shared.pending = [] := by
      rw [Shared.pending, none, inv.stack_eq_nil null]
      rfl
    rw [nothing, sleeping]
    exact .arm true
  · exact .stay inv ⟨settled, none, null⟩

/-- Each step of `arm_wait`. -/
theorem armStep_consumed (inv : shared.Inv) (spurious : Bool) {stage : Stage}
    (fact : ArmFact shared stage) : Consumed shared (armStep spurious shared stage) := by
  cases stage with
  | armConsumer =>
      have settled : Settled shared := fact
      rw [armStep]
      split
      · rename_i notNull
        apply Shared.consumed_event inv settled
        apply Mailbox.Step.ready
        intro nothing
        have none : shared.batch = [] := (List.append_eq_nil_iff.1 nothing).1
        rw [Settled, none] at settled
        exact notNull (settled.head_eq_null_iff.2 rfl)
      · rename_i null
        have chain := settled
        rw [Settled, Decidable.not_not.1 null] at chain
        exact .stay inv ⟨settled, List.map_eq_nil_iff.1 chain.eq_nil⟩
  | armHead => exact armAfter_consumed inv fact.1 fact.2
  | armExchange head =>
      obtain ⟨settled, none, null⟩ := fact
      rw [armStep]
      split
      · rename_i exchanged
        have current : shared.queue.head.index = 0 := by
          rw [exchanged.1]
          exact null
        apply Shared.consumed_head inv settled current.symm (fun _ => rfl)
        have nothing : shared.pending = [] := by
          rw [Shared.pending, none, inv.stack_eq_nil current]
          rfl
        rw [nothing]
        exact .arm _
      · exact armAfter_consumed inv settled none
  | _ => exact fact.elim

/-- The step of `disarm_wait`. -/
theorem disarmStep_consumed (inv : shared.Inv) (settled : Settled shared) :
    Consumed shared (disarmStep shared .disarm) :=
  Shared.consumed_head inv settled rfl (fun sleeping => nomatch sleeping) (.disarm _ _)

end Arm

end VThread.Wake

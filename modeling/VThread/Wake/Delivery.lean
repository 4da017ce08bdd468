import VThread.Wake.Consumer

/-!
# Delivery by the wake queue

Every reachable state of the queue is that of a mailbox: pushed notices come out once, in
the order of their links, and the first link after the consumer armed itself rings.
-/

namespace VThread.Wake

open VThread.Lib VThread.Wait

variable {ι : Type}

/-- All interleavings of producers and the consumer. -/
abbrev queueSystem (ι : Type) [DecidableEq ι] : System (Threads (Party ι) (Shared ι) Pc) :=
  program.system

/-! ## The invariant in reachable states -/

section Reachable

variable {shared shared' : Shared ι} {party : Party ι} {pc pc' : Pc}

theorem consumer_step (inv : shared.Inv) (fact : PcFact shared .consumer pc)
    (advance : Advance (.consumer : Party ι) shared pc shared' pc') :
    Consumed shared (shared', pc') := by
  obtain ⟨choice, moved⟩ := advance
  cases pc with
  | rest last =>
      obtain ⟨allows, moved⟩ := moved
      have settled : Settled shared := fact
      rw [moved]
      cases called : choice.call with
      | push notice =>
          rw [called] at allows
          exact allows.elim
      | pop => exact .stay inv settled
      | armWait => exact .stay inv settled
      | disarmWait => exact .stay inv ⟨rfl, settled⟩
  | run call stage =>
      change (shared', pc') = _ at moved
      rw [moved]
      cases call with
      | push notice => exact fact.elim
      | pop => exact popStep_consumed inv fact
      | armWait => exact armStep_consumed inv choice.spurious fact
      | disarmWait =>
          obtain ⟨rfl, settled⟩ := fact
          exact disarmStep_consumed inv settled
  | panicked => exact moved.elim

theorem producer_step (inv : shared.Inv) {id : ι} (fact : PcFact shared (.producer id) pc)
    (advance : Advance (.producer id) shared pc shared' pc') :
    Produced id shared (shared', pc') := by
  obtain ⟨choice, moved⟩ := advance
  cases pc with
  | rest last =>
      obtain ⟨allows, moved⟩ := moved
      rw [moved]
      cases called : choice.call with
      | push notice =>
          rw [called] at allows
          exact startPush_produced inv allows
      | pop =>
          rw [called] at allows
          exact allows.elim
      | armWait =>
          rw [called] at allows
          exact allows.elim
      | disarmWait =>
          rw [called] at allows
          exact allows.elim
  | run call stage =>
      change (shared', pc') = _ at moved
      rw [moved]
      cases call with
      | push notice => exact pushStep_produced inv choice.spurious fact
      | pop => exact fact.elim
      | armWait => exact fact.elim
      | disarmWait => exact fact.elim
  | panicked => exact moved.elim

/-- A party's step leaves the others what they rely on. -/
theorem other_step (inv : shared.Inv) {other : Party ι} {otherPc : Pc} (ne : other ≠ party)
    (fact : PcFact shared party pc) (otherFact : PcFact shared other otherPc)
    (advance : Advance party shared pc shared' pc') : PcFact shared' other otherPc := by
  cases party with
  | consumer =>
      have consumed := consumer_step inv fact advance
      cases other with
      | consumer => exact (ne rfl).elim
      | producer =>
          exact ProducerFrame.pcFact otherFact fun notice _ _ => consumed.producers _
  | producer id =>
      have produced := producer_step inv fact advance
      cases other with
      | consumer => exact produced.consumer.pcFact otherFact
      | producer =>
          apply ProducerFrame.pcFact otherFact
          rintro notice stage rfl
          obtain ⟨pushing, -⟩ := otherFact
          apply produced.producers
          · simp [pushing]
          · rw [pushing]
            rintro ⟨⟩
            exact ne rfl

theorem initial_inv {capacity : Nat} {queue : WakeQueue}
    (created : WakeQueue.new capacity = .ok queue) :
    (⟨queue, [], [], fun _ => none, []⟩ : Shared ι).Inv ∧
      Settled (⟨queue, [], [], fun _ => none, []⟩ : Shared ι) := by
  simp only [WakeQueue.new, bind_eq_ok] at created
  obtain ⟨-, -, -, -, same⟩ := created
  cases same
  refine ⟨?_, .nil⟩
  exact {
    linked := .nil
    distinct := List.nodup_nil
    ranged := fun _ member => absurd member List.not_mem_nil
    queueable := fun _ member => absurd member List.not_mem_nil
    stored := fun _ member => absurd member List.not_mem_nil
    asleep := fun _ => rfl
    free := fun _ _ task => (task rfl).elim
    run := .nil }

/-- The invariant holds in every reachable state. -/
theorem reachable_inv [DecidableEq ι] {state : Threads (Party ι) (Shared ι) Pc}
    (reachable : (queueSystem ι).Reachable state) :
    state.shared.Inv ∧ ∀ party, PcFact state.shared party (state.locals party) := by
  refine @Program.invariant _ _ _ _ _ Shared.Inv (fun party shared pc => PcFact shared party pc)
    ?_ ?_ ?_ _ reachable
  · rintro shared ⟨capacity, queue, created, rfl⟩
    obtain ⟨inv, settled⟩ := initial_inv created
    refine ⟨inv, fun party => ?_⟩
    cases party with
    | consumer => exact settled
    | producer id => trivial
  · intro party shared pc shared' pc' inv fact advance
    cases party with
    | consumer =>
        have consumed := consumer_step inv fact advance
        exact ⟨consumed.inv, consumed.fact⟩
    | producer id =>
        have produced := producer_step inv fact advance
        exact ⟨produced.inv, produced.fact⟩
  · intro party other shared pc otherPc shared' pc' ne inv fact otherFact advance
    exact other_step inv ne fact otherFact advance

end Reachable

/-! ## Progress of a pop -/

/-- The nodes the consumer still meets from `head`. -/
def WakeQueue.left (queue : WakeQueue) (head : Nat) : Nat :=
  (walk 0 queue.next queue.count head).length

/-- A bound on the own steps left to a pop. -/
def popRank (queue : WakeQueue) : Stage → Nat
  | .loadConsumer => 2 * queue.count + 10
  | .peekHead => 2 * queue.count + 9
  | .swapHead => 2 * queue.count + 8
  | .firstNext index => 2 * queue.left index + 7
  | .reverseLoad head _ => 2 * queue.left head + 6
  | .reverseStore _ next _ => 2 * queue.left next + 7
  | .loadNext _ => 6
  | .storeConsumer _ _ => 5
  | .loadSelection _ => 4
  | .loadWait _ _ _ => 3
  | .loadTaskId _ _ _ => 2
  | .release _ _ => 1
  | _ => 0

section Rank

variable {shared shared' : Shared ι}

theorem walk_length_le {α : Type} [DecidableEq α] (null : α) (next : α → α) (fuel : Nat)
    (head : α) : (walk null next fuel head).length ≤ fuel := by
  induction fuel generalizing head with
  | zero => exact Nat.le_refl 0
  | succ fuel ih =>
      rw [walk]
      split
      · exact Nat.zero_le _
      · exact Nat.succ_le_succ (ih _)

/-- The consumer meets the captured notices only. -/
theorem Shared.Inv.left_eq (inv : shared.Inv) (queue : WakeQueue) {head : Nat}
    {notices : List Notice} (count : queue.count = shared.queue.count)
    (few : notices.length ≤ shared.batch.length)
    (chain : Chain 0 queue.next head (notices.map slotOf)) :
    queue.left head = notices.length := by
  have bounded : (shared.batch.map slotOf).length ≤ shared.queue.count := by
    apply length_le_of_nodup_lt inv.batch_nodup
    intro node member
    obtain ⟨notice, inside, rfl⟩ := List.mem_map.1 member
    exact inv.ranged notice (List.mem_append_left _ inside)
  rw [List.length_map] at bounded
  rw [WakeQueue.left, chain.walk_eq, List.length_map]
  rw [List.length_map, count]
  exact Nat.le_trans few bounded

theorem afterReverse_rank (queue : WakeQueue) (head reversed : Nat) :
    popRank queue (afterReverse head reversed) ≤ 2 * queue.left head + 6 := by
  rw [afterReverse]
  split
  · exact Nat.le_refl _
  · exact Nat.le_add_left _ _

/-- Each own step of a pop brings it closer to its end. -/
theorem popStep_rank (inv : shared.Inv) {stage : Stage} (fact : PopFact shared stage) :
    (∃ last, (popStep shared stage).2 = .rest last) ∨
      ∃ stage', (popStep shared stage).2 = .run .pop stage' ∧
        popRank (popStep shared stage).1.queue stage' < popRank shared.queue stage := by
  cases stage with
  | loadConsumer =>
      right
      rw [popStep]
      split
      · exact ⟨_, rfl, Nat.lt_succ_self _⟩
      · refine ⟨_, rfl, ?_⟩
        change 6 < 2 * shared.queue.count + 10
        omega
  | peekHead =>
      rw [popStep]
      split
      · exact .inl ⟨_, rfl⟩
      · exact .inr ⟨_, rfl, Nat.lt_succ_self _⟩
  | swapHead =>
      rw [popStep]
      split
      · exact .inl ⟨_, rfl⟩
      · refine .inr ⟨_, rfl, ?_⟩
        have few := walk_length_le 0 shared.queue.next shared.queue.count
          shared.queue.head.index
        change 2 * (walk 0 shared.queue.next shared.queue.count
          shared.queue.head.index).length + 7 < 2 * shared.queue.count + 8
        omega
  | firstNext index =>
      right
      obtain ⟨consumer, captured, chain⟩ := fact
      have notNull : index ≠ 0 := by
        intro null
        rw [null] at chain
        exact captured (List.reverse_eq_nil_iff.1 (List.map_eq_nil_iff.1 chain.eq_nil))
      obtain ⟨rest, nodes, -⟩ := chain.exists_cons notNull
      have member : index ∈ shared.batch.map slotOf := by
        have inside : index ∈ shared.batch.reverse.map slotOf := by
          rw [nodes]
          exact List.mem_cons_self ..
        rw [List.map_reverse] at inside
        exact List.mem_reverse.1 inside
      rw [popStep, withSlot_captured inv member]
      refine ⟨_, rfl, ?_⟩
      split
      · exact Nat.lt_succ_of_le (afterReverse_rank shared.queue index 0)
      · change 6 < 2 * shared.queue.left index + 7
        omega
  | reverseLoad =>
      right
      obtain ⟨done, rest, batch, notNull, chain, reversedChain⟩ := fact
      obtain ⟨nodes, equal, tail⟩ := chain.exists_cons notNull
      obtain ⟨node, others, rfl, rfl, rfl⟩ := List.map_eq_cons_iff.1 equal
      have few : (node :: others).length ≤ shared.batch.length := by simp [batch]
      have member : slotOf node ∈ shared.batch.map slotOf := by
        rw [batch]
        exact List.mem_map_of_mem (by simp)
      rw [popStep, withSlot_captured inv member]
      refine ⟨_, rfl, ?_⟩
      have longer := inv.left_eq shared.queue rfl few chain
      have shorter := inv.left_eq shared.queue rfl (Nat.le_trans (Nat.le_succ _) few) tail
      change 2 * shared.queue.left (shared.queue.next (slotOf node)) + 7 <
        2 * shared.queue.left (slotOf node) + 6
      rw [longer, shorter, List.length_cons]
      omega
  | reverseStore head next reversed =>
      right
      refine ⟨_, rfl, ?_⟩
      obtain ⟨done, node, rest, batch, rfl, chain, -⟩ := fact
      have few : rest.length ≤ shared.batch.length := by simp [batch]
      have distinct := inv.batch_nodup
      rw [batch, List.map_append, List.map_cons, List.nodup_append] at distinct
      obtain ⟨-, -, apart⟩ := distinct
      have relinked : Chain 0 (popStep shared
          (.reverseStore (slotOf node) next reversed)).1.queue.next next (rest.map slotOf) := by
        apply chain.frame
        intro other member
        refine congrArg Slot.next (Shared.setSlot_ne _ _ ?_)
        rintro rfl
        apply apart (slotOf node) ?_ (slotOf node) (List.mem_cons_self ..) rfl
        rw [List.map_reverse]
        exact List.mem_reverse.2 member
      have before := inv.left_eq shared.queue rfl few chain
      have after := inv.left_eq (popStep shared
          (.reverseStore (slotOf node) next reversed)).1.queue rfl few relinked
      have bound := afterReverse_rank (popStep shared
          (.reverseStore (slotOf node) next reversed)).1.queue next (slotOf node)
      rw [after, ← before] at bound
      exact Nat.lt_succ_of_le bound
  | loadNext index =>
      right
      obtain ⟨notNull, chain⟩ := fact
      obtain ⟨nodes, equal, -⟩ := chain.exists_cons notNull
      rw [popStep, withSlot_captured inv (by rw [equal]; exact List.mem_cons_self ..)]
      exact ⟨_, rfl, Nat.lt_succ_self _⟩
  | storeConsumer | loadWait => exact .inr ⟨_, rfl, Nat.lt_succ_self _⟩
  | loadSelection index =>
      right
      obtain ⟨first, rest, batch, same, stored, -, chain⟩ := Taking.first inv fact
      rw [popStep, stored.selection, decodeSelection_encode]
      exact ⟨_, rfl, Nat.lt_succ_self _⟩
  | loadTaskId index =>
      right
      obtain ⟨first, rest, batch, same, stored, queueable, chain⟩ := Taking.first inv fact.1
      have notNull : index ≠ 0 := by
        rw [← same]
        exact first.route.nonzero
      rw [popStep]
      simp only [stored.task, queueable.task, notNull, ne_eq, not_false_eq_true, dite_true,
        if_false]
      exact ⟨_, rfl, Nat.lt_succ_self _⟩
  | release => exact .inl ⟨_, rfl⟩
  | _ => exact fact.elim

/-- Producers keep the rest of a pop as it is. -/
theorem ConsumerFrame.rank (frame : ConsumerFrame shared shared') (inv : shared.Inv)
    {stage : Stage} (fact : PopFact shared stage) :
    popRank shared'.queue stage = popRank shared.queue stage := by
  have kept : ∀ {head} {notices : List Notice}, (∀ notice ∈ notices, notice ∈ shared.batch) →
      notices.length ≤ shared.batch.length →
      Chain 0 shared.queue.next head (notices.map slotOf) →
      shared'.queue.left head = shared.queue.left head := by
    intro head notices sub few chain
    rw [inv.left_eq shared.queue rfl few chain,
      inv.left_eq shared'.queue frame.count few (frame.chain sub chain)]
  cases stage with
  | loadConsumer | peekHead | swapHead => rw [popRank, popRank, frame.count]
  | firstNext index =>
      obtain ⟨-, -, chain⟩ := fact
      rw [popRank, popRank, kept (fun _ member => List.mem_reverse.1 member) (by simp) chain]
  | reverseLoad =>
      obtain ⟨done, rest, batch, -, chain, -⟩ := fact
      rw [popRank, popRank, kept (fun notice member => by simp [batch, member])
        (by simp [batch]) chain]
  | reverseStore =>
      obtain ⟨done, node, rest, batch, -, chain, -⟩ := fact
      rw [popRank, popRank, kept (fun notice member => by simp [batch, member])
        (by simp [batch]) chain]
  | _ => rfl

end Rank

/-! ## The law -/

section Law

/-- What the callers see of a returned call. -/
def returned : Call × Outcome → Option (MailboxEvent Notice)
  | (.push notice, .pushed sleeping) => some (.link notice sleeping)
  | (.pop, .popped (some notice)) => some (.pop notice)
  | (.pop, .popped none) => some .empty
  | (.armWait, .ready value) => some (.arm value)
  | (.disarmWait, .disarmed) => some .disarm
  | _ => none

/-- The event of a step that leads to `pc`. -/
def Pc.event : Pc → Option (MailboxEvent Notice)
  | .rest (some result) => returned result
  | _ => none

/-- What holds of the queue in one state. -/
structure Delivers (state : Threads (Party ι) (Shared ι) Pc) : Prop where
  /-- The callers saw a run of a mailbox that holds the queued notices. -/
  run : Mailbox.Run state.shared.trace
    ⟨state.shared.pending, state.shared.queue.head.sleeping⟩
  /-- Linked notices come out once and in order, or are still queued. -/
  fifo : state.shared.trace.filterMap MailboxEvent.linked =
    state.shared.trace.filterMap MailboxEvent.popped ++ state.shared.pending
  /-- The queue is found empty only when everything linked has come out. -/
  empty : ∀ before after, state.shared.trace = before ++ .empty :: after →
    before.filterMap MailboxEvent.linked = before.filterMap MailboxEvent.popped
  /-- Exactly the first link after an arming rings, unless a disarming came first. -/
  rings : ∀ before notice rang after,
    state.shared.trace = before ++ .link notice rang :: after →
    (rang = true ↔ Mailbox.Armed before)
  /-- The queued notices are the nodes of two chains without repetition, and each slot
  holds its notice. -/
  linked : Chain 0 state.shared.queue.next state.shared.queue.head.index
    (state.shared.stack.map slotOf)
  captured : ∀ last, state.locals .consumer = .rest last →
    Chain 0 state.shared.queue.next state.shared.queue.consumer
      (state.shared.batch.map slotOf)
  distinct : (state.shared.pending.map slotOf).Nodup
  stored : ∀ notice ∈ state.shared.pending, slotOf notice < state.shared.queue.count ∧
    Stored (state.shared.queue.slots (slotOf notice)) notice
  /-- No assertion fails. -/
  sound : ∀ party message, state.locals party ≠ .panicked message

/-- What one atomic step of `party` does. -/
structure DeliversStep (party : Party ι) (shared : Shared ι) (pc : Pc) (shared' : Shared ι)
    (pc' : Pc) : Prop where
  /-- The callers see what their calls return, when they return. -/
  returned : shared'.trace = shared.trace ++ pc'.event.toList
  /-- A push of a queued route, or out of range, is rejected. -/
  rejects : ∀ notice,
    pc = .run (.push notice) .loadTask →
      (∃ queued ∈ shared.pending, queued.route = notice.route) →
      pc' = .rest (some (.push notice, .rejected notice))
  /-- The start of a call leaves the queue as it is, and a push runs in range only. -/
  starts : ∀ last, pc = .rest last → shared'.queue = shared.queue ∧
    shared'.pending = shared.pending ∧
    ∀ notice stage, pc' = .run (.push notice) stage → slotOf notice < shared.queue.count
  /-- Nothing else is rejected, and a rejected push leaves the queue as it is. -/
  rejected : ∀ notice rejected, pc' = .rest (some (.push notice, .rejected rejected)) →
    rejected = notice ∧ shared'.queue = shared.queue ∧ shared'.pending = shared.pending ∧
      (shared.queue.count ≤ slotOf notice ∨
        ∃ queued ∈ shared.pending, queued.route = notice.route)
  /-- A pop ends after a bounded number of the consumer's own steps. -/
  progress : ∀ stage, party = .consumer → pc = .run .pop stage →
    (∃ last, pc' = .rest last) ∨
      ∃ stage', pc' = .run .pop stage' ∧ popRank shared'.queue stage' < popRank shared.queue stage

variable {shared : Shared ι}

/-- A step that returns nothing an event stands for. -/
theorem trace_unseen {trace : List (MailboxEvent Notice)} {pc : Pc} (unseen : pc.event = none) :
    trace = trace ++ pc.event.toList := by
  rw [unseen]
  exact (List.append_nil trace).symm

theorem pushStep_event (spurious : Bool) (notice : Notice) (stage : Stage) :
    (pushStep spurious shared notice stage).1.trace =
      shared.trace ++ (pushStep spurious shared notice stage).2.event.toList := by
  cases stage with
  | loadTask | storeSelection =>
      rw [pushStep]
      split
      · exact trace_unseen rfl
      · exact trace_unseen rfl
  | exchangeHead head =>
      rw [pushStep]
      split
      · rfl
      · exact trace_unseen rfl
  | _ => exact trace_unseen rfl

theorem withSlot_event (index : Nat) (stage : Slot → Stage) :
    (shared.queue.withSlot index (fun slot => (shared, .run .pop (stage slot))) shared).1.trace =
      shared.trace ++ (shared.queue.withSlot index
        (fun slot => (shared, .run .pop (stage slot))) shared).2.event.toList := by
  rw [WakeQueue.withSlot]
  split
  · exact trace_unseen rfl
  · exact trace_unseen rfl

theorem popStep_event (stage : Stage) :
    (popStep shared stage).1.trace = shared.trace ++ (popStep shared stage).2.event.toList := by
  cases stage with
  | loadConsumer | loadSelection =>
      rw [popStep]
      split
      · exact trace_unseen rfl
      · exact trace_unseen rfl
  | peekHead | swapHead =>
      rw [popStep]
      split
      · rfl
      · exact trace_unseen rfl
  | firstNext index => exact withSlot_event index _
  | reverseLoad head => exact withSlot_event head _
  | loadNext index => exact withSlot_event index _
  | loadTaskId =>
      rw [popStep]
      split
      · exact trace_unseen rfl
      split
      · exact trace_unseen rfl
      · exact trace_unseen rfl
  | release => rfl
  | _ => exact trace_unseen rfl

theorem armAfter_event :
    (armStep.armAfter shared).1.trace =
      shared.trace ++ (armStep.armAfter shared).2.event.toList := by
  rw [armStep.armAfter]
  split
  · rfl
  split
  · rfl
  · exact trace_unseen rfl

theorem armStep_event (spurious : Bool) (stage : Stage) :
    (armStep spurious shared stage).1.trace =
      shared.trace ++ (armStep spurious shared stage).2.event.toList := by
  cases stage with
  | armConsumer =>
      rw [armStep]
      split
      · rfl
      · exact trace_unseen rfl
  | armHead => exact armAfter_event
  | armExchange head =>
      rw [armStep]
      split
      · rfl
      · exact armAfter_event
  | _ => exact trace_unseen rfl

theorem disarmStep_event (stage : Stage) :
    (disarmStep shared stage).1.trace =
      shared.trace ++ (disarmStep shared stage).2.event.toList := by
  cases stage <;> first | rfl | exact trace_unseen rfl

theorem startCall_event (shared : Shared ι) (party : Party ι) (call : Call) :
    (startCall shared party call).1.trace =
      shared.trace ++ (startCall shared party call).2.event.toList := by
  cases party with
  | consumer => cases call <;> exact trace_unseen rfl
  | producer id =>
      cases call with
      | push notice =>
          rw [startCall]
          split
          · exact trace_unseen rfl
          · exact trace_unseen rfl
      | _ => exact trace_unseen rfl

/-- The trace is what the calls returned. -/
theorem advance_event {party : Party ι} {pc pc' : Pc} {shared' : Shared ι}
    (advance : Advance party shared pc shared' pc') :
    shared'.trace = shared.trace ++ pc'.event.toList := by
  obtain ⟨choice, moved⟩ := advance
  cases pc with
  | rest last =>
      have event := startCall_event shared party choice.call
      rw [← moved.2] at event
      exact event
  | run call stage =>
      change (shared', pc') = _ at moved
      have event : (advanceStage choice shared call stage).1.trace =
          shared.trace ++ (advanceStage choice shared call stage).2.event.toList := by
        cases call with
        | push notice => exact pushStep_event choice.spurious notice stage
        | pop => exact popStep_event stage
        | armWait => exact armStep_event choice.spurious stage
        | disarmWait => exact disarmStep_event stage
      rw [← moved] at event
      exact event
  | panicked => exact moved.elim

/-- A route is queued when its slot is a node. -/
theorem mem_nodes_iff {notice : Notice} :
    slotOf notice ∈ shared.nodes ↔ ∃ queued ∈ shared.pending, queued.route = notice.route := by
  rw [Shared.nodes, List.mem_map]
  constructor
  · rintro ⟨queued, member, same⟩
    refine ⟨queued, ?_, ?_⟩
    · rw [Shared.pending, List.mem_append, List.mem_reverse, ← List.mem_append]
      exact member
    · cases route : queued.route
      cases other : notice.route
      rw [slotOf, slotOf, route, other] at same
      cases same
      rfl
  · rintro ⟨queued, member, same⟩
    refine ⟨queued, ?_, congrArg TaskKey.encoded same⟩
    rw [Shared.pending, List.mem_append, List.mem_reverse, ← List.mem_append] at member
    exact member

/-- A step of a push that returns it rejected. -/
theorem pushStep_rejected (spurious : Bool) {notice other rejected : Notice} {stage : Stage}
    (step : (pushStep spurious shared notice stage).2 =
      .rest (some (.push other, .rejected rejected))) :
    stage = .loadTask ∧ other = notice ∧ rejected = notice ∧
      (shared.queue.slots (slotOf notice)).task ≠ 0 ∧
      (pushStep spurious shared notice stage).1 = shared.leave (slotOf notice) := by
  cases stage with
  | loadTask =>
      rw [pushStep] at step ⊢
      split at step
      · rename_i busy
        cases step
        exact ⟨rfl, rfl, rfl, busy, by rw [if_pos busy]⟩
      · cases step
  | storeSelection | exchangeHead =>
      rw [pushStep] at step
      split at step
      · cases step
      · cases step
  | _ => cases step

/-- The consumer's calls return as themselves. -/
theorem popStep_call {stage : Stage} {call : Call} {outcome : Outcome}
    (step : (popStep shared stage).2 = .rest (some (call, outcome))) : call = .pop := by
  have slots : ∀ index (next : Slot → Stage),
      (shared.queue.withSlot index (fun slot => (shared, .run .pop (next slot))) shared).2 ≠
        .rest (some (call, outcome)) := by
    intro index next
    rw [WakeQueue.withSlot]
    split <;> exact fun same => nomatch same
  cases stage with
  | firstNext index => exact (slots index _ step).elim
  | reverseLoad head => exact (slots head _ step).elim
  | loadNext index => exact (slots index _ step).elim
  | release =>
      cases step
      rfl
  | loadTaskId =>
      rw [popStep] at step
      split at step
      · cases step
      split at step
      · cases step
      · cases step
  | loadConsumer | loadSelection =>
      rw [popStep] at step
      split at step
      · cases step
      · cases step
  | peekHead | swapHead =>
      rw [popStep] at step
      split at step
      · cases step
        rfl
      · cases step
  | _ => cases step

theorem armStep_call {spurious : Bool} {stage : Stage} {call : Call} {outcome : Outcome}
    (step : (armStep spurious shared stage).2 = .rest (some (call, outcome))) :
    call = .armWait := by
  have again : (armStep.armAfter shared).2 = .rest (some (call, outcome)) →
      call = .armWait := by
    intro step
    rw [armStep.armAfter] at step
    split at step
    · cases step
      rfl
    split at step
    · cases step
      rfl
    · cases step
  cases stage with
  | armConsumer =>
      rw [armStep] at step
      split at step
      · cases step
        rfl
      · cases step
  | armHead => exact again step
  | armExchange head =>
      rw [armStep] at step
      split at step
      · cases step
        rfl
      · exact again step
  | _ => cases step

variable [DecidableEq ι] {state : Threads (Party ι) (Shared ι) Pc}

theorem reachable_delivers (reachable : (queueSystem ι).Reachable state) : Delivers state := by
  obtain ⟨inv, facts⟩ := reachable_inv reachable
  have pendingNodes : (state.shared.pending.map slotOf).Perm state.shared.nodes :=
    ((List.reverse_perm _).append_left _).map slotOf
  constructor
  · exact inv.run
  · exact inv.run.linked_eq
  · intro before after trace
    have run := inv.run
    rw [trace] at run
    exact run.empty_eq
  · intro before notice rang after trace
    have run := inv.run
    rw [trace] at run
    exact run.rings
  · exact inv.linked
  · intro last rest
    have settled := facts .consumer
    rw [rest] at settled
    exact settled
  · exact pendingNodes.nodup_iff.2 inv.distinct
  · intro notice member
    rw [Shared.pending, List.mem_append, List.mem_reverse, ← List.mem_append] at member
    exact ⟨inv.ranged notice member, inv.stored notice member⟩
  · intro party message panicked
    have fact := facts party
    rw [panicked] at fact
    cases party <;> exact fact

theorem reachable_deliversStep (reachable : (queueSystem ι).Reachable state) {party : Party ι}
    {shared' : Shared ι} {pc' : Pc}
    (advance : Advance party state.shared (state.locals party) shared' pc') :
    DeliversStep party state.shared (state.locals party) shared' pc' := by
  obtain ⟨inv, facts⟩ := reachable_inv reachable
  have fact := facts party
  have event := advance_event advance
  obtain ⟨choice, moved⟩ := advance
  constructor
  · exact event
  · intro notice running queued
    rw [running] at moved fact
    cases party with
    | consumer => exact fact.elim
    | producer id =>
        change (shared', pc') = pushStep choice.spurious state.shared notice .loadTask at moved
        have busy : (state.shared.queue.slots (slotOf notice)).task ≠ 0 := by
          obtain ⟨other, member, same⟩ := queued
          rw [Shared.pending, List.mem_append, List.mem_reverse, ← List.mem_append] at member
          have stored := inv.stored other member
          rw [show slotOf other = slotOf notice from congrArg TaskKey.encoded same] at stored
          rw [stored.task]
          exact (inv.queueable other member).task
        rw [pushStep, if_pos busy] at moved
        exact congrArg Prod.snd moved
  · intro last resting
    rw [resting] at moved
    obtain ⟨allows, moved⟩ := moved
    cases party with
    | consumer =>
        cases called : choice.call with
        | push notice =>
            rw [called] at allows
            exact allows.elim
        | _ =>
            rw [called] at moved
            cases moved
            exact ⟨rfl, rfl, fun _ _ running => by cases running⟩
    | producer id =>
        cases called : choice.call with
        | push notice =>
            rw [called, startCall] at moved
            split at moved
            · rename_i ranged
              cases moved
              refine ⟨rfl, rfl, fun other stage running => ?_⟩
              cases running
              exact ranged
            · cases moved
              exact ⟨rfl, rfl, fun _ _ running => by cases running⟩
        | _ =>
            rw [called] at allows
            exact allows.elim
  · intro notice rejected returned
    cases pc : state.locals party with
    | panicked =>
        rw [pc] at moved
        exact moved.elim
    | rest last =>
        rw [pc] at moved
        obtain ⟨allows, moved⟩ := moved
        have ended := congrArg Prod.snd moved
        rw [returned] at ended
        cases party with
        | consumer => cases called : choice.call <;> rw [called] at ended <;> cases ended
        | producer id =>
            cases called : choice.call with
            | push other =>
                rw [called, startCall] at moved ended
                split at ended
                · cases ended
                · rename_i unranged
                  rw [if_neg unranged] at moved
                  cases ended
                  cases moved
                  exact ⟨rfl, rfl, rfl, .inl (Nat.le_of_not_lt unranged)⟩
            | _ =>
                rw [called] at allows
                exact allows.elim
    | run call stage =>
        rw [pc] at moved fact
        change (shared', pc') = _ at moved
        have ended := congrArg Prod.snd moved
        rw [returned] at ended
        cases call with
        | pop => cases popStep_call ended.symm
        | armWait => cases armStep_call ended.symm
        | disarmWait => cases stage <;> cases ended
        | push other =>
            obtain ⟨rfl, rfl, rfl, busy, left⟩ := pushStep_rejected choice.spurious ended.symm
            have shared_eq := (congrArg Prod.fst moved).trans left
            change shared' = _ at shared_eq
            refine ⟨rfl, by rw [shared_eq]; rfl, by rw [shared_eq]; rfl, .inr ?_⟩
            cases party with
            | consumer => exact fact.elim
            | producer id => exact mem_nodes_iff.1 (fact.2.2.2 busy)
  · rintro stage rfl running
    rw [running] at moved fact
    change (shared', pc') = popStep state.shared stage at moved
    have progress := popStep_rank inv fact
    rw [← moved] at progress
    exact progress

/-- In every interleaving of producers and the consumer, the queue delivers every linked notice
once, equal to the pushed one and in the order of the links; it rejects exactly the pushes
out of range or of a queued route; its chains stay free of repetition; and exactly the first
link after an arming rings. -/
theorem wake_queue_delivers (reachable : (queueSystem ι).Reachable state) :
    Delivers state ∧
    (∀ party shared' pc',
      Advance party state.shared (state.locals party) shared' pc' →
        DeliversStep party state.shared (state.locals party) shared' pc') ∧
    (∀ id notice, state.shared.queue.count ≤ slotOf notice →
      startCall state.shared (.producer id) (.push notice) =
        (state.shared, .rest (some (.push notice, .rejected notice)))) ∧
    ∀ party stage shared' pc', state.locals .consumer = .run .pop stage → party ≠ .consumer →
      Advance party state.shared (state.locals party) shared' pc' →
        popRank shared'.queue stage = popRank state.shared.queue stage := by
  refine ⟨reachable_delivers reachable, fun _ _ _ => reachable_deliversStep reachable, ?_, ?_⟩
  · intro id notice unranged
    rw [startCall, if_neg (Nat.not_lt.2 unranged)]
  · intro party stage shared' pc' running foreign advance
    obtain ⟨inv, facts⟩ := reachable_inv reachable
    have fact := facts .consumer
    rw [running] at fact
    cases party with
    | consumer => exact (foreign rfl).elim
    | producer id =>
        exact (producer_step inv (facts (.producer id)) advance).consumer.rank inv fact

/-! ## A run -/

instance decidableAllows (shared : Shared ι) (party : Party ι) (call : Call) :
    Decidable (shared.Allows party call) :=
  match party, call with
  | .producer _, .push notice =>
      inferInstanceAs (Decidable (shared.pushing notice.route.encoded = none ∧
        notice.task ≠ 0 ∧ notice.token.generation ≤ maxQueued))
  | .producer _, .pop | .producer _, .armWait | .producer _, .disarmWait =>
      inferInstanceAs (Decidable False)
  | .consumer, .push _ => inferInstanceAs (Decidable False)
  | .consumer, .pop | .consumer, .armWait | .consumer, .disarmWait =>
      inferInstanceAs (Decidable True)

/-- The atomic step of a party for a choice. -/
def nextStep (party : Party ι) (choice : Choice) (shared : Shared ι) :
    Pc → Option (Shared ι × Pc)
  | .rest _ => if shared.Allows party choice.call then
      some (startCall shared party choice.call) else none
  | .run call stage => some (advanceStage choice shared call stage)
  | .panicked _ => none

def scheduler (ι : Type) [DecidableEq ι] :
    (program : Program (Party ι) (Shared ι) Pc).Scheduler Choice where
  next := nextStep
  sound := by
    intro party choice shared pc result taken
    refine ⟨choice, ?_⟩
    cases pc with
    | rest last =>
        rw [nextStep] at taken
        split at taken
        · rename_i allows
          cases taken
          exact ⟨allows, rfl⟩
        · cases taken
    | run =>
        cases taken
        rfl
    | panicked => cases taken

/-- A new queue for three tasks. -/
def fresh : Threads (Party ι) (Shared ι) Pc :=
  ⟨⟨⟨8, fun _ => .new, ⟨0, false⟩, 0⟩, [], [], fun _ => none, []⟩, fun _ => .rest none⟩

def sample (route generation : Nat) (nonzero : route ≠ 0) : Notice :=
  ⟨⟨9, generation⟩, 7, ⟨route, nonzero⟩, .timedOut⟩

abbrev Schedule := List (Party Bool × Choice)

/-- Two pushes whose links are in the order opposite to their starts, while the consumer
arms itself, and one pop of the captured batch. -/
def overtakingSchedule : Schedule :=
  (List.replicate 4 (.consumer, ⟨.armWait, false⟩) : Schedule) ++
    (List.replicate 6 (.producer false, ⟨.push (sample 2 4 (by decide)), false⟩) : Schedule) ++
    (List.replicate 8 (.producer true, ⟨.push (sample 5 1 (by decide)), false⟩) : Schedule) ++
    (List.replicate 4 (.producer false, ⟨.push (sample 2 4 (by decide)), false⟩) : Schedule) ++
    (List.replicate 15 (.consumer, ⟨.pop, false⟩) : Schedule)

theorem wake_queue_delivers_overtaking :
    ∃ state, (scheduler Bool).run overtakingSchedule fresh = some state ∧
      state.locals .consumer = .rest (some (.pop, .popped (some (sample 5 1 (by decide))))) ∧
      state.shared.pending = [sample 2 4 (by decide)] ∧ Delivers state := by
  have runs : ((scheduler Bool).run overtakingSchedule fresh).map
      (fun state => (state.locals .consumer, state.shared.pending)) =
        some (.rest (some (.pop, .popped (some (sample 5 1 (by decide))))),
          [sample 2 4 (by decide)]) := by decide
  obtain ⟨state, runs, view⟩ := Option.map_eq_some_iff.1 runs
  have start : (queueSystem Bool).Reachable fresh := .initial ⟨⟨3, _, rfl, rfl⟩, fun _ => rfl⟩
  have reachable := (scheduler Bool).run_reachable start runs
  exact ⟨state, runs, congrArg Prod.fst view, congrArg Prod.snd view,
    (wake_queue_delivers reachable).1⟩

end Law

end VThread.Wake

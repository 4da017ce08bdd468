import VThread.Wake.Queue

/-!
# The invariant of the wake queue

The queued notices are exactly the nodes of the two chains in memory, and the callers'
events form a run of a mailbox that holds them.
-/

namespace VThread.Wake

open VThread.Lib VThread.Wait

variable {ι : Type}

/-- The slot of a notice. -/
abbrev slotOf (notice : Notice) : Nat := notice.route.encoded

/-- The slots of queued notices. -/
def Shared.nodes (shared : Shared ι) : List Nat := (shared.batch ++ shared.stack).map slotOf

/-- The links of the slots. -/
abbrev WakeQueue.next (queue : WakeQueue) (index : Nat) : Nat := (queue.slots index).next

/-- A notice that can be queued. -/
structure Queueable (notice : Notice) : Prop where
  task : notice.task ≠ 0
  generation : notice.token.generation ≤ maxQueued

/-- The words of a notice in its slot. -/
structure Stored (slot : Slot) (notice : Notice) : Prop where
  task : slot.task = notice.task
  wait : slot.wait = notice.token.wait
  selection : slot.selection = notice.token.generation * 8 + causeCode notice.cause

structure Shared.Inv (shared : Shared ι) : Prop where
  linked : Chain 0 shared.queue.next shared.queue.head.index (shared.stack.map slotOf)
  distinct : shared.nodes.Nodup
  ranged : ∀ notice ∈ shared.batch ++ shared.stack, slotOf notice < shared.queue.count
  queueable : ∀ notice ∈ shared.batch ++ shared.stack, Queueable notice
  stored : ∀ notice ∈ shared.batch ++ shared.stack,
    Stored (shared.queue.slots (slotOf notice)) notice
  asleep : shared.queue.head.sleeping = true → shared.queue.head.index = 0
  free : ∀ index, shared.pushing index = none → (shared.queue.slots index).task ≠ 0 →
    index ∈ shared.nodes
  run : Mailbox.Run shared.trace ⟨shared.pending, shared.queue.head.sleeping⟩

section Facts

variable (shared : Shared ι)

/-- What holds at each stage of a push. -/
def PushFact (notice : Notice) : Stage → Prop
  | .loadTask => (shared.queue.slots (slotOf notice)).task ≠ 0 → slotOf notice ∈ shared.nodes
  | .storeTask => slotOf notice ∉ shared.nodes
  | .storeWait => slotOf notice ∉ shared.nodes ∧
      (shared.queue.slots (slotOf notice)).task = notice.task
  | .storeSelection => slotOf notice ∉ shared.nodes ∧
      (shared.queue.slots (slotOf notice)).task = notice.task ∧
      (shared.queue.slots (slotOf notice)).wait = notice.token.wait
  | .loadHead | .storeNext _ => slotOf notice ∉ shared.nodes ∧
      Stored (shared.queue.slots (slotOf notice)) notice
  | .exchangeHead head => slotOf notice ∉ shared.nodes ∧
      Stored (shared.queue.slots (slotOf notice)) notice ∧
      (shared.queue.slots (slotOf notice)).next = head.index
  | _ => False

/-- The consumer's notices, as its cursor reaches them between calls. -/
def Settled : Prop :=
  Chain 0 shared.queue.next shared.queue.consumer (shared.batch.map slotOf)

/-- The consumer has taken the first notice off its chain. -/
def Taking (index : Nat) : Prop :=
  ∃ first rest, shared.batch = first :: rest ∧ slotOf first = index ∧
    Chain 0 shared.queue.next shared.queue.consumer (rest.map slotOf)

/-- What holds at each stage of a pop. -/
def PopFact : Stage → Prop
  | .loadConsumer => Settled shared
  | .peekHead => shared.batch = [] ∧ shared.queue.consumer = 0
  | .swapHead => shared.batch = [] ∧ shared.queue.consumer = 0 ∧ shared.stack ≠ []
  | .firstNext index => shared.queue.consumer = 0 ∧ shared.batch ≠ [] ∧
      Chain 0 shared.queue.next index (shared.batch.reverse.map slotOf)
  | .reverseLoad head reversed => ∃ done rest : List Notice, shared.batch = rest.reverse ++ done ∧
      head ≠ 0 ∧ Chain 0 shared.queue.next head (rest.map slotOf) ∧
      Chain 0 shared.queue.next reversed (done.map slotOf)
  | .reverseStore head next reversed => ∃ (done : List Notice) (node : Notice) (rest : List Notice),
      shared.batch = rest.reverse ++ node :: done ∧ slotOf node = head ∧
      Chain 0 shared.queue.next next (rest.map slotOf) ∧
      Chain 0 shared.queue.next reversed (done.map slotOf)
  | .loadNext index => index ≠ 0 ∧
      Chain 0 shared.queue.next index (shared.batch.map slotOf)
  | .storeConsumer index next => ∃ first rest, shared.batch = first :: rest ∧
      slotOf first = index ∧ Chain 0 shared.queue.next next (rest.map slotOf)
  | .loadSelection index => Taking shared index
  | .loadWait index generation cause => Taking shared index ∧
      ∀ first ∈ shared.batch.head?, first.token.generation = generation ∧ first.cause = cause
  | .loadTaskId index token cause => Taking shared index ∧
      ∀ first ∈ shared.batch.head?, first.token = token ∧ first.cause = cause
  | .release index notice => Taking shared index ∧ ∀ first ∈ shared.batch.head?, first = notice
  | _ => False

/-- What holds at each stage of `arm_wait`. -/
def ArmFact : Stage → Prop
  | .armConsumer => Settled shared
  | .armHead => Settled shared ∧ shared.batch = []
  | .armExchange head => Settled shared ∧ shared.batch = [] ∧ head.index = 0
  | _ => False

/-- What holds for a party. -/
def PcFact : Party ι → Pc → Prop
  | .consumer, .rest _ => Settled shared
  | .consumer, .run .pop stage => PopFact shared stage
  | .consumer, .run .armWait stage => ArmFact shared stage
  | .consumer, .run .disarmWait stage => stage = .disarm ∧ Settled shared
  | .producer _, .rest _ => True
  | .producer id, .run (.push notice) stage =>
      shared.pushing (slotOf notice) = some id ∧ slotOf notice < shared.queue.count ∧
        Queueable notice ∧ PushFact shared notice stage
  | _, _ => False

end Facts

/-! ## What others leave alone -/

/-- The consumer's part of the queue. -/
structure ConsumerFrame (shared shared' : Shared ι) : Prop where
  batch : shared'.batch = shared.batch
  count : shared'.queue.count = shared.queue.count
  consumer : shared'.queue.consumer = shared.queue.consumer
  next : ∀ notice ∈ shared.batch,
    shared'.queue.next (slotOf notice) = shared.queue.next (slotOf notice)
  stack : shared.stack ≠ [] → shared'.stack ≠ []

/-- A producer's part of the queue. -/
structure ProducerFrame (index : Nat) (shared shared' : Shared ι) : Prop where
  pushing : shared'.pushing index = shared.pushing index
  count : shared'.queue.count = shared.queue.count
  slot : index ∉ shared.nodes → shared'.queue.slots index = shared.queue.slots index
  nodes : index ∉ shared.nodes → index ∉ shared'.nodes
  queued : ((shared.queue.slots index).task ≠ 0 → index ∈ shared.nodes) →
    (shared'.queue.slots index).task ≠ 0 → index ∈ shared'.nodes

namespace ConsumerFrame

variable {shared shared' : Shared ι}

theorem chain (frame : ConsumerFrame shared shared') {head : Nat} {notices : List Notice}
    (sub : ∀ notice ∈ notices, notice ∈ shared.batch)
    (chain : Chain 0 shared.queue.next head (notices.map slotOf)) :
    Chain 0 shared'.queue.next head (notices.map slotOf) := by
  apply chain.frame
  intro node member
  obtain ⟨notice, inside, rfl⟩ := List.mem_map.1 member
  exact frame.next notice (sub notice inside)

theorem settled (frame : ConsumerFrame shared shared') (fact : Settled shared) :
    Settled shared' := by
  rw [Settled, frame.batch, frame.consumer]
  exact frame.chain (fun _ member => member) fact

theorem taking (frame : ConsumerFrame shared shared') {index : Nat}
    (fact : Taking shared index) : Taking shared' index := by
  obtain ⟨first, rest, batch, same, chain⟩ := fact
  refine ⟨first, rest, frame.batch.trans batch, same, ?_⟩
  rw [frame.consumer]
  exact frame.chain (fun notice member => by simp [batch, member]) chain

theorem popFact (frame : ConsumerFrame shared shared') {stage : Stage}
    (fact : PopFact shared stage) : PopFact shared' stage := by
  cases stage with
  | loadConsumer => exact frame.settled fact
  | peekHead => exact ⟨frame.batch.trans fact.1, frame.consumer.trans fact.2⟩
  | swapHead =>
      exact ⟨frame.batch.trans fact.1, frame.consumer.trans fact.2.1, frame.stack fact.2.2⟩
  | firstNext index =>
      obtain ⟨consumer, captured, chain⟩ := fact
      refine ⟨frame.consumer.trans consumer, by rwa [frame.batch], ?_⟩
      rw [frame.batch]
      exact frame.chain (fun _ member => List.mem_reverse.1 member) chain
  | reverseLoad =>
      obtain ⟨done, rest, batch, notNull, chain, reversedChain⟩ := fact
      refine ⟨done, rest, frame.batch.trans batch, notNull, ?_, ?_⟩
      · exact frame.chain (fun notice member => by simp [batch, member]) chain
      · exact frame.chain (fun notice member => by simp [batch, member]) reversedChain
  | reverseStore =>
      obtain ⟨done, node, rest, batch, same, chain, reversedChain⟩ := fact
      refine ⟨done, node, rest, frame.batch.trans batch, same, ?_, ?_⟩
      · exact frame.chain (fun notice member => by simp [batch, member]) chain
      · exact frame.chain (fun notice member => by simp [batch, member]) reversedChain
  | loadNext index =>
      refine ⟨fact.1, ?_⟩
      rw [frame.batch]
      exact frame.chain (fun _ member => member) fact.2
  | storeConsumer =>
      obtain ⟨first, rest, batch, same, chain⟩ := fact
      exact ⟨first, rest, frame.batch.trans batch, same,
        frame.chain (fun notice member => by simp [batch, member]) chain⟩
  | loadSelection index => exact frame.taking fact
  | loadWait | loadTaskId | release =>
      exact ⟨frame.taking fact.1, by rw [frame.batch]; exact fact.2⟩
  | _ => exact fact.elim

theorem armFact (frame : ConsumerFrame shared shared') {stage : Stage}
    (fact : ArmFact shared stage) : ArmFact shared' stage := by
  cases stage with
  | armConsumer => exact frame.settled fact
  | armHead => exact ⟨frame.settled fact.1, frame.batch.trans fact.2⟩
  | armExchange head =>
      exact ⟨frame.settled fact.1, frame.batch.trans fact.2.1, fact.2.2⟩
  | _ => exact fact.elim

/-- The consumer relies on its part only. -/
theorem pcFact (frame : ConsumerFrame shared shared') {pc : Pc}
    (fact : PcFact shared .consumer pc) : PcFact shared' .consumer pc := by
  cases pc with
  | rest last => exact frame.settled fact
  | panicked => exact fact
  | run call stage =>
      cases call with
      | push notice => exact fact
      | pop => exact frame.popFact fact
      | armWait => exact frame.armFact fact
      | disarmWait => exact ⟨fact.1, frame.settled fact.2⟩

end ConsumerFrame

namespace ProducerFrame

variable {shared shared' : Shared ι}

theorem pushFact {notice : Notice} (frame : ProducerFrame (slotOf notice) shared shared')
    {stage : Stage} (fact : PushFact shared notice stage) : PushFact shared' notice stage := by
  cases stage with
  | loadTask => exact frame.queued fact
  | storeTask => exact frame.nodes fact
  | storeWait | storeSelection | loadHead | storeNext | exchangeHead =>
      refine ⟨frame.nodes fact.1, ?_⟩
      rw [frame.slot fact.1]
      exact fact.2
  | _ => exact fact.elim

/-- A producer relies on its slot only. -/
theorem pcFact {id : ι} {pc : Pc} (fact : PcFact shared (.producer id) pc)
    (frame : ∀ notice stage, pc = .run (.push notice) stage →
      ProducerFrame (slotOf notice) shared shared') :
    PcFact shared' (.producer id) pc := by
  cases pc with
  | rest last => trivial
  | panicked => exact fact
  | run call stage =>
      cases call with
      | push notice =>
          have frame := frame notice stage rfl
          obtain ⟨pushing, ranged, queueable, pushFact⟩ := fact
          refine ⟨frame.pushing.trans pushing, ?_, queueable, frame.pushFact pushFact⟩
          rw [frame.count]
          exact ranged
      | pop => exact fact
      | armWait => exact fact
      | disarmWait => exact fact

end ProducerFrame

end VThread.Wake

import VThread.Kernel.Discarding

/-!
# Tasks that have not started

An abort drops the packets of its scope before it looks at started tasks, and local starts
become runnable whatever their scope is.
-/

namespace VThread.Kernel

open VThread.Lib VThread.Carrier VThread.Ready VThread.Wait

/-- Only the queued starts of an inbox have changed. -/
def OnlyStarts (inbox inbox' : Inbox) : Prop :=
  ∃ starts pendingStarts,
    inbox' = { inbox with state := { inbox.state with starts }, pendingStarts }

theorem OnlyStarts.refl (inbox : Inbox) : OnlyStarts inbox inbox := ⟨_, _, rfl⟩

theorem OnlyStarts.trans {first second third : Inbox} (before : OnlyStarts first second)
    (after : OnlyStarts second third) : OnlyStarts first third := by
  obtain ⟨_, _, rfl⟩ := before
  obtain ⟨_, _, rfl⟩ := after
  exact ⟨_, _, rfl⟩

namespace World

variable {running : Option TaskKey} {world : World} {scope : Option Nat} {reason : TaskFailure}

/-! ## Packets -/

/-- What a failure publishes for some packets. -/
def failed (reason : TaskFailure) (packets : List SpawnPacket) :
    List (Nat × Option TaskFailure) := packets.map fun packet => (packet.task, some reason)

theorem discardPending_eq {packet : SpawnPacket} (there : world.pending = some packet) :
    world.discardPending reason = .ok { world with
      pending := none
      retained := world.retained + 1
      outcomes := world.outcomes ++ [(packet.task, some reason)] } := by
  rw [discardPending, there, expect_some, ok_bind]
  rfl

/-- The batch keeps its packets of other scopes, in their order. -/
theorem discardIncoming_eq {todo kept : List SpawnPacket} (idle : world.pending = none)
    (batch : world.incoming = todo ++ kept) :
    world.discardIncoming scope reason todo.length = .ok { world with
      incoming := kept ++ todo.filter (!inScope scope ·.scope)
      retained := world.retained + (todo.filter (inScope scope ·.scope)).length
      outcomes := world.outcomes ++ failed reason (todo.filter (inScope scope ·.scope)) } := by
  induction todo generalizing world kept with
  | nil =>
      have same : kept = world.incoming := batch.symm
      subst same
      simp [discardIncoming, failed, pure, Except.pure]
  | cons packet todo ih =>
      rw [List.length_cons, discardIncoming, batch, List.cons_append]
      dsimp only
      cases member : inScope scope packet.scope with
      | true =>
          rw [if_pos rfl, discardPending_eq rfl, ok_bind, ih rfl rfl]
          simp [member, failed, idle, Nat.add_assoc, Nat.add_comm 1]
      | false =>
          rw [if_neg (by simp), @ih { world with incoming := todo ++ kept ++ [packet] }
            (kept ++ [packet]) idle (by simp)]
          simp [member]

/-- The inbox keeps its packets of other scopes, in their order. -/
theorem discardInbox_eq (count : Nat) (idle : world.pending = none)
    (enough : (world.inbox.state.starts.filter (inScope scope ·.scope)).length ≤ count) :
    ∃ inbox, world.discardInbox scope reason count = .ok { world with
        inbox
        retained := world.retained +
          (world.inbox.state.starts.filter (inScope scope ·.scope)).length
        outcomes := world.outcomes ++
          failed reason (world.inbox.state.starts.filter (inScope scope ·.scope)) } ∧
      inbox.state.starts = world.inbox.state.starts.filter (!inScope scope ·.scope) ∧
      OnlyStarts world.inbox inbox := by
  induction count generalizing world with
  | zero =>
      have none : NoMatch (inScope scope ·.scope) world.inbox.state.starts := by
        intro packet member
        have empty := List.eq_nil_of_length_eq_zero (Nat.le_zero.mp enough)
        simpa using List.filter_eq_nil_iff.mp empty packet member
      refine ⟨world.inbox, ?_, none.keep.symm, .refl _⟩
      simp [discardInbox, none.filter, failed, pure, Except.pure]
  | succ count ih =>
      rw [discardInbox]
      rcases first_match (inScope scope ·.scope) world.inbox.state.starts with
        none | ⟨before, packet, after, same, none, matched⟩
      · have absent : world.inbox.state.starts.find? (inScope scope ·.scope) = .none :=
          List.find?_eq_none.mpr fun packet member => by simp [none packet member]
        rw [absent]
        refine ⟨world.inbox, ?_, none.keep.symm, .refl _⟩
        simp [none.filter, failed, pure, Except.pure]
      · have found : world.inbox.state.starts.find? (inScope scope ·.scope) = some packet := by
          have missing : before.find? (inScope scope ·.scope) = .none :=
            List.find?_eq_none.mpr fun packet member => by simp [none packet member]
          simp [same, List.find?_append, missing, matched]
        have popped : world.inbox.popScope scope = world.inbox.setStarts (before ++ after) := by
          have place := findIdx?_match after none matched
          rw [← same] at place
          rw [Inbox.popScope]
          rw [show world.inbox.state.starts.findIdx? (fun packet =>
            scope.all (packet.scope == ·)) = some before.length from place]
          simp [same, List.eraseIdx_append_of_length_le]
        rw [found]
        dsimp only
        rw [popped, discardPending_eq rfl, ok_bind]
        have fewer : ((before ++ after).filter (inScope scope ·.scope)).length ≤ count := by
          rw [same] at enough
          simpa [none.filter, matched] using enough
        obtain ⟨inbox, ran, starts, only⟩ := @ih { world with
          inbox := world.inbox.setStarts (before ++ after)
          pending := .none
          retained := world.retained + 1
          outcomes := world.outcomes ++ [(packet.task, some reason)] } rfl fewer
        refine ⟨inbox, ?_, ?_, .trans ⟨_, _, rfl⟩ only⟩
        · rw [ran]
          simp [same, Inbox.setStarts, none.filter, matched, failed, idle, Nat.add_assoc,
            Nat.add_comm 1]
        · rw [starts]
          simp [same, Inbox.setStarts, none.keep, matched]

theorem failed_append (reason : TaskFailure) (first second : List SpawnPacket) :
    failed reason (first ++ second) = failed reason first ++ failed reason second :=
  List.map_append

/-- Without a pending packet, exactly the packets of the scope are dropped. -/
theorem discardQueued_eq (idle : world.pending = none) :
    ∃ inbox, world.discardQueued scope reason = .ok { world with
        inbox
        incoming := world.incoming.filter (!inScope scope ·.scope)
        retained := world.retained +
          ((world.incoming ++ world.inbox.state.starts).filter (inScope scope ·.scope)).length
        outcomes := world.outcomes ++ failed reason
          ((world.incoming ++ world.inbox.state.starts).filter (inScope scope ·.scope)) } ∧
      inbox.state.starts = world.inbox.state.starts.filter (!inScope scope ·.scope) ∧
      OnlyStarts world.inbox inbox := by
  rw [discardQueued, discardIncoming_eq idle (by simp : world.incoming = world.incoming ++ []),
    ok_bind]
  obtain ⟨inbox, ran, starts, only⟩ := @discardInbox_eq { world with
    incoming := [] ++ world.incoming.filter (!inScope scope ·.scope)
    retained := world.retained + (world.incoming.filter (inScope scope ·.scope)).length
    outcomes := world.outcomes ++
      failed reason (world.incoming.filter (inScope scope ·.scope)) }
    scope reason world.inbox.state.starts.length idle (List.length_filter_le _ _)
  refine ⟨inbox, ?_, starts, only⟩
  rw [ran]
  simp [failed_append, Nat.add_assoc]

/-- No packet is on its way from the inbox to a task. -/
def Unpacked (world : World) : Prop := world.pending = none ∧ world.incoming = []

/-- Exactly the packets of the scope are dropped. -/
theorem discardUnstarted_spec (world : World) (scope : Option Nat) (reason : TaskFailure) :
    ∃ pending incoming inbox, world.discardUnstarted scope reason = .ok { world with
        pending, incoming, inbox
        retained := world.retained + (world.packets.filter (inScope scope ·.scope)).length
        outcomes := world.outcomes ++
          failed reason (world.packets.filter (inScope scope ·.scope)) } ∧
      pending.toList ++ (incoming ++ inbox.state.starts) =
        world.packets.filter (!inScope scope ·.scope) ∧
      OnlyStarts world.inbox inbox ∧
      (world.Unpacked → pending = none ∧ incoming = []) := by
  let kept := world.incoming.filter (!inScope scope ·.scope)
  have left : world.Unpacked → kept = [] := by
    rintro ⟨-, empty⟩
    simp [kept, empty]
  rw [discardUnstarted, packets]
  cases waiting : world.pending with
  | none =>
      obtain ⟨inbox, ran, starts, only⟩ :=
        @discardQueued_eq { world with pending := none } scope reason rfl
      refine ⟨none, kept, inbox, ?_, ?_, only, fun unpacked => ⟨rfl, left unpacked⟩⟩
      · rw [if_neg (by simp), pure_bind]
        dsimp only
        rw [ran, ok_bind]
        simp [kept, waiting, pure, Except.pure]
      · simp [kept, starts]
  | some packet =>
      cases member : inScope scope packet.scope with
      | true =>
          obtain ⟨inbox, ran, starts, only⟩ := @discardQueued_eq { world with
            pending := none
            retained := world.retained + 1
            outcomes := world.outcomes ++ [(packet.task, some reason)] } scope reason rfl
          refine ⟨none, kept, inbox, ?_, ?_, only, fun unpacked => ⟨rfl, left unpacked⟩⟩
          · rw [if_pos (by simpa using member), discardPending_eq waiting, ok_bind]
            dsimp only
            rw [ran, ok_bind]
            simp [kept, member, failed, Nat.add_assoc, Nat.add_comm 1, pure, Except.pure]
          · simp [kept, member, starts]
      | false =>
          obtain ⟨inbox, ran, starts, only⟩ :=
            @discardQueued_eq { world with pending := none } scope reason rfl
          refine ⟨some packet, kept, inbox, ?_, ?_, only, fun unpacked => ?_⟩
          · rw [if_neg (by simpa using member), pure_bind]
            dsimp only
            rw [ran, ok_bind]
            simp [kept, waiting, member, pure, Except.pure]
          · simp [kept, member, starts]
          · rw [unpacked.1] at waiting
            cases waiting

theorem recordCount_eq (world : World) : world.recordCount =
    world.packets.length + world.starts.length + world.tasks.len + world.retained := by
  simp only [recordCount, packets, List.length_append]
  omega

/-- Dropping packets keeps what holds of a kernel. -/
theorem discardUnstarted_keeps {world' : World} {pending : Option SpawnPacket}
    {incoming : List SpawnPacket} {inbox : Inbox} {outcomes : List (Nat × Option TaskFailure)}
    {dropped : SpawnPacket → Bool}
    (same : world' = { world with
      pending, incoming, inbox, outcomes
      retained := world.retained + (world.packets.filter dropped).length })
    (left : world'.packets = world.packets.filter (!dropped ·)) :
    (Valid running world → Valid running world') ∧ (Bounded world → Bounded world') ∧
      (Scoped world → Scoped world') := by
  have fewer : world'.packets ⊆ world.packets := left ▸ List.filter_sublist.subset
  have records : world'.recordCount = world.recordCount := by
    have split := @List.length_eq_length_filter_add _ world.packets dropped
    rw [recordCount_eq, recordCount_eq, left, same]
    simp only [split]
    omega
  subst same
  refine ⟨fun valid => ⟨valid.located, { valid.framed with
      issued := fun packet member => valid.framed.issued packet (fewer member) }, valid.waiting,
      valid.deferring, valid.noticed⟩,
    fun bounded => ⟨records ▸ bounded.records, bounded.owned, bounded.borrowed⟩,
    fun admitted => ⟨admitted.distinct, admitted.bounded, admitted.fresh, admitted.live,
      admitted.queued, fun packet member => admitted.issued packet (fewer member)⟩⟩

/-! ## Local starts -/

/-- A queued task and a runnable one. -/
theorem insertStart_valid {task : Task} {rest : List Task}
    (valid : Valid running { world with starts := task :: rest }) :
    Valid running { world.insertStart task with starts := rest } := by
  have inserted := world.tasks.insertBorrowed_get task
  have more : ∀ key other, world.tasks.get key = some other →
      (world.insertStart task).tasks.get key = some other := by
    intro key other there
    rw [insertStart, inserted, if_neg, there]
    rintro rfl
    rw [world.tasks.insertBorrowed_fresh task] at there
    cases there
  have rooted : ∀ other,
      HasRoot world.tasks other → HasRoot (world.insertStart task).tasks other := by
    rintro other ⟨index, root, there, uses⟩
    exact ⟨index, root, more _ _ there, uses⟩
  have framed := valid.framed
  refine ⟨?_, ⟨fun key other there => ?_, fun other member => framed.queued other
      (List.mem_cons_of_mem _ member), framed.issued, fun index other there unrevoked => ?_,
    fun other member unrevoked => rooted other (framed.queuedRooted other
      (List.mem_cons_of_mem _ member) unrevoked), framed.children⟩,
    valid.waiting.grow more, valid.deferring, valid.noticed.grow more⟩
  · refine (valid.located.insert (world.tasks.insertBorrowed_fresh task) inserted).perm ?_
    simp only [keys, insertStart, ReadyQueue.pushBack, List.perm_iff_count, List.count_append,
      List.count_cons, List.count_nil]
    omega
  · have before : (world.tasks.insertBorrowed task).1.get key = some other := there
    rw [inserted] at before
    split at before
    · cases before
      exact framed.queued task List.mem_cons_self
    · exact framed.live key other before
  · have before : (world.tasks.insertBorrowed task).1.get (.borrowed index) = some other := there
    rw [inserted] at before
    split at before
    · cases before
      exact rooted task (framed.queuedRooted task List.mem_cons_self unrevoked)
    · exact rooted other (framed.liveRooted index other before unrevoked)

theorem insertStart_bounded {task : Task} {rest : List Task}
    (bounded : Bounded { world with starts := task :: rest }) :
    Bounded { world.insertStart task with starts := rest } := by
  have records := bounded.records
  simp only [recordCount, List.length_cons] at records
  have longer := world.tasks.insertBorrowed_len task
  refine ⟨?_, bounded.owned, ?_⟩
  · simp only [recordCount, insertStart, longer]
    omega
  · refine (TaskSlab.insert_slots_le _ _).trans (max_le bounded.borrowed ?_)
    have part : world.tasks.borrowed.len ≤ world.tasks.len := Nat.le_add_left _ _
    exact Nat.le_trans (by omega) records

/-- Queued tasks have become runnable. -/
structure Started (queued : List Task) (world world' : World) (keys : List TaskKey) : Prop where
  same : ∃ tasks, world' = { world with
    starts := [], tasks, ready := { world.ready with normal := world.ready.normal ++ keys } }
  kept : ∀ key task, world.tasks.get key = some task → world'.tasks.get key = some task
  new : ∀ key task, world'.tasks.get key = some task →
    world.tasks.get key = some task ∨ key.isBorrowed = true ∧ task ∈ queued

theorem insertStarts_spec (queued : List Task) (none : world.starts = [])
    (valid : Valid running { world with starts := queued })
    (bounded : Bounded { world with starts := queued }) :
    ∃ keys, Started queued world (queued.foldl insertStart world) keys ∧
      Valid running (queued.foldl insertStart world) ∧
      Bounded (queued.foldl insertStart world) := by
  induction queued generalizing world with
  | nil =>
      have same : { world with starts := [] } = world := by rw [← none]
      rw [same] at valid bounded
      refine ⟨[], ⟨⟨world.tasks, ?_⟩, fun _ _ => id, fun _ _ => .inl⟩, valid, bounded⟩
      simp [same]
  | cons task rest ih =>
      have inserted := world.tasks.insertBorrowed_get task
      obtain ⟨keys, started, valid', bounded'⟩ := @ih (world.insertStart task) none
        (insertStart_valid valid) (insertStart_bounded bounded)
      obtain ⟨tasks, same⟩ := started.same
      refine ⟨(world.tasks.insertBorrowed task).2 :: keys, ⟨⟨tasks, ?_⟩, fun key other there => ?_,
        fun key other there => ?_⟩, valid', bounded'⟩
      · rw [List.foldl_cons, same]
        simp [insertStart, ReadyQueue.pushBack]
      · refine started.kept key other ?_
        rw [insertStart, inserted, if_neg, there]
        rintro rfl
        rw [world.tasks.insertBorrowed_fresh task] at there
        cases there
      · rcases started.new key other there with there | ⟨isBorrowed, member⟩
        · rw [insertStart, inserted] at there
          split at there
          · rename_i equal
            cases there
            exact .inr ⟨equal ▸ rfl, List.mem_cons_self⟩
          · exact .inl there
        · exact .inr ⟨isBorrowed, List.mem_cons_of_mem _ member⟩

theorem takeStarts_spec (valid : Valid running world) (bounded : Bounded world) :
    ∃ keys, Started world.starts world world.takeStarts keys ∧ Valid running world.takeStarts ∧
      Bounded world.takeStarts := by
  obtain ⟨keys, ⟨⟨tasks, same⟩, kept, new⟩, valid', bounded'⟩ :=
    @insertStarts_spec running { world with starts := [] } world.starts rfl valid bounded
  exact ⟨keys, ⟨⟨tasks, same⟩, kept, new⟩, valid', bounded'⟩

end World

end VThread.Kernel

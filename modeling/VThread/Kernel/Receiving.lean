import VThread.Kernel.Revoking

/-!
# Receiving starts

Local starts and a drained batch of packets become runnable tasks.  Nothing of it can fail, and
no packet is left between the inbox and its task.
-/

namespace VThread.Kernel

open VThread.Lib VThread.Carrier VThread.Ready VThread.Wait

/-- Tasks have started, from queued starts and packets of their scope. -/
structure Received (world world' : World) : Prop where
  same : ∃ tasks ready pending incoming inbox starts hasBorrowed remotePending admissionPressure
    retained outcomes, world' = { world with
      tasks, ready, pending, incoming, inbox, starts, hasBorrowed, remotePending, admissionPressure
      retained, outcomes }
  inbox : OnlyStarts world.inbox world'.inbox
  packets : world'.packets ⊆ world.packets
  starts : world'.starts ⊆ world.starts
  kept : ∀ key task, world.tasks.get key = some task → world'.tasks.get key = some task
  new : ∀ key task, world'.tasks.get key = some task → world.tasks.get key = some task ∨
    key.isBorrowed = true ∧ task ∈ world.starts ∨
    key.isBorrowed = false ∧ ∃ packet ∈ world.packets, packet.scope = task.scope
  flagged : world.Flagged → world'.Flagged

namespace Received

theorem refl (world : World) : Received world world :=
  ⟨⟨_, _, _, _, _, _, _, _, _, _, _, rfl⟩, ⟨_, _, rfl⟩, fun _ => id, fun _ => id, fun _ _ => id,
    fun _ _ => .inl, id⟩

theorem trans {first second third : World} (before : Received first second)
    (after : Received second third) : Received first third where
  same := by
    obtain ⟨_, _, _, _, _, _, _, _, _, _, _, rfl⟩ := before.same
    obtain ⟨_, _, _, _, _, _, _, _, _, _, _, rfl⟩ := after.same
    exact ⟨_, _, _, _, _, _, _, _, _, _, _, rfl⟩
  inbox := before.inbox.trans after.inbox
  packets _ member := before.packets (after.packets member)
  starts _ member := before.starts (after.starts member)
  kept key task there := after.kept key task (before.kept key task there)
  new key task there := by
    rcases after.new key task there with there | ⟨isBorrowed, queued⟩ | ⟨isOwned, packet, member⟩
    · exact before.new key task there
    · exact .inr (.inl ⟨isBorrowed, before.starts queued⟩)
    · exact .inr (.inr ⟨isOwned, packet, before.packets member.1, member.2⟩)
  flagged := after.flagged ∘ before.flagged

variable {world world' : World}

theorem inFlight (received : Received world world') : world'.inFlight = world.inFlight := by
  obtain ⟨_, _, _, _, _, _, _, _, _, _, _, rfl⟩ := received.same
  rfl

end Received

namespace World

variable {world : World}

/-! ## Local starts -/

theorem receiveLocal_spec (sound : Sound none world) :
    Sound none world.receiveLocal ∧ Received world world.receiveLocal ∧
      world.receiveLocal.starts = [] ∧ (world.Unpacked → world.receiveLocal.Unpacked) := by
  rw [receiveLocal, receiveLocalTasks]
  by_cases none' : world.starts.isEmpty
  · rw [if_pos none']
    exact ⟨sound, .refl world, List.isEmpty_iff.mp none', id⟩
  · rw [if_neg none']
    obtain ⟨keys, ⟨⟨tasks, same⟩, kept, new⟩, taken⟩ := takeStarts_sound sound
    have admitted := taken.admitted
    have whole : { world.takeStarts with hasBorrowed := true } = { world with
        starts := [], tasks, hasBorrowed := true
        ready := { world.ready with normal := world.ready.normal ++ keys } } := by rw [same]
    have left : world.takeStarts.starts = [] := by rw [same]
    have inbox : world.takeStarts.inbox = world.inbox := by rw [same]
    have packets : world.takeStarts.packets = world.packets := by
      rw [same]
      rfl
    refine ⟨⟨⟨taken.valid.located, taken.valid.framed, taken.valid.waiting, taken.valid.deferring,
      taken.valid.noticed⟩, ⟨taken.bounded.records, taken.bounded.owned, taken.bounded.borrowed⟩,
      taken.pending, ⟨admitted.distinct, admitted.bounded, admitted.fresh, admitted.live,
        admitted.queued, admitted.issued⟩⟩, ⟨⟨_, _, _, _, _, _, _, _, _, _, _, whole⟩,
        inbox ▸ .refl _, packets ▸ fun _ => id,
        left ▸ List.nil_subset _, kept,
        fun key task there => (new key task there).imp_right .inl, fun _ _ _ _ _ => rfl⟩, left,
      fun unpacked => ?_⟩
    change world.takeStarts.Unpacked
    rw [same]
    exact unpacked

/-! ## The drained batch -/

/-- A drained packet becomes a task. -/
theorem startPacket_sound {packet : SpawnPacket} {rest : List SpawnPacket}
    (sound : Sound none world) (batch : world.incoming = packet :: rest) :
    let inserted := world.tasks.insertOwned
      ⟨packet.task, packet.scope, [⟨packet.task, packet.scope⟩]⟩
    Sound none { world with
      incoming := rest
      tasks := inserted.1
      ready := world.ready.pushBack inserted.2 } ∧
    Received world { world with
      incoming := rest
      tasks := inserted.1
      ready := world.ready.pushBack inserted.2 } := by
  intro inserted
  let task : Task := ⟨packet.task, packet.scope, [⟨packet.task, packet.scope⟩]⟩
  have gets := world.tasks.insertOwned_get task
  have fresh := world.tasks.insertOwned_fresh task
  have valid := sound.valid
  have framed := valid.framed
  have admitted := sound.admitted
  have isPacket : packet ∈ world.packets := by simp [packets, batch]
  have fewer : ∀ other, other ∈ world.pending.toList ++ (rest ++ world.inbox.state.starts) →
      other ∈ world.packets := by
    intro other member
    rw [packets, batch, List.cons_append]
    exact List.append_subset.mpr ⟨List.subset_append_left _ _, fun other left =>
      List.mem_append_right _ (List.mem_cons_of_mem _ left)⟩ member
  have more : ∀ key other, world.tasks.get key = some other →
      inserted.1.get key = some other := by
    intro key other there
    rw [show inserted.1.get key = _ from gets key, if_neg, there]
    rintro rfl
    rw [fresh] at there
    cases there
  have before : ∀ key other, inserted.1.get key = some other →
      key = inserted.2 ∧ other = task ∨ world.tasks.get key = some other := by
    intro key other there
    rw [show inserted.1.get key = _ from gets key] at there
    split at there
    · rename_i same
      exact .inl ⟨same, (Option.some.inj there).symm⟩
    · exact .inr there
  have rooted : ∀ other, HasRoot world.tasks other → HasRoot inserted.1 other := by
    rintro other ⟨index, root, there, uses⟩
    exact ⟨index, root, more _ _ there, uses⟩
  refine ⟨⟨⟨?_, ⟨fun key other there => ?_, framed.queued, fun other member =>
      framed.issued other (fewer other member), fun index other there unrevoked => ?_,
      fun other member unrevoked => rooted other (framed.queuedRooted other member unrevoked),
      framed.children⟩, valid.waiting.grow more, valid.deferring, valid.noticed.grow more⟩,
    ⟨?_, ?_, sound.bounded.borrowed⟩, ⟨sound.pending.distinct, sound.pending.alone,
      fun scope member => ?_⟩, ⟨admitted.distinct, admitted.bounded, admitted.fresh,
      fun key other there => ?_, admitted.queued, fun other member =>
        admitted.issued other (fewer other member)⟩⟩,
    ⟨⟨_, _, _, _, _, _, _, _, _, _, _, rfl⟩, ⟨_, _, rfl⟩, fewer, fun _ => id, more,
      fun key other there => ?_, fun flagged key other isBorrowed there => ?_⟩⟩
  · refine (valid.located.insert fresh gets).perm ?_
    simp only [keys, inserted, task, ReadyQueue.pushBack, List.perm_iff_count, List.count_append,
      List.count_cons, List.count_nil]
    intro key
    omega
  · rcases before key other there with ⟨-, rfl⟩ | there
    · refine ⟨List.mem_singleton_self _, fun frames member => ?_, fun frames member => ?_⟩
      · rw [List.mem_singleton.mp member]
        exact framed.issued packet isPacket
      · rw [List.mem_singleton.mp member]
    · exact framed.live key other there
  · rcases before _ other there with ⟨same, -⟩ | there
    · cases same
    · exact rooted other (framed.liveRooted index other there unrevoked)
  · have records := sound.bounded.records
    have longer := world.tasks.insertOwned_len task
    simp only [recordCount, batch, List.length_cons] at records ⊢
    rw [show inserted.1.len = _ from longer]
    omega
  · refine (TaskSlab.insert_slots_le _ _).trans (max_le sound.bounded.owned ?_)
    have records := sound.bounded.records
    have part : world.tasks.owned.len ≤ world.tasks.len := Nat.le_add_right _ _
    simp only [recordCount, batch, List.length_cons] at records
    exact Nat.le_trans (by omega) records
  · obtain ⟨index, root, there, isScope⟩ := sound.pending.rooted scope member
    exact ⟨index, root, more _ _ there, isScope⟩
  · rcases before key other there with ⟨-, rfl⟩ | there
    · exact admitted.issued packet isPacket
    · exact admitted.live key other there
  · rcases before key other there with ⟨same, rfl⟩ | there
    · exact .inr (.inr ⟨same ▸ rfl, packet, isPacket, rfl⟩)
    · exact .inl there
  · rcases before key other there with ⟨same, -⟩ | there
    · rw [same] at isBorrowed
      cases isBorrowed
    · exact flagged key other isBorrowed there

/-- A packet without a stack ends. -/
theorem dropPacket_sound {packet : SpawnPacket} {rest : List SpawnPacket}
    (reason : TaskFailure) (sound : Sound none world) (idle : world.pending = none)
    (batch : world.incoming = packet :: rest) :
    ∃ world', { world with incoming := rest, pending := some packet }.discardPending reason =
        .ok world' ∧ world'.incoming = rest ∧ world'.pending = none ∧ Sound none world' ∧
      Received world world' := by
  have fewer : ∀ other, other ∈ rest ++ world.inbox.state.starts → other ∈ world.packets := by
    intro other member
    rw [packets, batch, idle, List.cons_append]
    exact List.mem_cons_of_mem _ member
  have valid := sound.valid
  have admitted := sound.admitted
  have same := @discardPending_eq { world with incoming := rest, pending := some packet } reason
    packet rfl
  refine ⟨_, same, rfl, rfl, ⟨⟨valid.located, { valid.framed with
    issued := fun other member => valid.framed.issued other (fewer other member) }, valid.waiting,
    valid.deferring, valid.noticed⟩, ⟨?_, sound.bounded.owned, sound.bounded.borrowed⟩,
    sound.pending, ⟨admitted.distinct, admitted.bounded, admitted.fresh, admitted.live,
      admitted.queued, fun other member => admitted.issued other (fewer other member)⟩⟩,
    ⟨⟨_, _, _, _, _, _, _, _, _, _, _, rfl⟩, ⟨_, _, rfl⟩, fewer, fun _ => id, fun _ _ => id,
      fun _ _ => .inl, id⟩⟩
  have records := sound.bounded.records
  simp only [recordCount, batch, idle, List.length_cons, Option.toList_none, List.length_nil]
    at records ⊢
  omega

/-- The whole batch is started or dropped. -/
theorem startIncoming_spec {granted : List Bool} (sound : Sound none world)
    (idle : world.pending = none) (size : world.incoming.length = granted.length) :
    ∃ world', startIncoming granted world = .ok world' ∧ world'.Unpacked ∧ Sound none world' ∧
      Received world world' := by
  induction granted generalizing world with
  | nil =>
      exact ⟨world, rfl, ⟨idle, List.eq_nil_of_length_eq_zero size⟩, sound, .refl world⟩
  | cons stack granted ih =>
      cases batch : world.incoming with
      | nil =>
          rw [batch] at size
          cases size
      | cons =>
          rw [batch, List.length_cons, List.length_cons, Nat.succ_inj] at size
          rw [startIncoming, batch]
          dsimp only
          cases stack with
          | true =>
              obtain ⟨sound', received⟩ := startPacket_sound sound batch
              obtain ⟨world', ran, unpacked, sound'', more⟩ := ih sound' idle size
              exact ⟨world', ran, unpacked, sound'', received.trans more⟩
          | false =>
              obtain ⟨dropped, drops, left, idle', sound', received⟩ :=
                dropPacket_sound .stackAllocation sound idle batch
              obtain ⟨world', ran, unpacked, sound'', more⟩ := ih sound' idle' (left ▸ size)
              refine ⟨world', ?_, unpacked, sound'', received.trans more⟩
              rw [if_neg Bool.false_ne_true, drops, ok_bind, ran]

/-! ## A call -/

/-- Only what admission counts has changed. -/
theorem counted_sound (sound : Sound none world) (remotePending : Bool) (admissionPressure : Nat) :
    Sound none { world with remotePending, admissionPressure } ∧
      Received world { world with remotePending, admissionPressure } := by
  have admitted := sound.admitted
  exact ⟨⟨⟨sound.valid.located, sound.valid.framed, sound.valid.waiting, sound.valid.deferring,
    sound.valid.noticed⟩, ⟨sound.bounded.records, sound.bounded.owned, sound.bounded.borrowed⟩,
    sound.pending, ⟨admitted.distinct, admitted.bounded, admitted.fresh, admitted.live,
      admitted.queued, admitted.issued⟩⟩, ⟨⟨_, _, _, _, _, _, _, _, _, _, _, rfl⟩, ⟨_, _, rfl⟩,
    fun _ => id, fun _ => id, fun _ _ => id, fun _ _ => .inl, id⟩⟩

/-- A batch is taken from the inbox. -/
theorem drain_sound (sound : Sound none world) (unpacked : world.Unpacked) (limit : Nat) :
    Sound none { world with
        incoming := world.inbox.state.starts.take limit
        inbox := world.inbox.drainInto limit } ∧
      Received world { world with
        incoming := world.inbox.state.starts.take limit
        inbox := world.inbox.drainInto limit } := by
  let batch := world.inbox.state.starts.take limit
  let rest := (world.inbox.drainInto limit).state.starts
  have split : batch ++ rest = world.inbox.state.starts := by
    simp only [batch, rest, Inbox.drainInto, Inbox.setStarts]
    rw [Nat.min_comm, ← List.drop_eq_drop_min, List.take_append_drop]
  have whole : world.packets = world.inbox.state.starts := by
    rw [packets, unpacked.1, unpacked.2]
    rfl
  have same : world.pending.toList ++ (batch ++ rest) = world.packets := by
    rw [split, whole, unpacked.1]
    rfl
  have fewer : world.pending.toList ++ (batch ++ rest) ⊆ world.packets := same ▸ fun _ => id
  have admitted := sound.admitted
  have valid := sound.valid
  refine ⟨⟨⟨valid.located, { valid.framed with
    issued := fun packet member => valid.framed.issued packet (fewer member) },
    valid.waiting, valid.deferring, valid.noticed⟩, ⟨?_, sound.bounded.owned,
      sound.bounded.borrowed⟩, sound.pending, ⟨admitted.distinct, admitted.bounded,
      admitted.fresh, admitted.live, admitted.queued, fun packet member =>
        admitted.issued packet (fewer member)⟩⟩,
    ⟨⟨_, _, _, _, _, _, _, _, _, _, _, rfl⟩, ⟨_, _, rfl⟩, fewer, fun _ => id, fun _ _ => id,
      fun _ _ => .inl, id⟩⟩
  have records := sound.bounded.records
  rw [recordCount_eq] at records ⊢
  rw [← same] at records
  exact records

theorem receiveRemoteTasks_spec (sound : Sound none world) (unpacked : world.Unpacked)
    (granted : Nat → Bool) : ∃ world', world.receiveRemoteTasks granted = .ok world' ∧
      world'.Unpacked ∧ Sound none world' ∧ Received world world' := by
  rw [receiveRemoteTasks, ensure_of unpacked.2, ok_bind]
  cases world.refillLimit with
  | none => exact ⟨world, rfl, unpacked, sound, .refl world⟩
  | some limit =>
      obtain ⟨drained, drains⟩ := drain_sound sound unpacked limit
      obtain ⟨counted, counts⟩ := counted_sound drained world.remotePending
        (if (world.inbox.state.starts.take limit).length ≠ 0 then 0 else world.admissionPressure)
      obtain ⟨world', ran, unpacked', sound', received⟩ := startIncoming_spec counted unpacked.1
        (by simp : _ = ((List.range (world.inbox.state.starts.take limit).length).map
          granted).length)
      exact ⟨world', ran, unpacked', sound', (drains.trans counts).trans received⟩

/-- Receiving never fails. -/
theorem receive_spec (sound : Sound none world) (unpacked : world.Unpacked)
    (granted : Nat → Bool) : ∃ world', world.receive granted = .ok world' ∧ Sound none world' ∧
      world'.Unpacked ∧ Received world world' ∧ world'.starts = [] := by
  obtain ⟨counted, counts⟩ := counted_sound sound world.remotePending
    (world.admissionPressure + world.remotePending.toNat)
  obtain ⟨started, starts, none', batch⟩ := receiveLocal_spec counted
  obtain ⟨filled, ran, unpacked', sound', received⟩ :=
    receiveRemoteTasks_spec started (batch unpacked) granted
  obtain ⟨sound'', counts'⟩ := counted_sound sound' (filled.inbox.pendingStarts != 0)
    (if filled.inbox.pendingStarts != 0 then filled.admissionPressure else 0)
  refine ⟨_, ?_, sound'', unpacked', ((counts.trans starts).trans received).trans counts', ?_⟩
  · rw [receive, ran, ok_bind]
    rfl
  · exact List.subset_nil.mp (none' ▸ received.starts)

end World

end VThread.Kernel

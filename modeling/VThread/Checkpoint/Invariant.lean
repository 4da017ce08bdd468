import VThread.Checkpoint.Policy

/-!
# What cancellations and drops do to the domain

The flags of the nodes follow the uncompressed reference: a cancellation that holds the lock
still owes the visit of some nodes, and none once it advances the epoch.
-/

namespace VThread.Checkpoint

open VThread.Lib VThread.Cancellation

variable {ι : Type}

/-! ## The graph and its nodes -/

/-- What holds of the domain's nodes. -/
structure Domain.Graphed (domain : Domain) : Prop where
  agrees : domain.world.Agrees
  handle : ∀ node ∈ domain.world.live, domain.world.handle node = some node
  strong_live : ∀ node ∈ domain.strong, node ∈ domain.world.live
  leaving_live : ∀ node ∈ domain.leaving,
    node ∈ domain.world.live ∧ node ∉ domain.strong ∧ node ∉ domain.retired
  retired_live : ∀ node ∈ domain.retired, node ∈ domain.world.live ∧ node ∉ domain.strong
  nodup : domain.retired.Nodup

namespace Domain.Graphed

variable {domain domain' : Domain}

/-- Nodes of the graph have been created. -/
theorem born (graphed : domain.Graphed) {node : Nat} (strong : node ∈ domain.strong) :
    node < domain.world.reference.count := by
  obtain ⟨entry, found, -⟩ :=
    (graphed.agrees.live_iff node).1 (graphed.strong_live node strong)
  rw [← graphed.agrees.next_eq]
  exact graphed.agrees.settled.wf.lt_next found

theorem fresh (graphed : domain.Graphed) :
    domain.world.reference.count ∉ domain.world.live := by
  intro member
  obtain ⟨entry, found, -⟩ := (graphed.agrees.live_iff _).1 member
  have below := graphed.agrees.settled.wf.lt_next found
  rw [graphed.agrees.next_eq] at below
  exact below.false

/-- An insertion creates one node, with the flag of the reference. -/
theorem insert (graphed : domain.Graphed) {parents : List Nat}
    (known : ∀ parent ∈ parents, parent ∈ domain.strong)
    (inserted : domain.insert parents = .ok domain') :
    domain'.Graphed ∧ ∃ world cancelled, domain' = { domain with
        world
        strong := Insert.insert domain.world.reference.count domain.strong
        flags := Function.update domain.flags domain.world.reference.count cancelled } ∧
      world.reference = domain.world.reference.insert parents ∧
      (cancelled = true ↔ world.reference.cancelled domain.world.reference.count) := by
  obtain ⟨_, -, rest⟩ := bind_eq_ok.1 inserted
  obtain ⟨⟨world, handles⟩, stepped, rest⟩ := bind_eq_ok.1 rest
  obtain ⟨cancelled, flagOk, equal⟩ := bind_eq_ok.1 rest
  have fresh := graphed.fresh
  have permitted : domain.world.Permits (.insert parents domain.world.graph.next : Op Nat Nat) :=
    fun parent member => graphed.strong_live parent (known parent member)
  obtain ⟨_, _, stepped', agrees, -⟩ :=
    graphed.agrees.step permitted (World.hasRoom_of_step graphed.agrees stepped)
  rw [stepped] at stepped'
  cases stepped'
  obtain ⟨reference, live, handle⟩ := World.step_insert stepped
  cases equal
  rw [graphed.agrees.next_eq] at live handle flagOk ⊢
  have others : ∀ node ∈ domain.world.live, node ≠ domain.world.reference.count := by
    rintro node member rfl
    exact fresh member
  refine ⟨?_, world, cancelled, rfl, reference, ?_⟩
  · exact {
      agrees := agrees
      handle := by
        intro node member
        rw [live, Finset.mem_insert] at member
        rw [handle]
        rcases member with rfl | member
        · rw [Function.update_self]
        · rw [Function.update_of_ne (others node member)]
          exact graphed.handle node member
      strong_live := by
        intro node member
        rw [live]
        rw [Finset.mem_insert] at member ⊢
        exact member.imp_right (graphed.strong_live node)
      leaving_live := by
        intro node leaving
        obtain ⟨isLive, weak, unretired⟩ := graphed.leaving_live node leaving
        rw [live]
        refine ⟨Finset.mem_insert_of_mem isLive, ?_, unretired⟩
        rw [Finset.mem_insert]
        exact fun member => member.elim (others node isLive) weak
      retired_live := by
        intro node member
        obtain ⟨isLive, weak⟩ := graphed.retired_live node member
        rw [live]
        refine ⟨Finset.mem_insert_of_mem isLive, ?_⟩
        rw [Finset.mem_insert]
        exact fun member => member.elim (others node isLive) weak
      nodup := graphed.nodup }
  · have isLive : domain.world.reference.count ∈ world.live := by
      rw [live]
      exact Finset.mem_insert_self ..
    rw [← agrees.cancelled _ isLive]
    exact (Graph.cancelled_iff_flag flagOk).symm

/-- A cancellation returns the live nodes that it marks. -/
theorem cancelNodes (graphed : domain.Graphed) {root : Nat} (strong : root ∈ domain.strong) :
    ∃ world nodes, domain.cancelNodes root = .ok ({ domain with world }, nodes) ∧
      ({ domain with world } : Domain).Graphed ∧
      world.reference = domain.world.reference.cancel root ∧
      ∀ node, node ∈ nodes ↔ node ∈ domain.world.live ∧
        ¬ domain.world.reference.cancelled node ∧ world.reference.cancelled node := by
  obtain ⟨world, nodes, stepped, agrees, turned, -, turned_iff, nodes_eq⟩ :=
    graphed.agrees.cancel some (graphed.strong_live root strong)
  obtain ⟨reference, live, handle⟩ := World.step_cancel stepped
  refine ⟨world, nodes, by rw [Domain.cancelNodes, stepped]; rfl, ?_, reference, ?_⟩
  · exact {
      agrees := agrees
      handle := by
        intro node member
        rw [handle]
        exact graphed.handle node (live ▸ member)
      strong_live := fun node member => live ▸ graphed.strong_live node member
      leaving_live := fun node member => live ▸ graphed.leaving_live node member
      retired_live := fun node member => live ▸ graphed.retired_live node member
      nodup := graphed.nodup }
  · intro node
    have mem_nodes : node ∈ nodes ↔ node ∈ turned := by
      rw [nodes_eq, List.mem_filterMap]
      constructor
      · rintro ⟨id, member, upgrades⟩
        rw [graphed.handle id ((turned_iff id).1 member).1] at upgrades
        cases upgrades
        exact member
      · intro member
        exact ⟨node, member, by rw [graphed.handle node ((turned_iff node).1 member).1]; rfl⟩
    rw [mem_nodes, turned_iff]
    refine and_congr_right fun isLive => ?_
    rw [graphed.agrees.cancelled node isLive, agrees.cancelled node (live ▸ isLive)]

theorem visit (graphed : domain.Graphed) (node : Nat) : (domain.visit node).Graphed := by
  unfold Domain.visit
  split
  · exact ⟨graphed.agrees, graphed.handle, graphed.strong_live, graphed.leaving_live,
      graphed.retired_live, graphed.nodup⟩
  · exact graphed

theorem release (graphed : domain.Graphed) {node : Nat} (strong : node ∈ domain.strong) :
    ({ domain with
      strong := domain.strong.erase node
      leaving := Insert.insert node domain.leaving } : Domain).Graphed where
  agrees := graphed.agrees
  handle := graphed.handle
  strong_live other member := graphed.strong_live other (Finset.mem_of_mem_erase member)
  leaving_live other leaving := by
    rcases Finset.mem_insert.1 leaving with rfl | leaving
    · refine ⟨graphed.strong_live other strong, Finset.notMem_erase other _, fun retired => ?_⟩
      exact (graphed.retired_live other retired).2 strong
    · obtain ⟨isLive, weak, unretired⟩ := graphed.leaving_live other leaving
      exact ⟨isLive, fun member => weak (Finset.mem_of_mem_erase member), unretired⟩
  retired_live other member := by
    obtain ⟨isLive, weak⟩ := graphed.retired_live other member
    exact ⟨isLive, fun member => weak (Finset.mem_of_mem_erase member)⟩
  nodup := graphed.nodup

/-- The retirement of a dropped node never fails. -/
theorem retire (graphed : domain.Graphed) {node : Nat} (leaves : node ∈ domain.leaving) :
    ∃ world retired, domain.retire node = .ok { domain with
        world, leaving := domain.leaving.erase node, retired } ∧
      ({ domain with world, leaving := domain.leaving.erase node, retired } : Domain).Graphed ∧
      world.reference = domain.world.reference := by
  obtain ⟨isLive, weak, unretired⟩ := graphed.leaving_live node leaves
  have nodup : (domain.retired ++ [node]).Nodup := by
    rw [List.nodup_append]
    refine ⟨graphed.nodup, List.nodup_singleton node, ?_⟩
    intro other member last isLast equal
    rw [equal, List.mem_singleton.1 isLast] at member
    exact unretired member
  have retiring : ∀ other ∈ domain.retired ++ [node], other ∈ domain.world.live ∧
      other ∉ domain.strong := by
    intro other member
    rcases List.mem_append.1 member with member | member
    · exact graphed.retired_live other member
    · rw [List.mem_singleton.1 member]
      exact ⟨isLive, weak⟩
  have staying : ∀ other ∈ domain.leaving.erase node, other ∈ domain.world.live ∧
      other ∉ domain.strong ∧ other ∉ domain.retired ++ [node] := by
    intro other member
    obtain ⟨ne, leaving⟩ := Finset.mem_erase.1 member
    obtain ⟨isLive, weak, unretired⟩ := graphed.leaving_live other leaving
    refine ⟨isLive, weak, fun member => ?_⟩
    exact (List.mem_append.1 member).elim unretired fun last => ne (List.mem_singleton.1 last)
  by_cases batch : (domain.retired ++ [node]).length < Inherited.retirementBatch
  · refine ⟨domain.world, domain.retired ++ [node], by rw [Domain.retire, if_pos batch]; rfl,
      ?_, rfl⟩
    exact ⟨graphed.agrees, graphed.handle, graphed.strong_live, staying, retiring, nodup⟩
  · obtain ⟨world, removed, agrees, reference, handle, live⟩ := Inherited.removeAll_spec
      graphed.agrees (fun other member => (retiring other member).1) nodup
    refine ⟨world, [], by rw [Domain.retire, if_neg batch, removed]; rfl, ?_, reference⟩
    exact {
      agrees := agrees
      handle := by
        intro other member
        rw [handle]
        exact graphed.handle other ((live other).1 member).1
      strong_live := fun other member => (live other).2 ⟨graphed.strong_live other member,
        fun retired => (retiring other retired).2 member⟩
      leaving_live := by
        intro other member
        obtain ⟨isLive, weak, unretired⟩ := staying other member
        exact ⟨(live other).2 ⟨isLive, unretired⟩, weak, nofun⟩
      retired_live := nofun
      nodup := List.nodup_nil }

end Domain.Graphed

/-! ## Flags and histories -/

/-- The nodes that the cancellation in the lock has not visited yet. -/
def Shared.pending (shared : Shared ι) : List Nat := (shared.lock.map Prod.snd).getD []

/-- The reference graph of all nodes that were ever created. -/
abbrev Shared.reference (shared : Shared ι) : Reference := shared.domain.world.reference

/-- What holds of the shared state. -/
structure Shared.Valid (shared : Shared ι) : Prop where
  graphed : shared.domain.Graphed
  marked_born : ∀ root ∈ shared.marked, root < shared.reference.count
  cancelled_iff : ∀ node, shared.reference.cancelled node ↔
    ∃ root ∈ shared.marked, shared.reference.Descends root node
  flag_cancelled : ∀ node, shared.domain.flags node = true → shared.reference.cancelled node
  visited : ∀ node ∈ shared.domain.strong, shared.reference.cancelled node →
    shared.domain.flags node = true ∨ node ∈ shared.pending
  owed : ∀ node ∈ shared.pending, shared.reference.cancelled node
  advanced_flagged : ∀ root ∈ shared.advanced, ∀ node ∈ shared.domain.strong,
    shared.reference.Descends root node → shared.domain.flags node = true
  advanced_marked : ∀ root ∈ shared.advanced, root ∈ shared.marked
  marked_started : ∀ root ∈ shared.marked, root ∈ shared.started
  returned_advanced : ∀ root ∈ shared.returned, root ∈ shared.advanced
  epoch : shared.domain.epoch = BitVec.ofNat 64 (1 + shared.advanced.length)
  borrowed : ∀ entry ∈ shared.borrowed, entry.2 ∈ shared.domain.strong

/-- What the threads may rely on from one state to a later one. -/
structure Evolves (before after : Shared ι) : Prop where
  born : before.reference.count ≤ after.reference.count
  descends : ∀ source node, node < before.reference.count →
    (after.reference.Descends source node ↔ before.reference.Descends source node)
  flags : ∀ node < before.reference.count,
    before.domain.flags node = true → after.domain.flags node = true
  marked : ∀ root ∈ before.marked, root ∈ after.marked
  started : ∀ root ∈ before.started, root ∈ after.started
  returned : ∀ root ∈ before.returned, root ∈ after.returned
  advanced : after.advanced = before.advanced ∧ after.domain.epoch = before.domain.epoch ∨
    ∃ root, after.advanced = root :: before.advanced

theorem Evolves.refl (shared : Shared ι) : Evolves shared shared where
  born := le_rfl
  descends _ _ _ := Iff.rfl
  flags _ _ := fun flag => flag
  marked _ member := member
  started _ member := member
  returned _ member := member
  advanced := .inl ⟨rfl, rfl⟩

theorem Evolves.advanced_subset {before after : Shared ι} (evolves : Evolves before after) :
    ∀ root ∈ before.advanced, root ∈ after.advanced := by
  intro root member
  rcases evolves.advanced with ⟨same, -⟩ | ⟨next, equal⟩
  · rwa [same]
  · rw [equal]
    exact List.mem_cons_of_mem _ member

theorem Evolves.length_le {before after : Shared ι} (evolves : Evolves before after) :
    before.advanced.length ≤ after.advanced.length := by
  rcases evolves.advanced with ⟨same, -⟩ | ⟨next, equal⟩
  · rw [same]
  · rw [equal]
    exact Nat.le_succ _

namespace Shared.Valid

variable {shared : Shared ι}

/-- A new node inherits the flags of its parents. -/
theorem insert (valid : shared.Valid) (free : shared.lock = none) {parents : List Nat}
    {domain : Domain} (known : ∀ parent ∈ parents, parent ∈ shared.domain.strong)
    (inserted : shared.domain.insert parents = .ok domain) :
    { shared with domain }.Valid ∧ Evolves shared { shared with domain } := by
  obtain ⟨graphed, world, cancelled, rfl, reference, inherits⟩ :=
    valid.graphed.insert known inserted
  have ordered := valid.graphed.agrees.ordered
  have below : ∀ parent ∈ parents, parent < shared.reference.count :=
    fun parent member => valid.graphed.born (known parent member)
  have noneOwed : shared.pending = [] := by simp [pending, free]
  have isCancelled : ∀ node, world.reference.cancelled node ↔
      ∃ root ∈ shared.marked, world.reference.Descends root node := by
    intro node
    rw [reference]
    by_cases equal : node = shared.reference.count
    · subst equal
      rw [Reference.insert_cancelled_self]
      constructor
      · rintro ⟨parent, member, inherited⟩
        obtain ⟨root, marked, path⟩ := (valid.cancelled_iff parent).1 inherited
        exact ⟨root, marked, (Reference.descends_insert_self ordered below).2
          (.inr ⟨parent, member, path⟩)⟩
      · rintro ⟨root, marked, path⟩
        rcases (Reference.descends_insert_self ordered below).1 path with
          same | ⟨parent, member, path⟩
        · exact ((valid.marked_born root marked).ne same).elim
        · exact ⟨parent, member, (valid.cancelled_iff parent).2 ⟨root, marked, path⟩⟩
    · rw [Reference.insert_cancelled_of_ne equal, valid.cancelled_iff]
      refine exists_congr fun root => and_congr_right fun _ => ?_
      exact (Reference.descends_insert ordered equal).symm
  have oldFlag : ∀ node, node ≠ shared.reference.count →
      Function.update shared.domain.flags shared.reference.count cancelled node =
        shared.domain.flags node := fun node ne => Function.update_of_ne ne ..
  have newFlag : Function.update shared.domain.flags shared.reference.count cancelled
      shared.reference.count = cancelled := Function.update_self ..
  refine ⟨?_, ?_⟩
  · exact {
      graphed := graphed
      marked_born := by
        intro root member
        dsimp only [Shared.reference]
        rw [reference]
        exact Nat.lt_succ_of_lt (valid.marked_born root member)
      cancelled_iff := isCancelled
      flag_cancelled := by
        intro node flag
        dsimp only [Shared.reference] at flag ⊢
        by_cases equal : node = shared.reference.count
        · rw [equal] at flag ⊢
          rw [newFlag] at flag
          exact inherits.1 flag
        · rw [oldFlag node equal] at flag
          rw [reference, Reference.insert_cancelled_of_ne equal]
          exact valid.flag_cancelled node flag
      visited := by
        intro node member
        dsimp only [Shared.reference] at member ⊢
        intro marked
        left
        by_cases equal : node = shared.reference.count
        · rw [equal] at marked ⊢
          rw [newFlag]
          exact inherits.2 marked
        · rw [oldFlag node equal]
          rw [reference, Reference.insert_cancelled_of_ne equal] at marked
          have strong := (Finset.mem_insert.1 member).resolve_left equal
          exact (valid.visited node strong marked).resolve_right (by simp [noneOwed])
      owed := by
        intro node member
        have owed : node ∈ shared.pending := member
        rw [noneOwed] at owed
        cases owed
      advanced_flagged := by
        intro root member node strong path
        dsimp only [Shared.reference] at strong path ⊢
        by_cases equal : node = shared.reference.count
        · rw [equal] at path ⊢
          rw [newFlag]
          exact inherits.2 ((isCancelled _).2 ⟨root, valid.advanced_marked root member, path⟩)
        · rw [oldFlag node equal]
          rw [reference, Reference.descends_insert ordered equal] at path
          exact valid.advanced_flagged root member node
            ((Finset.mem_insert.1 strong).resolve_left equal) path
      advanced_marked := valid.advanced_marked
      marked_started := valid.marked_started
      returned_advanced := valid.returned_advanced
      epoch := valid.epoch
      borrowed := fun entry member => Finset.mem_insert_of_mem (valid.borrowed entry member) }
  · exact {
      born := by
        dsimp only [Shared.reference]
        rw [reference]
        exact Nat.le_succ _
      descends := by
        intro source node old
        dsimp only [Shared.reference]
        rw [reference]
        exact Reference.descends_insert ordered old.ne
      flags := by
        intro node old flag
        dsimp only
        rw [oldFlag node old.ne]
        exact flag
      marked := fun _ member => member
      started := fun _ member => member
      returned := fun _ member => member
      advanced := .inl ⟨rfl, rfl⟩ }

/-- A call of `cancel` starts. -/
theorem start (valid : shared.Valid) (root : Nat) :
    { shared with started := root :: shared.started }.Valid ∧
      Evolves shared { shared with started := root :: shared.started } :=
  ⟨{ graphed := valid.graphed
     marked_born := valid.marked_born
     cancelled_iff := valid.cancelled_iff
     flag_cancelled := valid.flag_cancelled
     visited := valid.visited
     owed := valid.owed
     advanced_flagged := valid.advanced_flagged
     advanced_marked := valid.advanced_marked
     marked_started := fun root member => List.mem_cons_of_mem _ (valid.marked_started root member)
     returned_advanced := valid.returned_advanced
     epoch := valid.epoch
     borrowed := valid.borrowed },
   { Evolves.refl shared with
     started := fun _ member => List.mem_cons_of_mem _ member }⟩

/-- A cancellation takes the lock, marks the graph and owes the visits. -/
theorem mark (valid : shared.Valid) (free : shared.lock = none) {root : Nat} (thread : ι)
    (strong : root ∈ shared.domain.strong) (started : root ∈ shared.started) :
    ∃ domain nodes, shared.domain.cancelNodes root = .ok (domain, nodes) ∧
      { shared with
        domain, lock := some (thread, nodes), marked := root :: shared.marked }.Valid ∧
      Evolves shared { shared with
        domain, lock := some (thread, nodes), marked := root :: shared.marked } := by
  obtain ⟨world, nodes, taken, graphed, reference, mem_nodes⟩ :=
    valid.graphed.cancelNodes strong
  have noneOwed : shared.pending = [] := by simp [pending, free]
  refine ⟨_, nodes, taken, ?_, ?_⟩
  · exact {
      graphed := graphed
      marked_born := by
        intro other member
        dsimp only [Shared.reference]
        rw [reference]
        rcases List.mem_cons.1 member with rfl | member
        · exact valid.graphed.born strong
        · exact valid.marked_born other member
      cancelled_iff := by
        intro node
        dsimp only [Shared.reference]
        rw [reference]
        constructor
        · rintro (old | path)
          · obtain ⟨other, member, path⟩ := (valid.cancelled_iff node).1 old
            exact ⟨other, List.mem_cons_of_mem _ member, path⟩
          · exact ⟨root, List.mem_cons_self .., path⟩
        · rintro ⟨other, member, path⟩
          rcases List.mem_cons.1 member with rfl | member
          · exact .inr path
          · exact .inl ((valid.cancelled_iff node).2 ⟨other, member, path⟩)
      flag_cancelled := by
        intro node flag
        dsimp only [Shared.reference]
        rw [reference]
        exact .inl (valid.flag_cancelled node flag)
      visited := by
        intro node member marked
        by_cases old : shared.reference.cancelled node
        · exact .inl ((valid.visited node member old).resolve_right (by simp [noneOwed]))
        · exact .inr ((mem_nodes node).2
            ⟨valid.graphed.strong_live node member, old, marked⟩)
      owed := fun node member => ((mem_nodes node).1 member).2.2
      advanced_flagged := by
        intro other member node isStrong path
        dsimp only [Shared.reference] at path
        rw [reference] at path
        exact valid.advanced_flagged other member node isStrong path
      advanced_marked := fun other member =>
        List.mem_cons_of_mem _ (valid.advanced_marked other member)
      marked_started := by
        intro other member
        rcases List.mem_cons.1 member with rfl | member
        · exact started
        · exact valid.marked_started other member
      returned_advanced := valid.returned_advanced
      epoch := valid.epoch
      borrowed := valid.borrowed }
  · exact {
      born := by
        dsimp only [Shared.reference]
        rw [reference]
        rfl
      descends := by
        intro source node _
        dsimp only [Shared.reference]
        rw [reference]
        rfl
      flags := fun _ _ flag => flag
      marked := fun _ member => List.mem_cons_of_mem _ member
      started := fun _ member => member
      returned := fun _ member => member
      advanced := .inl ⟨rfl, rfl⟩ }

/-- A visit sets at most the flag of its node. -/
theorem flags_visit (domain : Domain) (node other : Nat) :
    (domain.visit node).flags other = true ↔
      domain.flags other = true ∨ other = node ∧ node ∈ domain.strong := by
  unfold Domain.visit
  split
  next strong =>
    by_cases equal : other = node
    · simp [equal, strong]
    · simp [equal]
  next weak => simp [weak]

theorem visit_strong (domain : Domain) (node : Nat) :
    (domain.visit node).strong = domain.strong ∧ (domain.visit node).world = domain.world ∧
      (domain.visit node).epoch = domain.epoch := by
  unfold Domain.visit
  split <;> exact ⟨rfl, rfl, rfl⟩

/-- The cancellation visits the next node. -/
theorem visit (valid : shared.Valid) {thread : ι} {node : Nat} {nodes : List Nat}
    (held : shared.lock = some (thread, node :: nodes)) :
    { shared with domain := shared.domain.visit node, lock := some (thread, nodes) }.Valid ∧
      Evolves shared { shared with
        domain := shared.domain.visit node, lock := some (thread, nodes) } := by
  obtain ⟨strong, world, epoch⟩ := visit_strong shared.domain node
  have pending : shared.pending = node :: nodes := by simp [Shared.pending, held]
  refine ⟨?_, ?_⟩
  · exact {
      graphed := valid.graphed.visit node
      marked_born := by
        dsimp only [Shared.reference]
        rw [world]
        exact valid.marked_born
      cancelled_iff := by
        dsimp only [Shared.reference]
        rw [world]
        exact valid.cancelled_iff
      flag_cancelled := by
        intro other flag
        dsimp only [Shared.reference]
        rw [world]
        rcases (flags_visit _ _ _).1 flag with flag | ⟨rfl, -⟩
        · exact valid.flag_cancelled other flag
        · exact valid.owed other (by simp [pending])
      visited := by
        intro other isStrong marked
        dsimp only [Shared.reference] at isStrong marked ⊢
        rw [strong] at isStrong
        rw [world] at marked
        rw [flags_visit]
        rcases valid.visited other isStrong marked with flag | owed
        · exact .inl (.inl flag)
        · rw [pending] at owed
          rcases List.mem_cons.1 owed with rfl | owed
          · exact .inl (.inr ⟨rfl, isStrong⟩)
          · exact .inr owed
      owed := by
        intro other owed
        dsimp only [Shared.reference]
        rw [world]
        refine valid.owed other ?_
        rw [pending]
        exact List.mem_cons_of_mem _ owed
      advanced_flagged := by
        intro root member other isStrong path
        dsimp only [Shared.reference] at isStrong path ⊢
        rw [strong] at isStrong
        rw [world] at path
        exact (flags_visit _ _ _).2 (.inl (valid.advanced_flagged root member other isStrong path))
      advanced_marked := valid.advanced_marked
      marked_started := valid.marked_started
      returned_advanced := valid.returned_advanced
      epoch := epoch.trans valid.epoch
      borrowed := by
        dsimp only
        rw [strong]
        exact valid.borrowed }
  · exact {
      born := by
        dsimp only [Shared.reference]
        rw [world]
      descends := by
        intro source other _
        dsimp only [Shared.reference]
        rw [world]
      flags := fun other _ flag => (flags_visit _ _ _).2 (.inl flag)
      marked := fun _ member => member
      started := fun _ member => member
      returned := fun _ member => member
      advanced := .inl ⟨rfl, epoch⟩ }

/-- With every visit made, the cancellation advances the epoch. -/
theorem advance (valid : shared.Valid) {thread : ι} {root : Nat}
    (held : shared.lock = some (thread, [])) (marked : root ∈ shared.marked) :
    { shared with
      domain := { shared.domain with epoch := shared.domain.epoch + 1 }
      advanced := root :: shared.advanced }.Valid ∧
    Evolves shared { shared with
      domain := { shared.domain with epoch := shared.domain.epoch + 1 }
      advanced := root :: shared.advanced } := by
  have noneOwed : shared.pending = [] := by simp [pending, held]
  refine ⟨?_, { Evolves.refl shared with advanced := .inr ⟨root, rfl⟩ }⟩
  exact {
    graphed := ⟨valid.graphed.agrees, valid.graphed.handle, valid.graphed.strong_live,
      valid.graphed.leaving_live, valid.graphed.retired_live, valid.graphed.nodup⟩
    marked_born := valid.marked_born
    cancelled_iff := valid.cancelled_iff
    flag_cancelled := valid.flag_cancelled
    visited := valid.visited
    owed := valid.owed
    advanced_flagged := by
      intro other member node strong path
      rcases List.mem_cons.1 member with rfl | member
      · exact (valid.visited node strong ((valid.cancelled_iff node).2
          ⟨other, marked, path⟩)).resolve_right (by simp [noneOwed])
      · exact valid.advanced_flagged other member node strong path
    advanced_marked := by
      intro other member
      rcases List.mem_cons.1 member with rfl | member
      · exact marked
      · exact valid.advanced_marked other member
    marked_started := valid.marked_started
    returned_advanced := fun other member =>
      List.mem_cons_of_mem _ (valid.returned_advanced other member)
    epoch := by
      have advanced : 1 + (root :: shared.advanced).length = 1 + shared.advanced.length + 1 := rfl
      dsimp only
      rw [valid.epoch, advanced, BitVec.ofNat_add (1 + shared.advanced.length)]
      rfl
    borrowed := valid.borrowed }

/-- The cancellation leaves the lock. -/
theorem unlock (valid : shared.Valid) {thread : ι} (held : shared.lock = some (thread, [])) :
    { shared with lock := none }.Valid ∧ Evolves shared { shared with lock := none } :=
  ⟨{ valid with
     visited := by
       intro node strong marked
       have noneOwed : shared.pending = [] := by simp [pending, held]
       exact .inl ((valid.visited node strong marked).resolve_right (by simp [noneOwed]))
     owed := nofun },
   { Evolves.refl shared with }⟩

/-- The call of `cancel` returns. -/
theorem finish (valid : shared.Valid) {root : Nat} (advanced : root ∈ shared.advanced) :
    { shared with returned := root :: shared.returned }.Valid ∧
      Evolves shared { shared with returned := root :: shared.returned } :=
  ⟨{ valid with
     returned_advanced := by
       intro other member
       rcases List.mem_cons.1 member with rfl | member
       · exact advanced
       · exact valid.returned_advanced other member },
   { Evolves.refl shared with
     returned := fun _ member => List.mem_cons_of_mem _ member }⟩

/-- The last strong reference of a node goes. -/
theorem release (valid : shared.Valid) {node : Nat} (strong : node ∈ shared.domain.strong)
    (unused : ∀ entry ∈ shared.borrowed, entry.2 ≠ node) :
    { shared with domain := { shared.domain with
      strong := shared.domain.strong.erase node
      leaving := Insert.insert node shared.domain.leaving } }.Valid ∧
    Evolves shared { shared with domain := { shared.domain with
      strong := shared.domain.strong.erase node
      leaving := Insert.insert node shared.domain.leaving } } :=
  ⟨{ graphed := valid.graphed.release strong
     marked_born := valid.marked_born
     cancelled_iff := valid.cancelled_iff
     flag_cancelled := valid.flag_cancelled
     visited := fun other member => valid.visited other (Finset.mem_of_mem_erase member)
     owed := valid.owed
     advanced_flagged := fun root member other isStrong =>
       valid.advanced_flagged root member other (Finset.mem_of_mem_erase isStrong)
     advanced_marked := valid.advanced_marked
     marked_started := valid.marked_started
     returned_advanced := valid.returned_advanced
     epoch := valid.epoch
     borrowed := fun entry member =>
       Finset.mem_erase.2 ⟨unused entry member, valid.borrowed entry member⟩ },
   { Evolves.refl shared with }⟩

/-- A dropped node is retired. -/
theorem retire (valid : shared.Valid) {node : Nat} (leaves : node ∈ shared.domain.leaving) :
    ∃ domain, shared.domain.retire node = .ok domain ∧ { shared with domain }.Valid ∧
      Evolves shared { shared with domain } := by
  obtain ⟨world, retired, retiredOk, graphed, reference⟩ := valid.graphed.retire leaves
  refine ⟨_, retiredOk, ?_, ?_⟩
  · exact {
      graphed := graphed
      marked_born := by
        dsimp only [Shared.reference]
        rw [reference]
        exact valid.marked_born
      cancelled_iff := by
        dsimp only [Shared.reference]
        rw [reference]
        exact valid.cancelled_iff
      flag_cancelled := by
        dsimp only [Shared.reference]
        rw [reference]
        exact valid.flag_cancelled
      visited := by
        dsimp only [Shared.reference]
        rw [reference]
        exact valid.visited
      owed := by
        dsimp only [Shared.reference]
        rw [reference]
        exact valid.owed
      advanced_flagged := by
        dsimp only [Shared.reference]
        rw [reference]
        exact valid.advanced_flagged
      advanced_marked := valid.advanced_marked
      marked_started := valid.marked_started
      returned_advanced := valid.returned_advanced
      epoch := valid.epoch
      borrowed := valid.borrowed }
  · exact {
      born := by
        dsimp only [Shared.reference]
        rw [reference]
      descends := by
        intro source other _
        dsimp only [Shared.reference]
        rw [reference]
      flags := fun _ _ flag => flag
      marked := fun _ member => member
      started := fun _ member => member
      returned := fun _ member => member
      advanced := .inl ⟨rfl, rfl⟩ }

/-- A thread keeps other nodes alive than before. -/
theorem borrow [DecidableEq ι] (valid : shared.Valid) (thread : ι) {nodes : List Nat}
    (strong : ∀ node ∈ nodes, node ∈ shared.domain.strong) :
    { shared with borrowed := Inherited.borrow thread nodes shared.borrowed }.Valid :=
  { valid with
    borrowed := by
      intro entry member
      rcases List.mem_append.1 member with member | member
      · obtain ⟨node, isNode, rfl⟩ := List.mem_map.1 member
        exact strong node isNode
      · exact valid.borrowed entry (List.mem_of_mem_filter member) }

end Shared.Valid

end VThread.Checkpoint

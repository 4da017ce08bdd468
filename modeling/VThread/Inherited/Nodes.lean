import VThread.Inherited.Frame

/-!
# Nodes come, are cancelled and go

The locked sections on the graph keep the flags of the nodes equal to those of the
reference.
-/

namespace VThread.Cancellation.World

variable {ω ν : Type} {world next : World ω} {handles : List ν}

theorem step_insert {parents : List Nat} {flag : ω}
    (stepped : world.step (.insert parents flag : Op ω ν) = .ok (next, handles)) :
    next.reference = world.reference.insert parents ∧
      next.live = Insert.insert world.graph.next world.live ∧
      next.handle = Function.update world.handle world.graph.next (some flag) := by
  obtain ⟨⟨id, graph, cancelled⟩, inserted, equal⟩ := bind_eq_ok.1 stepped
  obtain ⟨⟨id', graph'⟩, reserved, rest⟩ := bind_eq_ok.1 inserted
  obtain ⟨_, -, reserved⟩ := bind_eq_ok.1 reserved
  cases reserved
  obtain ⟨⟨graph'', cancelled'⟩, -, rest⟩ := bind_eq_ok.1 rest
  cases rest
  cases equal
  exact ⟨rfl, rfl, rfl⟩

theorem step_cancel {root : Nat} {upgrade : ω → Option ν}
    (stepped : world.step (.cancel root upgrade) = .ok (next, handles)) :
    next.reference = world.reference.cancel root ∧ next.live = world.live ∧
      next.handle = world.handle := by
  obtain ⟨_, -, equal⟩ := bind_eq_ok.1 stepped
  cases equal
  exact ⟨rfl, rfl, rfl⟩

theorem step_remove {id : Nat}
    (stepped : world.step (.remove id : Op ω ν) = .ok (next, handles)) :
    next.reference = world.reference ∧ next.live = world.live.erase id ∧
      next.handle = world.handle := by
  obtain ⟨_, -, equal⟩ := bind_eq_ok.1 stepped
  cases equal
  exact ⟨rfl, rfl, rfl⟩

end VThread.Cancellation.World

namespace VThread.Cancellation

theorem Graph.cancelled_iff_flag {ω : Type} {graph : Graph ω} {id : Nat} {flag : Bool}
    (read : graph.isCancelled id = .ok flag) : graph.Cancelled id ↔ flag = true := by
  obtain ⟨entry, found, equal⟩ := bind_eq_ok.1 read
  cases equal
  rw [Graph.index] at found
  cases at_id : graph.nodes id with
  | none =>
      rw [at_id] at found
      cases found
  | some other =>
      rw [at_id] at found
      cases found
      exact Graph.cancelled_iff at_id

namespace Reference

variable {reference : Reference} {parents : List Nat}

theorem insert_cancelled_self : (reference.insert parents).cancelled reference.count ↔
    ∃ parent ∈ parents, reference.cancelled parent :=
  iff_of_eq (Function.update_self ..)

theorem insert_cancelled_of_ne {node : Nat} (ne : node ≠ reference.count) :
    (reference.insert parents).cancelled node ↔ reference.cancelled node :=
  iff_of_eq (Function.update_of_ne ne ..)

end Reference

end VThread.Cancellation

namespace VThread.Inherited

open VThread.Lib VThread.Wait VThread.Cancellation

variable {ι τ ρ η : Type} {domain domain' : Domain ι τ ρ η}

/-- The part of the invariant about the graph. -/
abbrev Domain.Graphed (domain : Domain ι τ ρ η) : Prop :=
  GraphInv domain.world domain.strong domain.leaving domain.retired domain.cancelled
    domain.requested domain.returned

theorem Domain.Graphed.next_eq (inv : domain.Graphed) :
    domain.world.graph.next = domain.world.reference.count := inv.agrees.next_eq

theorem Domain.Graphed.fresh (inv : domain.Graphed) :
    domain.world.graph.next ∉ domain.world.live := by
  intro live
  have born := born_of_live inv.agrees live
  rw [Domain.Born, inv.next_eq] at born
  exact born.false

/-! ## Insertion -/

/-- An insertion creates one fresh node, whose flag is the one of the reference. -/
theorem insert_spec [DecidableEq ι] (inv : domain.Graphed) {parents : List Nat}
    (known : ∀ parent ∈ parents, parent ∈ domain.strong)
    (inserted : domain.insert parents = .ok domain') :
    domain'.Graphed ∧ ∃ world cancelled, domain' = { domain with
        world
        strong := Insert.insert domain.world.reference.count domain.strong
        cancelled := Function.update domain.cancelled domain.world.reference.count cancelled
        slots := Function.update domain.slots domain.world.reference.count .new
        subscribed := Function.update domain.subscribed domain.world.reference.count none } ∧
      world.reference.count = domain.world.reference.count + 1 := by
  obtain ⟨_, -, rest⟩ := bind_eq_ok.1 inserted
  obtain ⟨⟨world, handles⟩, stepped, rest⟩ := bind_eq_ok.1 rest
  obtain ⟨cancelled, flagOk, equal⟩ := bind_eq_ok.1 rest
  have fresh := inv.fresh
  have permitted : domain.world.Permits (.insert parents domain.world.graph.next : Op Nat Nat) :=
    fun parent member => inv.strong_live parent (known parent member)
  obtain ⟨_, _, stepped', agrees, -⟩ :=
    inv.agrees.step permitted (World.hasRoom_of_step inv.agrees stepped)
  rw [stepped] at stepped'
  cases stepped'
  obtain ⟨reference, live, handle⟩ := World.step_insert stepped
  cases equal
  rw [inv.next_eq] at fresh live handle ⊢
  have born : ∀ node ∈ domain.world.live, node ≠ domain.world.reference.count := by
    rintro node member rfl
    exact fresh member
  have ordered := inv.agrees.ordered
  have below : ∀ parent ∈ parents, parent < domain.world.reference.count :=
    fun parent member => born_of_live inv.agrees (permitted parent member)
  refine ⟨?_, world, cancelled, rfl, by rw [reference]; rfl⟩
  refine {
    agrees := agrees
    handle := fun node member => ?_
    strong_live := fun node member => ?_
    leaving_live := fun node flag leaving => ?_
    retired_live := fun node member => ?_
    nodup := inv.nodup
    flags := fun node member => ?_
    requested_marks := fun root member => ?_
    returned_requested := inv.returned_requested }
  · dsimp only at member ⊢
    rw [live, Finset.mem_insert] at member
    rw [handle]
    rcases member with rfl | member
    · rw [Function.update_self]
    · rw [Function.update_of_ne (born node member)]
      exact inv.handle node member
  · dsimp only at member ⊢
    rw [live]
    rw [Finset.mem_insert] at member ⊢
    exact member.imp_right (inv.strong_live node)
  · obtain ⟨isLive, weak, unretired⟩ := inv.leaving_live node flag leaving
    dsimp only
    rw [live]
    refine ⟨Finset.mem_insert_of_mem isLive, ?_, unretired⟩
    rw [Finset.mem_insert]
    exact fun member => member.elim (born node isLive) weak
  · obtain ⟨isLive, weak⟩ := inv.retired_live node member
    dsimp only
    rw [live]
    refine ⟨Finset.mem_insert_of_mem isLive, ?_⟩
    rw [Finset.mem_insert]
    exact fun member => member.elim (born node isLive) weak
  · dsimp only at member ⊢
    rw [Finset.mem_insert] at member
    by_cases equal : node = domain.world.reference.count
    · subst equal
      rw [Function.update_self]
      have isLive : domain.world.reference.count ∈ world.live := by
        rw [live]
        exact Finset.mem_insert_self ..
      rw [← agrees.cancelled _ isLive]
      rw [inv.next_eq] at flagOk
      exact (Graph.cancelled_iff_flag flagOk).symm
    · rw [Function.update_of_ne equal, reference, Reference.insert_cancelled_of_ne equal]
      exact inv.flags node (member.resolve_left equal)
  · obtain ⟨bound, marks⟩ := inv.requested_marks root member
    dsimp only
    rw [reference]
    refine ⟨Nat.lt_succ_of_lt bound, fun node path => ?_⟩
    by_cases equal : node = domain.world.reference.count
    · subst equal
      rw [Reference.descends_insert_self ordered below] at path
      rw [Reference.insert_cancelled_self]
      rcases path with equal | ⟨parent, member, path⟩
      · exact (bound.ne equal).elim
      · exact ⟨parent, member, marks parent path⟩
    · rw [Reference.descends_insert ordered equal] at path
      rw [Reference.insert_cancelled_of_ne equal]
      exact marks node path

/-! ## Cancellation -/

/-- A cancellation marks and returns the strong descendants of its root that were not
cancelled before. -/
theorem cancelNodes_spec [DecidableEq ι] (inv : domain.Graphed) {thread : ι} {root : Nat}
    {nodes : List Nat} (strong : root ∈ domain.strong)
    (taken : domain.cancelNodes thread root = .ok (domain', nodes)) :
    domain'.Graphed ∧ (∀ node ∈ nodes, node ∈ domain.strong) ∧ ∃ world, domain' = { domain with
        world
        cancelled := fun node => domain.cancelled node || decide (node ∈ nodes)
        debts := fun node => if node ∈ nodes then some thread else domain.debts node
        requested := root :: domain.requested } ∧
      world.reference.count = domain.world.reference.count := by
  obtain ⟨⟨world, handles⟩, stepped, equal⟩ := bind_eq_ok.1 taken
  obtain ⟨_, _, stepped', agrees, turned, -, turned_iff, nodes_eq⟩ :=
    inv.agrees.cancel domain.upgrade (inv.strong_live root strong)
  rw [stepped] at stepped'
  cases stepped'
  obtain ⟨reference, live, handle⟩ := World.step_cancel stepped
  cases equal
  have returned : ∀ node, node ∈ nodes ↔ node ∈ domain.strong ∧
      ¬ domain.world.reference.cancelled node ∧ world.reference.cancelled node := by
    intro node
    have upgraded : ∀ id ∈ domain.world.live, ((domain.world.handle id).bind domain.upgrade =
        some node ↔ id = node ∧ node ∈ domain.strong) := by
      intro id member
      rw [inv.handle id member, Option.bind_some, Domain.upgrade]
      split
      · rename_i isStrong
        rw [Option.some.injEq]
        exact ⟨fun equal => ⟨equal, equal ▸ isStrong⟩, And.left⟩
      · rename_i weak
        exact ⟨nofun, fun both => (weak (both.1 ▸ both.2)).elim⟩
    rw [nodes_eq, List.mem_filterMap]
    constructor
    · rintro ⟨id, member, upgrades⟩
      obtain ⟨isLive, unmarked, marked⟩ := (turned_iff id).1 member
      obtain ⟨rfl, isStrong⟩ := (upgraded id isLive).1 upgrades
      refine ⟨isStrong, (inv.agrees.cancelled id isLive).not.1 unmarked, ?_⟩
      rw [← agrees.cancelled id (live ▸ isLive)]
      exact marked
    · rintro ⟨isStrong, unmarked, marked⟩
      have isLive := inv.strong_live node isStrong
      refine ⟨node, (turned_iff node).2 ⟨isLive, (inv.agrees.cancelled node isLive).not.2
        unmarked, ?_⟩, (upgraded node isLive).2 ⟨rfl, isStrong⟩⟩
      rw [agrees.cancelled node (live ▸ isLive)]
      exact marked
  refine ⟨?_, fun node member => ((returned node).1 member).1, world, rfl, by rw [reference]; rfl⟩
  refine {
    agrees := agrees
    handle := fun node member => ?_
    strong_live := fun node member => ?_
    leaving_live := fun node flag leaving => ?_
    retired_live := fun node member => ?_
    nodup := inv.nodup
    flags := fun node member => ?_
    requested_marks := fun other member => ?_
    returned_requested := fun other member => ?_ }
  · dsimp only at member ⊢
    rw [handle]
    exact inv.handle node (live ▸ member)
  · dsimp only
    rw [live]
    exact inv.strong_live node member
  · dsimp only
    rw [live]
    exact inv.leaving_live node flag leaving
  · dsimp only
    rw [live]
    exact inv.retired_live node member
  · dsimp only
    have monotone : domain.world.reference.cancelled node → world.reference.cancelled node := by
      rw [reference]
      exact .inl
    rw [Bool.or_eq_true, inv.flags node member, decide_eq_true_eq, returned]
    tauto
  · dsimp only
    rw [reference]
    rcases List.mem_cons.1 member with rfl | member
    · exact ⟨born_of_live inv.agrees (inv.strong_live other strong), fun node path => .inr path⟩
    · obtain ⟨bound, marks⟩ := inv.requested_marks other member
      exact ⟨bound, fun node path => .inl (marks node path)⟩
  · exact List.mem_cons_of_mem _ (inv.returned_requested other member)

/-! ## The drop of a node -/

theorem release_graphed (inv : domain.Graphed) {node : Nat} (strong : node ∈ domain.strong) :
    ({ domain with
      strong := domain.strong.erase node
      leaving := Function.update domain.leaving node (some false) } :
        Domain ι τ ρ η).Graphed where
  agrees := inv.agrees
  handle := inv.handle
  strong_live other member := inv.strong_live other (Finset.mem_of_mem_erase member)
  leaving_live other flag leaving := by
    by_cases equal : other = node
    · subst equal
      refine ⟨inv.strong_live other strong, Finset.notMem_erase other _, fun retired => ?_⟩
      exact (inv.retired_live other retired).2 strong
    · dsimp only at leaving
      rw [Function.update_of_ne equal] at leaving
      obtain ⟨isLive, weak, unretired⟩ := inv.leaving_live other flag leaving
      exact ⟨isLive, fun member => weak (Finset.mem_of_mem_erase member), unretired⟩
  retired_live other member := by
    obtain ⟨isLive, weak⟩ := inv.retired_live other member
    exact ⟨isLive, fun member => weak (Finset.mem_of_mem_erase member)⟩
  nodup := inv.nodup
  flags other member := inv.flags other (Finset.mem_of_mem_erase member)
  requested_marks := inv.requested_marks
  returned_requested := inv.returned_requested

theorem forget_graphed (inv : domain.Graphed) {node : Nat} {flag : Bool}
    (leaves : domain.leaving node = some flag) (waits : Nat → Option FallbackWait) :
    ({ domain with
      leaving := Function.update domain.leaving node (some true)
      fallbackWaits := waits } : Domain ι τ ρ η).Graphed :=
  { inv with
    leaving_live := by
      intro other later leaving
      by_cases equal : other = node
      · subst equal
        exact inv.leaving_live other flag leaves
      · dsimp only at leaving
        rw [Function.update_of_ne equal] at leaving
        exact inv.leaving_live other later leaving }

/-- The retirement of live tokens removes exactly them. -/
theorem removeAll_spec {retired : List Nat} {world : World Nat} (agrees : world.Agrees)
    (live : ∀ node ∈ retired, node ∈ world.live) (nodup : retired.Nodup) :
    ∃ next, retired.foldlM
        (fun world node => Prod.fst <$> world.step (.remove node : Op Nat Nat)) world =
          (.ok next : Checked (World Nat)) ∧
      next.Agrees ∧ next.reference = world.reference ∧ next.handle = world.handle ∧
      ∀ node, node ∈ next.live ↔ node ∈ world.live ∧ node ∉ retired := by
  induction retired generalizing world with
  | nil => exact ⟨world, rfl, agrees, rfl, rfl, by simp⟩
  | cons first rest ih =>
      obtain ⟨next, stepped, agrees'⟩ := agrees.remove Nat (live first (List.mem_cons_self ..))
      obtain ⟨reference, live', handle⟩ := World.step_remove stepped
      obtain ⟨notIn, nodup⟩ := List.nodup_cons.1 nodup
      have remaining : ∀ node ∈ rest, node ∈ next.live := by
        intro node member
        rw [live', Finset.mem_erase]
        refine ⟨?_, live node (List.mem_cons_of_mem _ member)⟩
        rintro rfl
        exact notIn member
      obtain ⟨last, removed, agrees'', reference', handle', live''⟩ := ih agrees' remaining nodup
      refine ⟨last, ?_, agrees'', reference'.trans reference, handle'.trans handle, ?_⟩
      · rw [List.foldlM_cons, stepped]
        exact removed
      · intro node
        rw [live'', live', Finset.mem_erase, List.mem_cons, not_or]
        tauto

/-- The retirement of a node never fails. -/
theorem retire_spec (inv : domain.Graphed) {node : Nat} {flag : Bool}
    (leaves : domain.leaving node = some flag) :
    ∃ world retired, domain.retire node = .ok { domain with
        world, leaving := Function.update domain.leaving node none, retired } ∧
      ({ domain with world, leaving := Function.update domain.leaving node none, retired } :
        Domain ι τ ρ η).Graphed ∧ world.reference = domain.world.reference := by
  obtain ⟨isLive, weak, unretired⟩ := inv.leaving_live node flag leaves
  have others : ∀ other later, Function.update domain.leaving node none other = some later →
      other ≠ node ∧ domain.leaving other = some later := by
    intro other later leaving
    by_cases equal : other = node
    · rw [equal, Function.update_self] at leaving
      cases leaving
    · rw [Function.update_of_ne equal] at leaving
      exact ⟨equal, leaving⟩
  have nodup : (domain.retired ++ [node]).Nodup := by
    rw [List.nodup_append]
    refine ⟨inv.nodup, List.nodup_singleton node, ?_⟩
    intro other member last isLast equal
    rw [equal, List.mem_singleton.1 isLast] at member
    exact unretired member
  have live : ∀ other ∈ domain.retired ++ [node], other ∈ domain.world.live ∧
      other ∉ domain.strong := by
    intro other member
    rcases List.mem_append.1 member with member | member
    · exact inv.retired_live other member
    · rw [List.mem_singleton.1 member]
      exact ⟨isLive, weak⟩
  by_cases batch : (domain.retired ++ [node]).length < retirementBatch
  · refine ⟨domain.world, domain.retired ++ [node], by rw [Domain.retire, if_pos batch]; rfl,
      ?_, rfl⟩
    exact { inv with
      leaving_live := by
        intro other later leaving
        obtain ⟨ne, leaving⟩ := others other later leaving
        obtain ⟨isLive, weak, unretired⟩ := inv.leaving_live other later leaving
        refine ⟨isLive, weak, fun member => ?_⟩
        exact (List.mem_append.1 member).elim unretired fun last => ne (List.mem_singleton.1 last)
      retired_live := live
      nodup := nodup }
  · obtain ⟨world, removed, agrees, reference, handle, live'⟩ :=
      removeAll_spec inv.agrees (fun other member => (live other member).1) nodup
    refine ⟨world, [], by rw [Domain.retire, if_neg batch, removed]; rfl, ?_, reference⟩
    refine {
      agrees := agrees
      handle := fun other member => ?_
      strong_live := fun other member => ?_
      leaving_live := fun other later leaving => ?_
      retired_live := nofun
      nodup := List.nodup_nil
      flags := fun other member => ?_
      requested_marks := fun root member => ?_
      returned_requested := inv.returned_requested }
    · dsimp only at member ⊢
      rw [handle]
      exact inv.handle other ((live' other).1 member).1
    · exact (live' other).2 ⟨inv.strong_live other member,
        fun retired => (live other retired).2 member⟩
    · obtain ⟨ne, leaving⟩ := others other later leaving
      obtain ⟨isLive, weak, unretired⟩ := inv.leaving_live other later leaving
      refine ⟨(live' other).2 ⟨isLive, fun member => ?_⟩, weak, nofun⟩
      exact (List.mem_append.1 member).elim unretired fun last => ne (List.mem_singleton.1 last)
    · dsimp only
      rw [reference]
      exact inv.flags other member
    · dsimp only
      rw [reference]
      exact inv.requested_marks root member

end VThread.Inherited

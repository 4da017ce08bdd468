import VThread.Cancellation.Invariant

/-!
# Effects of the topology rewrites

Each rewrite returns, and its result is described by the link relation and by what
it leaves untouched.  `erase` bypasses an entry; `mergeRelays` folds one relay into
another.
-/

namespace VThread.Cancellation

open VThread.Lib

variable {ω : Type}

namespace Graph

/-! ## Link updates -/

/-- `graph'` differs from `graph` in links only. -/
structure LinksOnly (graph graph' : Graph ω) : Prop where
  next_eq : graph'.next = graph.next
  relays_eq : graph'.relays = graph.relays
  index_eq : graph'.relayIndex = graph.relayIndex
  core : ∀ id, graph'.coreOf id = graph.coreOf id

theorem LinksOnly.refl (graph : Graph ω) : LinksOnly graph graph :=
  ⟨rfl, rfl, rfl, fun _ => rfl⟩

theorem LinksOnly.trans {first second third : Graph ω} (left : LinksOnly first second)
    (right : LinksOnly second third) : LinksOnly first third :=
  ⟨right.next_eq.trans left.next_eq, right.relays_eq.trans left.relays_eq,
    right.index_eq.trans left.index_eq, fun id => (right.core id).trans (left.core id)⟩

theorem LinksOnly.present {graph graph' : Graph ω} (same : LinksOnly graph graph') {id : Nat}
    (present : ∃ entry, graph.nodes id = some entry) :
    ∃ entry, graph'.nodes id = some entry := by
  obtain ⟨entry, found⟩ := present
  have core := same.core id
  rw [coreOf_eq_some.2 ⟨entry, found, rfl⟩] at core
  obtain ⟨entry', found', -⟩ := coreOf_eq_some.1 core
  exact ⟨entry', found'⟩

theorem coreOf_put {graph : Graph ω} {id : Nat} {entry : Entry ω} (query : Nat) :
    (graph.put id entry).coreOf query =
      if query = id then some (entry.kind, entry.flag, entry.cancelled, entry.signature)
      else graph.coreOf query := by
  by_cases equal : query = id
  · subst equal
    simp [coreOf, put]
  · simp [coreOf, put, equal]

theorem parentsOf_put {graph : Graph ω} {id : Nat} {entry : Entry ω} :
    (graph.put id entry).parentsOf = Function.update graph.parentsOf id entry.parents := by
  funext query
  by_cases equal : query = id
  · subst equal
    simp [parentsOf, put]
  · simp [parentsOf, put, equal]

theorem childrenOf_put {graph : Graph ω} {id : Nat} {entry : Entry ω} :
    (graph.put id entry).childrenOf = Function.update graph.childrenOf id entry.children := by
  funext query
  by_cases equal : query = id
  · subst equal
    simp [childrenOf, put]
  · simp [childrenOf, put, equal]

/-- Changing the links of one present entry. -/
theorem modify_links (graph : Graph ω) (id : Nat) (message : String)
    (present : ∃ entry, graph.nodes id = some entry) (parents children : IdSet → IdSet) :
    ∃ graph', graph.modify id (fun entry =>
        { entry with parents := parents entry.parents, children := children entry.children })
        message = .ok graph' ∧
      LinksOnly graph graph' ∧
      graph'.parentsOf = Function.update graph.parentsOf id (parents (graph.parentsOf id)) ∧
      graph'.childrenOf =
        Function.update graph.childrenOf id (children (graph.childrenOf id)) := by
  obtain ⟨entry, found⟩ := present
  refine ⟨graph.put id { entry with
      parents := parents entry.parents, children := children entry.children },
    by simp only [modify, found, expect_some, ok_bind]; rfl, ⟨rfl, rfl, rfl, ?_⟩, ?_, ?_⟩
  · intro query
    rw [coreOf_put]
    split
    next equal =>
      subst equal
      exact (coreOf_eq_some.2 ⟨entry, found, rfl⟩).symm
    next => rfl
  · rw [parentsOf_put, parentsOf_eq found]
  · rw [childrenOf_put, childrenOf_eq found]

/-- Changing the links of several present entries, one after the other. -/
theorem foldlM_links (step : Graph ω → Nat → Checked (Graph ω))
    (parents children : IdSet → IdSet)
    (stepSpec : ∀ graph id, (∃ entry, graph.nodes id = some entry) →
      ∃ graph', step graph id = .ok graph' ∧ LinksOnly graph graph' ∧
        graph'.parentsOf = Function.update graph.parentsOf id (parents (graph.parentsOf id)) ∧
        graph'.childrenOf =
          Function.update graph.childrenOf id (children (graph.childrenOf id)))
    {ids : List Nat} (nodup : ids.Nodup) (graph : Graph ω)
    (present : ∀ id ∈ ids, ∃ entry, graph.nodes id = some entry) :
    ∃ graph', ids.foldlM step graph = .ok graph' ∧ LinksOnly graph graph' ∧
      (∀ id, graph'.parentsOf id =
        if id ∈ ids then parents (graph.parentsOf id) else graph.parentsOf id) ∧
      ∀ id, graph'.childrenOf id =
        if id ∈ ids then children (graph.childrenOf id) else graph.childrenOf id := by
  induction ids generalizing graph with
  | nil => exact ⟨graph, rfl, .refl graph, by simp, by simp⟩
  | cons head tail ih =>
      obtain ⟨headNotMem, tailNodup⟩ := List.nodup_cons.1 nodup
      obtain ⟨next, stepped, same, nextParents, nextChildren⟩ :=
        stepSpec graph head (present head (by simp))
      obtain ⟨graph', folded, same', foldParents, foldChildren⟩ :=
        ih tailNodup next fun id member =>
          same.present (present id (by simp [member]))
      refine ⟨graph', by rw [List.foldlM_cons, stepped, ok_bind, folded],
        same.trans same', ?_, ?_⟩
      · intro id
        rw [foldParents, nextParents]
        by_cases equal : id = head
        · subst equal
          simp [headNotMem]
        · simp [equal]
      · intro id
        rw [foldChildren, nextChildren]
        by_cases equal : id = head
        · subst equal
          simp [headNotMem]
        · simp [equal]

theorem foldlM_removeChild (graph : Graph ω) {ids : List Nat} (nodup : ids.Nodup)
    (child : Nat) (present : ∀ id ∈ ids, ∃ entry, graph.nodes id = some entry) :
    ∃ graph', ids.foldlM (fun graph parent => graph.removeChild parent child) graph =
        .ok graph' ∧
      LinksOnly graph graph' ∧ (∀ id, graph'.parentsOf id = graph.parentsOf id) ∧
      ∀ id, graph'.childrenOf id =
        if id ∈ ids then (graph.childrenOf id).remove child else graph.childrenOf id := by
  have spec := foldlM_links (fun graph parent => graph.removeChild parent child)
    (fun set => set) (fun set => set.remove child)
    (fun graph id present =>
      modify_links graph id _ present (fun set => set) fun set => set.remove child)
    nodup graph present
  simpa using spec

theorem foldlM_removeParent (graph : Graph ω) {ids : List Nat} (nodup : ids.Nodup)
    (parent : Nat) (present : ∀ id ∈ ids, ∃ entry, graph.nodes id = some entry) :
    ∃ graph', ids.foldlM (fun graph child => graph.removeParent child parent) graph =
        .ok graph' ∧
      LinksOnly graph graph' ∧ (∀ id, graph'.childrenOf id = graph.childrenOf id) ∧
      ∀ id, graph'.parentsOf id =
        if id ∈ ids then (graph.parentsOf id).remove parent else graph.parentsOf id := by
  have spec := foldlM_links (fun graph child => graph.removeParent child parent)
    (fun set => set.remove parent) (fun set => set)
    (fun graph id present =>
      modify_links graph id _ present (fun set => set.remove parent) fun set => set)
    nodup graph present
  obtain ⟨graph', folded, same, parents, children⟩ := spec
  exact ⟨graph', folded, same, by simpa using children, parents⟩

theorem foldlM_rehome (graph : Graph ω) {ids : List Nat} (nodup : ids.Nodup)
    (keep remove : Nat) (present : ∀ id ∈ ids, ∃ entry, graph.nodes id = some entry) :
    ∃ graph', ids.foldlM (rehome keep remove) graph = .ok graph' ∧
      LinksOnly graph graph' ∧ (∀ id, graph'.childrenOf id = graph.childrenOf id) ∧
      ∀ id, graph'.parentsOf id =
        if id ∈ ids then (((graph.parentsOf id).remove remove).insert keep).1
        else graph.parentsOf id := by
  have spec := foldlM_links (rehome keep remove)
    (fun set => ((set.remove remove).insert keep).1) (fun set => set)
    (fun graph id present => modify_links graph id _ present
      (fun set => ((set.remove remove).insert keep).1) fun set => set)
    nodup graph present
  obtain ⟨graph', folded, same, parents, children⟩ := spec
  exact ⟨graph', folded, same, by simpa using children, parents⟩

/-- Parent and child sets mirror each other. -/
def Mirrored (graph : Graph ω) : Prop :=
  ∀ parent child, child ∈ graph.childrenOf parent ↔ parent ∈ graph.parentsOf child

/-- Connecting adds exactly one link to both of its ends. -/
theorem connect_spec {graph : Graph ω} (mirrored : graph.Mirrored) {parent child : Nat}
    (parentPresent : ∃ entry, graph.nodes parent = some entry)
    (childPresent : ∃ entry, graph.nodes child = some entry) :
    ∃ graph', graph.connect parent child = .ok graph' ∧ LinksOnly graph graph' ∧
      graph'.Mirrored ∧
      ∀ source target, graph'.Edge source target ↔
        graph.Edge source target ∨ source = parent ∧ target = child := by
  obtain ⟨entry, found⟩ := parentPresent
  have children : graph.childrenOf parent = entry.children := childrenOf_eq found
  let middle := graph.put parent { entry with children := (entry.children.insert child).1 }
  have middleSame : LinksOnly graph middle := by
    refine ⟨rfl, rfl, rfl, fun query => ?_⟩
    rw [coreOf_put]
    split
    next equal =>
      subst equal
      exact (coreOf_eq_some.2 ⟨entry, found, rfl⟩).symm
    next => rfl
  have middleParents : middle.parentsOf = graph.parentsOf := by
    rw [parentsOf_put]
    exact Function.update_eq_self_iff.2 (parentsOf_eq found).symm
  have middleChildren : middle.childrenOf =
      Function.update graph.childrenOf parent (entry.children.insert child).1 :=
    childrenOf_put
  have edgeIff : ∀ source target, middle.Edge source target ↔
      graph.Edge source target ∨ source = parent ∧ target = child := by
    intro source target
    rw [Edge, Edge, middleChildren]
    by_cases equal : source = parent
    · subst equal
      simp [children, or_comm]
    · simp [equal]
  by_cases added : child ∈ entry.children
  · refine ⟨middle, ?_, middleSame, ?_, edgeIff⟩
    · have notAdded : (entry.children.insert child).2 = false := by
        rw [← Bool.not_eq_true, IdSet.insert_added, not_not]
        exact added
      rw [connect, found]
      simp only [expect_some, ok_bind, notAdded]
      rfl
    · intro source target
      rw [middleParents, ← mirrored]
      refine (edgeIff source target).trans ?_
      constructor
      · rintro (edge | ⟨rfl, rfl⟩)
        · exact edge
        · rwa [children]
      · exact Or.inl
  · obtain ⟨graph', modified, same, parents', children'⟩ :=
      modify_links middle child "live descendant" (middleSame.present childPresent)
        (fun set => (set.insert parent).1) (fun set => set)
    have edgeIff' : ∀ source target, graph'.Edge source target ↔
        graph.Edge source target ∨ source = parent ∧ target = child := by
      intro source target
      rw [← edgeIff, Edge, Edge, children', Function.update_eq_self]
    refine ⟨graph', ?_, middleSame.trans same, ?_, edgeIff'⟩
    · have isAdded : (entry.children.insert child).2 = true := IdSet.insert_added.2 added
      rw [connect, found]
      simp only [expect_some, ok_bind, isAdded, if_true]
      exact modified
    · intro source target
      refine (edgeIff' source target).trans ?_
      rw [parents', middleParents, Edge, mirrored]
      by_cases equal : target = child
      · subst equal
        simp [or_comm]
      · simp [equal]

private theorem foldlM_connect {graph : Graph ω} (mirrored : graph.Mirrored) {parent : Nat}
    (parentPresent : ∃ entry, graph.nodes parent = some entry) (children : List Nat)
    (childPresent : ∀ child ∈ children, ∃ entry, graph.nodes child = some entry) :
    ∃ graph', children.foldlM (fun graph child => graph.connect parent child) graph =
        .ok graph' ∧
      LinksOnly graph graph' ∧ graph'.Mirrored ∧
      ∀ source target, graph'.Edge source target ↔
        graph.Edge source target ∨ source = parent ∧ target ∈ children := by
  induction children generalizing graph with
  | nil => exact ⟨graph, rfl, .refl graph, mirrored, by simp⟩
  | cons head tail ih =>
      obtain ⟨next, connected, same, nextMirrored, edges⟩ :=
        connect_spec mirrored parentPresent (childPresent head (by simp))
      obtain ⟨graph', folded, same', mirrored', edges'⟩ :=
        ih nextMirrored (same.present parentPresent) fun child member =>
          same.present (childPresent child (by simp [member]))
      refine ⟨graph', by rw [List.foldlM_cons, connected, ok_bind, folded],
        same.trans same', mirrored', ?_⟩
      intro source target
      rw [edges', edges, List.mem_cons]
      tauto

/-- Splicing connects every parent to every child and changes nothing else. -/
theorem splice_spec {graph : Graph ω} (mirrored : graph.Mirrored) (parents : ParentSet)
    (children : IdSet)
    (parentPresent : ∀ parent ∈ parents, ∃ entry, graph.nodes parent = some entry)
    (childPresent : ∀ child ∈ children, ∃ entry, graph.nodes child = some entry) :
    ∃ graph', graph.splice parents children = .ok graph' ∧ LinksOnly graph graph' ∧
      graph'.Mirrored ∧
      ∀ source target, graph'.Edge source target ↔
        graph.Edge source target ∨ source ∈ parents ∧ target ∈ children := by
  have general : ∀ (ids : List Nat) (graph : Graph ω), graph.Mirrored →
      (∀ parent ∈ ids, ∃ entry, graph.nodes parent = some entry) →
      (∀ child ∈ children, ∃ entry, graph.nodes child = some entry) →
      ∃ graph', ids.foldlM (fun graph parent =>
          children.toList.foldlM (fun graph child => graph.connect parent child) graph)
          graph = .ok graph' ∧
        LinksOnly graph graph' ∧ graph'.Mirrored ∧
        ∀ source target, graph'.Edge source target ↔
          graph.Edge source target ∨ source ∈ ids ∧ target ∈ children := by
    intro ids
    induction ids with
    | nil => exact fun graph mirrored _ _ => ⟨graph, rfl, .refl graph, mirrored, by simp⟩
    | cons head tail ih =>
        intro graph mirrored parentPresent childPresent
        obtain ⟨next, connected, same, nextMirrored, edges⟩ :=
          foldlM_connect mirrored (parentPresent head (by simp)) children.toList
            (by simpa using childPresent)
        obtain ⟨graph', folded, same', mirrored', edges'⟩ := ih next nextMirrored
          (fun parent member => same.present (parentPresent parent (by simp [member])))
          fun child member => same.present (childPresent child member)
        refine ⟨graph', by rw [List.foldlM_cons, connected, ok_bind, folded],
          same.trans same', mirrored', ?_⟩
        intro source target
        rw [edges', edges, List.mem_cons, IdSet.mem_toList]
        tauto
  obtain ⟨graph', spliced, same, mirrored', edges⟩ :=
    general parents.toList graph mirrored (by simpa using parentPresent) childPresent
  exact ⟨graph', spliced, same, mirrored', by simpa using edges⟩

/-! ## The relay index -/

theorem unindexRelay_spec {graph : Graph ω} (wf : graph.WF) {id : Nat} {entry : Entry ω}
    (found : graph.nodes id = some entry) (relay : entry.kind = .relay) :
    graph.unindexRelay id = .ok { graph with
      relayIndex := Function.update graph.relayIndex entry.signature.candidate
        ((graph.relayIndex entry.signature.candidate).erase id) } := by
  have indexed : id ∈ graph.relayIndex entry.signature.candidate :=
    (wf.index_iff _ _).2 ⟨entry, found, relay, rfl⟩
  have nonempty : graph.relayIndex entry.signature.candidate ≠ ∅ :=
    Finset.ne_empty_of_mem indexed
  rw [unindexRelay, index, found]
  simp only [expect_some, ok_bind, ensure_of nonempty, ensure_of indexed]
  rfl

theorem indexRelay_spec {graph : Graph ω} {id : Nat} {entry : Entry ω}
    (found : graph.nodes id = some entry) (relay : entry.kind = .relay) :
    graph.indexRelay id = .ok { graph with
      relayIndex := Function.update graph.relayIndex entry.signature.candidate
        (Insert.insert id (graph.relayIndex entry.signature.candidate)) } := by
  rw [indexRelay, found]
  simp only [expect_some, ok_bind, ensure_of relay]
  rfl

private theorem foldlM_union (graph : Graph ω) (ids : List Nat) (signature : Signature)
    (present : ∀ id ∈ ids, ∃ entry, graph.nodes id = some entry) :
    ∃ result, ids.foldlM (fun signature parent => do
        let entry ← graph.index parent
        pure (signature.union entry.signature)) signature = .ok result ∧
      ∀ ancestor, ancestor ∈ result.members ↔
        ancestor ∈ signature.members ∨ ∃ id ∈ ids, ancestor ∈ graph.ancestry id := by
  induction ids generalizing signature with
  | nil => exact ⟨signature, rfl, by simp⟩
  | cons head tail ih =>
      obtain ⟨entry, found⟩ := present head (by simp)
      obtain ⟨result, folded, members⟩ := ih (signature.union entry.signature)
        fun id member => present id (by simp [member])
      refine ⟨result, ?_, ?_⟩
      · rw [List.foldlM_cons, index, found]
        exact folded
      · intro ancestor
        simp only [members, Signature.members_union, Finset.mem_union, List.mem_cons,
          exists_eq_or_imp, ancestry_eq found]
        tauto

/-- A recomputed signature is the union of the parents' signatures. -/
theorem signatureFor_spec (graph : Graph ω) (parents : ParentSet)
    (present : ∀ parent ∈ parents, ∃ entry, graph.nodes parent = some entry) :
    ∃ signature, graph.signatureFor parents = .ok signature ∧
      ∀ ancestor, ancestor ∈ signature.members ↔
        ∃ parent ∈ parents, ancestor ∈ graph.ancestry parent := by
  obtain ⟨signature, folded, members⟩ := foldlM_union graph parents.toList
    Signature.default (by simpa using present)
  exact ⟨signature, folded, by simpa using members⟩

/-! ## Erasure -/

/-- `graph'` lost the entry `id` and changed links; everything else is kept. -/
structure Removed (graph graph' : Graph ω) (id : Nat) : Prop where
  next_eq : graph'.next = graph.next
  gone : graph'.nodes id = none
  core : ∀ other, other ≠ id → graph'.coreOf other = graph.coreOf other
  mirrored : graph'.Mirrored
  index : ∀ candidate other, other ∈ graph'.relayIndex candidate ↔
    other ≠ id ∧ other ∈ graph.relayIndex candidate
  relays_eq : graph'.relays = {other | other ≠ id ∧ graph.IsRelay other}.ncard

/-- The parents of the removed entry adopt its children. -/
structure Erased (graph graph' : Graph ω) (id : Nat) : Prop extends
    Removed graph graph' id where
  bypass : Digraph.Bypass graph.Edge graph'.Edge id

/-- A retained relay adopts the children of the removed one. -/
structure Folded (graph graph' : Graph ω) (keep remove : Nat) : Prop extends
    Removed graph graph' remove where
  fold : Digraph.Fold graph.Edge graph'.Edge keep remove

/-- Dropping one entry together with the links of its neighbours. -/
private theorem unlink_spec {graph : Graph ω} (wf : graph.WF) {id : Nat} {entry : Entry ω}
    (found : graph.nodes id = some entry) {dropped : Graph ω}
    (nodes : dropped.nodes = Function.update graph.nodes id none) :
    ∃ first second, entry.parents.toList.foldlM
        (fun graph parent => graph.removeChild parent id) dropped = .ok first ∧
      entry.children.toList.foldlM
        (fun graph child => graph.removeParent child id) first = .ok second ∧
      LinksOnly dropped second ∧ second.Mirrored ∧
      ∀ source target, second.Edge source target ↔
        source ≠ id ∧ target ≠ id ∧ graph.Edge source target := by
  have keep : ∀ other, other ≠ id → dropped.nodes other = graph.nodes other := by
    intro other ne
    rw [nodes, Function.update_of_ne ne]
  have parentNe : ∀ parent ∈ entry.parents, parent ≠ id := by
    rintro parent member rfl
    exact wf.loopless parent ((wf.parent_mem found).1 member)
  have childNe : ∀ child ∈ entry.children, child ≠ id := by
    rintro child member rfl
    exact wf.loopless child ((WF.child_mem found).1 member)
  obtain ⟨first, firstFold, firstSame, firstParents, firstChildren⟩ :=
    foldlM_removeChild dropped entry.parents.nodup_toList id (by
      intro parent member
      rw [IdSet.mem_toList] at member
      rw [keep parent (parentNe parent member)]
      exact WF.parent_exists ((wf.parent_mem found).1 member))
  obtain ⟨second, secondFold, secondSame, secondChildren, secondParents⟩ :=
    foldlM_removeParent first entry.children.nodup_toList id (by
      intro child member
      rw [IdSet.mem_toList] at member
      apply firstSame.present
      rw [keep child (childNe child member)]
      exact wf.child_exists ((WF.child_mem found).1 member))
  have droppedChildren : ∀ other, dropped.childrenOf other =
      if other = id then .empty else graph.childrenOf other := by
    intro other
    by_cases equal : other = id
    · simp [childrenOf, nodes, equal]
    · simp [childrenOf, keep other equal, equal]
  have droppedParents : ∀ other, dropped.parentsOf other =
      if other = id then .empty else graph.parentsOf other := by
    intro other
    by_cases equal : other = id
    · simp [parentsOf, nodes, equal]
    · simp [parentsOf, keep other equal, equal]
  have edges : ∀ source target, second.Edge source target ↔
      source ≠ id ∧ target ≠ id ∧ graph.Edge source target := by
    intro source target
    rw [Edge, secondChildren, firstChildren, droppedChildren]
    by_cases sourceEq : source = id
    · subst sourceEq
      split <;> simp
    · simp only [sourceEq, if_false, IdSet.mem_toList, ne_eq, not_false_eq_true, true_and]
      split
      next => simp [Edge]
      next notParent =>
        constructor
        · intro edge
          refine ⟨?_, edge⟩
          rintro rfl
          exact notParent ((wf.parent_mem found).2 edge)
        · exact And.right
  refine ⟨first, second, firstFold, secondFold, firstSame.trans secondSame, ?_, edges⟩
  intro source target
  rw [← Edge, edges, secondParents, firstParents, droppedParents]
  by_cases targetEq : target = id
  · subst targetEq
    split <;> simp
  · simp only [targetEq, if_false, IdSet.mem_toList, ne_eq, not_false_eq_true, true_and]
    split
    next => simp [Edge, wf.edge_iff]
    next notChild =>
      rw [Edge, wf.edge_iff]
      constructor
      · exact And.right
      · intro edge
        refine ⟨?_, edge⟩
        rintro rfl
        exact notChild ((WF.child_mem found).2 ((wf.edge_iff _ _).2 edge))

theorem WF.ncard_other_relays {graph : Graph ω} (wf : graph.WF) {id : Nat}
    (relay : graph.IsRelay id) :
    {other | other ≠ id ∧ graph.IsRelay other}.ncard + 1 = graph.relays := by
  rw [wf.relays_eq, ← Set.ncard_sdiff_singleton_add_one
    (show id ∈ {id | graph.IsRelay id} from relay) wf.finite_relays]
  congr 2
  ext other
  simp [and_comm]

theorem WF.ncard_other_relays_of_token {graph : Graph ω} (wf : graph.WF) {id : Nat}
    (token : ¬ graph.IsRelay id) :
    {other | other ≠ id ∧ graph.IsRelay other}.ncard = graph.relays := by
  rw [wf.relays_eq]
  congr 1
  ext other
  simp only [Set.mem_ofPred_eq, and_iff_right_iff_imp]
  rintro relay rfl
  exact token relay

theorem releaseRelay_eq (graph : Graph ω) (positive : 0 < graph.relays) :
    graph.releaseRelay = .ok { graph with relays := graph.relays - 1 } := by
  rw [releaseRelay, ensure_of positive]
  rfl

/-- `dropped` is `graph` with one entry gone from nodes, index and counter. -/
structure Detached (graph dropped : Graph ω) (id : Nat) : Prop where
  nodes : dropped.nodes = Function.update graph.nodes id none
  next_eq : dropped.next = graph.next
  index : ∀ candidate other, other ∈ dropped.relayIndex candidate ↔
    other ≠ id ∧ other ∈ graph.relayIndex candidate
  relays_eq : dropped.relays = {other | other ≠ id ∧ graph.IsRelay other}.ncard

/-- A relay leaves the index, the nodes and the counter. -/
theorem detachRelay_spec {graph : Graph ω} (wf : graph.WF) {id : Nat} {entry : Entry ω}
    (found : graph.nodes id = some entry) (relay : entry.kind = .relay) :
    ∃ unindexed dropped, graph.unindexRelay id = .ok unindexed ∧
      unindexed.nodes = graph.nodes ∧
      (unindexed.drop id).releaseRelay = .ok dropped ∧ Detached graph dropped id := by
  have count := wf.ncard_other_relays ((isRelay_iff found).2 relay)
  have positive : 0 < graph.relays := by omega
  let unindexed : Graph ω := { graph with
    relayIndex := Function.update graph.relayIndex entry.signature.candidate
      ((graph.relayIndex entry.signature.candidate).erase id) }
  refine ⟨unindexed, { unindexed.drop id with relays := graph.relays - 1 },
    unindexRelay_spec wf found relay, rfl,
    releaseRelay_eq (unindexed.drop id) positive, rfl, rfl, ?_, ?_⟩
  · intro candidate other
    simp only [unindexed, drop, Function.update_apply]
    split
    next equal => simp [equal]
    next differ =>
      constructor
      · intro member
        refine ⟨?_, member⟩
        rintro rfl
        obtain ⟨entry', found', -, candidateEq⟩ := (wf.index_iff _ _).1 member
        rw [found] at found'
        cases found'
        exact differ candidateEq.symm
      · exact And.right
  · show graph.relays - 1 = _
    omega

/-- Detaching a present entry keeps the index and the counter exact. -/
theorem detach_spec {graph : Graph ω} (wf : graph.WF) {id : Nat} {entry : Entry ω}
    (found : graph.nodes id = some entry) :
    ∃ dropped, graph.detach id = .ok (entry, dropped) ∧ Detached graph dropped id := by
  by_cases relay : entry.kind = .relay
  · obtain ⟨unindexed, dropped, removed, nodes, released, detached⟩ :=
      detachRelay_spec wf found relay
    refine ⟨dropped, ?_, detached⟩
    simp only [detach, Graph.index, found, expect_some, ok_bind, relay, if_true, removed,
      nodes, released]
    rfl
  · refine ⟨graph.drop id, ?_, rfl, rfl, ?_, ?_⟩
    · simp only [detach, Graph.index, found, expect_some, ok_bind, relay, if_false, pure_bind]
      rfl
    · intro candidate other
      constructor
      · intro member
        refine ⟨?_, member⟩
        rintro rfl
        obtain ⟨entry', found', isRelay, -⟩ := (wf.index_iff _ _).1 member
        rw [found] at found'
        cases found'
        exact relay isRelay
      · exact And.right
    · exact (wf.ncard_other_relays_of_token (by rwa [isRelay_iff found])).symm

theorem Detached.removed {graph dropped graph' : Graph ω} {id : Nat}
    (detached : Detached graph dropped id) (same : LinksOnly dropped graph')
    (mirrored : graph'.Mirrored) : Removed graph graph' id where
  next_eq := same.next_eq.trans detached.next_eq
  gone := by
    rw [← coreOf_eq_none, same.core, coreOf_eq_none, detached.nodes, Function.update_self]
  core other ne := by
    rw [same.core, coreOf, detached.nodes, Function.update_of_ne ne]
    rfl
  mirrored := mirrored
  index candidate other := by rw [same.index_eq, detached.index]
  relays_eq := same.relays_eq.trans detached.relays_eq

/-- Erasing a present entry returns, bypasses it and asks for its neighbours. -/
theorem erase_spec {graph : Graph ω} (wf : graph.WF) {id : Nat} {entry : Entry ω}
    (found : graph.nodes id = some entry) (descendantsDirty : Bool) :
    ∃ graph', graph.erase id true descendantsDirty = .ok (graph',
        entry.parents.toList.map RelayWork.known ++
          entry.children.toList.map fun id =>
            if descendantsDirty then RelayWork.dirty id else RelayWork.known id) ∧
      Erased graph graph' id := by
  obtain ⟨dropped, detached, isDetached⟩ := detach_spec wf found
  obtain ⟨first, second, firstFold, secondFold, unlinked, mirrored, unlinkedEdges⟩ :=
    unlink_spec wf found isDetached.nodes
  have present : ∀ other, other ≠ id → (∃ entry, graph.nodes other = some entry) →
      ∃ entry, second.nodes other = some entry := by
    intro other ne old
    apply unlinked.present
    rwa [isDetached.nodes, Function.update_of_ne ne]
  obtain ⟨graph', spliced, same, mirrored', edges⟩ := splice_spec mirrored
    entry.parents entry.children
    (by
      intro parent member
      have edge := (wf.parent_mem found).1 member
      exact present parent (wf.edge_lt _ _ edge).ne (WF.parent_exists edge))
    (by
      intro child member
      have edge := (WF.child_mem found).1 member
      exact present child (wf.edge_lt _ _ edge).ne' (wf.child_exists edge))
  refine ⟨graph', ?_, isDetached.removed (unlinked.trans same) mirrored', ?_⟩
  · simp only [erase, detached, ok_bind, firstFold, secondFold, if_true, spliced]
    rfl
  · intro source target
    rw [edges, unlinkedEdges, wf.parent_mem found, WF.child_mem found]
    constructor
    · rintro (⟨sourceNe, targetNe, edge⟩ | ⟨into, out⟩)
      · exact ⟨sourceNe, targetNe, .inl edge⟩
      · exact ⟨(wf.edge_lt _ _ into).ne, (wf.edge_lt _ _ out).ne', .inr ⟨into, out⟩⟩
    · rintro ⟨sourceNe, targetNe, edge | through⟩
      · exact .inl ⟨sourceNe, targetNe, edge⟩
      · exact .inr through

/-! ## Merging -/

/-- Merging two relays with the same flag and signature returns, folds the discarded
relay into the retained one and asks for every entry that lost or gained a link. -/
theorem mergeRelays_spec {graph : Graph ω} (wf : graph.WF) {keep remove : Nat}
    {retained discarded : Entry ω} (keepFound : graph.nodes keep = some retained)
    (removeFound : graph.nodes remove = some discarded) (keepRelay : retained.kind = .relay)
    (removeRelay : discarded.kind = .relay) (differ : keep ≠ remove)
    (sameFlag : retained.cancelled = discarded.cancelled)
    (sameAncestry : retained.signature.members = discarded.signature.members) :
    ∃ graph', graph.mergeRelays keep remove = .ok (graph',
        (discarded.parents.toList ++ discarded.children.toList ++ [keep]).map
          RelayWork.known) ∧
      Folded graph graph' keep remove := by
  obtain ⟨unindexed, dropped, removed, nodes, released, isDetached⟩ :=
    detachRelay_spec wf removeFound removeRelay
  have kept : ∀ other, other ≠ remove → dropped.nodes other = graph.nodes other := by
    intro other ne
    rw [isDetached.nodes, Function.update_of_ne ne]
  have parentNe : ∀ parent ∈ discarded.parents, parent ≠ remove := by
    intro parent member
    exact (wf.edge_lt _ _ ((wf.parent_mem removeFound).1 member)).ne
  have childNe : ∀ child ∈ discarded.children, child ≠ remove := by
    intro child member
    exact (wf.edge_lt _ _ ((WF.child_mem removeFound).1 member)).ne'
  obtain ⟨first, firstFold, firstSame, firstParents, firstChildren⟩ :=
    foldlM_removeChild dropped discarded.parents.nodup_toList remove (by
      intro parent member
      rw [IdSet.mem_toList] at member
      rw [kept parent (parentNe parent member)]
      exact WF.parent_exists ((wf.parent_mem removeFound).1 member))
  obtain ⟨second, secondFold, secondSame, secondChildren, secondParents⟩ :=
    foldlM_rehome first discarded.children.nodup_toList keep remove (by
      intro child member
      rw [IdSet.mem_toList] at member
      apply firstSame.present
      rw [kept child (childNe child member)]
      exact wf.child_exists ((WF.child_mem removeFound).1 member))
  obtain ⟨graph', extended, thirdSame, thirdParents, thirdChildren⟩ :=
    modify_links second keep "retained relay"
      ((firstSame.trans secondSame).present (by
        rw [kept keep differ]
        exact ⟨retained, keepFound⟩))
      (fun set => set) fun set => set.extendSet discarded.children
  have edges : ∀ source target, graph'.Edge source target ↔
      source ≠ remove ∧ target ≠ remove ∧
        (graph.Edge source target ∨ source = keep ∧ graph.Edge remove target) := by
    intro source target
    have secondEdge : target ∈ second.childrenOf source ↔
        source ≠ remove ∧ target ≠ remove ∧ graph.Edge source target := by
      rw [secondChildren, firstChildren]
      by_cases sourceEq : source = remove
      · subst sourceEq
        have absent : dropped.childrenOf source = .empty := by
          simp [childrenOf, isDetached.nodes]
        rw [absent]
        split <;> simp
      · have same : dropped.childrenOf source = graph.childrenOf source := by
          simp [childrenOf, kept source sourceEq]
        rw [same]
        simp only [sourceEq, IdSet.mem_toList, ne_eq, not_false_eq_true, true_and]
        split
        next => simp [Edge]
        next notParent =>
          constructor
          · intro edge
            refine ⟨?_, edge⟩
            rintro rfl
            exact notParent ((wf.parent_mem removeFound).2 edge)
          · exact And.right
    rw [Edge, thirdChildren]
    by_cases sourceEq : source = keep
    · subst sourceEq
      simp only [Function.update_self, IdSet.mem_extendSet, secondEdge,
        WF.child_mem removeFound]
      constructor
      · rintro (⟨sourceNe, targetNe, edge⟩ | handed)
        · exact ⟨sourceNe, targetNe, .inl edge⟩
        · exact ⟨differ, (wf.edge_lt _ _ handed).ne', .inr ⟨trivial, handed⟩⟩
      · rintro ⟨sourceNe, targetNe, edge | ⟨-, handed⟩⟩
        · exact .inl ⟨sourceNe, targetNe, edge⟩
        · exact .inr handed
    · simp [sourceEq, secondEdge]
  have mirrored : graph'.Mirrored := by
    intro source target
    refine (edges source target).trans ?_
    rw [thirdParents, Function.update_eq_self, secondParents, firstParents]
    by_cases targetEq : target = remove
    · subst targetEq
      have absent : dropped.parentsOf target = .empty := by
        simp [parentsOf, isDetached.nodes]
      have notChild : target ∉ discarded.children := fun member => childNe target member rfl
      simp [absent, notChild]
    · have same : dropped.parentsOf target = graph.parentsOf target := by
        simp [parentsOf, kept target targetEq]
      have ofParents : source ∈ graph.parentsOf target ↔ graph.Edge source target :=
        (wf.edge_iff source target).symm
      rw [same]
      simp only [targetEq, ne_eq, not_false_eq_true, true_and, IdSet.mem_toList]
      split
      next isChild =>
        have handed := (WF.child_mem removeFound).1 isChild
        simp only [IdSet.mem_insert, IdSet.mem_remove, ofParents, handed, and_true]
        constructor
        · rintro ⟨sourceNe, edge | equal⟩
          · exact .inr ⟨sourceNe, edge⟩
          · exact .inl equal
        · rintro (equal | ⟨sourceNe, edge⟩)
          · exact ⟨equal ▸ differ, .inr equal⟩
          · exact ⟨sourceNe, .inl edge⟩
      next notChild =>
        have notHanded : ¬ graph.Edge remove target := fun edge =>
          notChild ((WF.child_mem removeFound).2 edge)
        simp only [ofParents, notHanded, and_false, or_false]
        constructor
        · exact And.right
        · intro edge
          refine ⟨?_, edge⟩
          rintro rfl
          exact notHanded edge
  refine ⟨graph', ?_, isDetached.removed
    ((firstSame.trans secondSame).trans thirdSame) mirrored, edges⟩
  have sameCandidate := Signature.candidate_eq_of_members sameAncestry
  simp only [mergeRelays, Graph.index, keepFound, removeFound, expect_some, ok_bind,
    ensure_of (And.intro keepRelay removeRelay), ensure_of sameFlag,
    ensure_of sameCandidate, removed, nodes, released, firstFold, secondFold, extended]
  rfl

end Graph

end VThread.Cancellation

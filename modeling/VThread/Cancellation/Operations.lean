import VThread.Cancellation.Loop

/-!
# Inserting and removing tokens

Both operations return on a settled graph and leave a settled graph.  Insertion adds
one vertex below its parents; removal hides a token and keeps the reachability of all
others.
-/

namespace VThread.Cancellation

open VThread.Lib

variable {ω : Type}

namespace Graph

/-- Reserve the next identity and insert a token under `parents`, as every caller does. -/
def insertToken (graph : Graph ω) (parents : List Nat) (flag : ω) :
    Checked (Nat × Graph ω × Bool) := do
  let (id, graph) ← graph.reserve
  let (graph, cancelled) ← graph.insert id parents flag
  pure (id, graph, cancelled)

/-! ## Insertion -/

/-- `graph'` differs from `graph` by `id` in the children of every parent. -/
structure Adopted (graph graph' : Graph ω) (id : Nat) (parents : List Nat) : Prop extends
    LinksOnly graph graph' where
  parents_eq : ∀ other, graph'.parentsOf other = graph.parentsOf other
  children_eq : ∀ other, graph'.childrenOf other =
    if other ∈ parents then ((graph.childrenOf other).insert id).1 else graph.childrenOf other

theorem foldlM_adopt (graph : Graph ω) (id : Nat) {parents : List Nat}
    (nodup : parents.Nodup) (flag : Bool)
    (present : ∀ parent ∈ parents, ∃ entry, graph.nodes parent = some entry) :
    ∃ graph' flag', parents.foldlM (adopt id) (graph, flag) = .ok (graph', flag') ∧
      Adopted graph graph' id parents ∧
      (flag' = true ↔ flag = true ∨ ∃ parent ∈ parents, graph.Cancelled parent) := by
  induction parents generalizing graph flag with
  | nil => exact ⟨graph, flag, rfl, ⟨.refl graph, by simp, by simp⟩, by simp⟩
  | cons head tail ih =>
      obtain ⟨headNotMem, tailNodup⟩ := List.nodup_cons.1 nodup
      obtain ⟨entry, found⟩ := present head (by simp)
      let next := graph.put head { entry with children := (entry.children.insert id).1 }
      have same : LinksOnly graph next := by
        refine ⟨rfl, rfl, rfl, fun query => ?_⟩
        rw [coreOf_put]
        split
        next equal =>
          subst equal
          exact (coreOf_eq_some.2 ⟨entry, found, rfl⟩).symm
        next => rfl
      have nextParents : next.parentsOf = graph.parentsOf := by
        rw [parentsOf_put]
        exact Function.update_eq_self_iff.2 (parentsOf_eq found).symm
      have nextChildren : next.childrenOf =
          Function.update graph.childrenOf head ((graph.childrenOf head).insert id).1 := by
        rw [childrenOf_put, childrenOf_eq found]
      obtain ⟨graph', flag', folded, adopted, flagIff⟩ :=
        ih next tailNodup (flag || entry.cancelled) fun parent member =>
          same.present (present parent (by simp [member]))
      refine ⟨graph', flag', ?_, ⟨same.trans adopted.toLinksOnly, ?_, ?_⟩, ?_⟩
      · rw [List.foldlM_cons, adopt, found]
        exact folded
      · intro other
        rw [adopted.parents_eq, nextParents]
      · intro other
        rw [adopted.children_eq, nextChildren]
        by_cases equal : other = head
        · subst equal
          simp [headNotMem]
        · simp [equal]
      · rw [flagIff, Bool.or_eq_true, List.exists_mem_cons_iff, cancelled_iff found, or_assoc]
        have tailIff : (∃ parent ∈ tail, next.Cancelled parent) ↔
            ∃ parent ∈ tail, graph.Cancelled parent := by
          simp only [cancelled_congr (same.core _)]
        rw [tailIff]

/-- `graph'` is `graph` with the new token `id` below `parents`. -/
structure Inserted (graph graph' : Graph ω) (id : Nat) (parents : List Nat) (flag : ω)
    (cancelled : Bool) : Prop where
  id_eq : id = graph.next
  next_eq : graph'.next = graph.next + 1
  core : ∀ other, other ≠ id → graph'.coreOf other = graph.coreOf other
  core_self : graph'.coreOf id = some (.token, some flag, cancelled, .singleton id)
  parents_eq : ∀ other, other ≠ id → graph'.parentsOf other = graph.parentsOf other
  parents_self : ∀ parent, parent ∈ graph'.parentsOf id ↔ parent ∈ parents
  children_eq : ∀ other, other ≠ id → graph'.childrenOf other =
    if other ∈ parents then ((graph.childrenOf other).insert id).1 else graph.childrenOf other
  children_self : graph'.childrenOf id = .empty
  relays_eq : graph'.relays = graph.relays
  index_eq : graph'.relayIndex = graph.relayIndex

theorem insertToken_spec {graph : Graph ω} (room : graph.next + 1 < 2 ^ 64)
    {parents : List Nat} (flag : ω) (present : ∀ parent ∈ parents, graph.IsToken parent) :
    ∃ graph' cancelled, graph.insertToken parents flag = .ok (graph.next, graph', cancelled) ∧
      Inserted graph graph' graph.next parents flag cancelled ∧
      (cancelled = true ↔ ∃ parent ∈ parents, graph.Cancelled parent) := by
  let reserved : Graph ω := { graph with next := graph.next + 1 }
  have presentEntry : ∀ parent ∈ parents, ∃ entry, reserved.nodes parent = some entry := by
    intro parent member
    obtain ⟨entry, found, -⟩ := present parent member
    exact ⟨entry, found⟩
  -- The three shapes of the parent list adopt the same set of parents.
  have shapes : ∃ (set : IdSet) (ids : List Nat), ids.Nodup ∧
      (∀ parent, parent ∈ ids ↔ parent ∈ parents) ∧
      (∀ parent, parent ∈ set ↔ parent ∈ parents) ∧
      ∀ graph' cancelled, ids.foldlM (adopt graph.next) (reserved, false) =
          .ok (graph', cancelled) →
        reserved.insert graph.next parents flag = .ok (graph'.put graph.next
          { kind := .token, flag := some flag, cancelled, parents := set, children := .empty,
            signature := .singleton graph.next }, cancelled) := by
    match parents with
    | [] =>
        refine ⟨.empty, [], List.nodup_nil, by simp, by simp, ?_⟩
        rintro graph' cancelled ⟨⟩
        rw [Graph.insert, ensure_of (show graph.next + 1 = reserved.next from rfl)]
        rfl
    | [parent] =>
        refine ⟨.one parent, [parent], by simp, by simp, by simp, ?_⟩
        intro graph' cancelled folded
        rw [List.foldlM_cons] at folded
        obtain ⟨result, adopted, ended⟩ := bind_eq_ok.1 folded
        cases ended
        rw [Graph.insert, ensure_of (show graph.next + 1 = reserved.next from rfl)]
        simp only [ok_bind, adopted]
        rfl
    | first :: second :: rest =>
        refine ⟨.ofList (first :: second :: rest),
          (IdSet.ofList (first :: second :: rest)).toList, IdSet.nodup_toList _,
          fun parent => by rw [IdSet.mem_toList, IdSet.mem_ofList],
          fun parent => IdSet.mem_ofList, ?_⟩
        intro graph' cancelled folded
        rw [Graph.insert, ensure_of (show graph.next + 1 = reserved.next from rfl)]
        simp only [ok_bind, folded]
        rfl
  obtain ⟨set, ids, nodup, mem_ids, mem_set, inserted⟩ := shapes
  obtain ⟨graph', cancelled, folded, adopted, flagIff⟩ := foldlM_adopt reserved graph.next
    nodup false fun parent member => presentEntry parent ((mem_ids parent).1 member)
  let entry : Entry ω := {
    kind := .token
    flag := some flag
    cancelled := cancelled
    parents := set
    children := .empty
    signature := .singleton graph.next }
  refine ⟨graph'.put graph.next entry, cancelled, ?_, ⟨rfl, adopted.next_eq, ?_, ?_, ?_, ?_,
    ?_, ?_, adopted.relays_eq, adopted.index_eq⟩, ?_⟩
  · have reservedOk : graph.reserve = .ok (graph.next, reserved) := by
      rw [reserve, ensure_of room]
      rfl
    simp only [insertToken, reservedOk, ok_bind, inserted graph' cancelled folded]
    rfl
  · intro other ne
    rw [coreOf_put, if_neg ne]
    exact adopted.core other
  · rw [coreOf_put, if_pos rfl]
  · intro other ne
    rw [parentsOf_put, Function.update_of_ne ne]
    exact adopted.parents_eq other
  · intro parent
    rw [parentsOf_put, Function.update_self]
    exact mem_set parent
  · intro other ne
    rw [childrenOf_put, Function.update_of_ne ne, adopted.children_eq]
    simp only [mem_ids]
    rfl
  · rw [childrenOf_put, Function.update_self]
  · rw [flagIff]
    simp only [Bool.false_eq_true, false_or, mem_ids]
    rfl

namespace Inserted

variable {graph graph' : Graph ω} {id : Nat} {parents : List Nat} {flag : ω}
  {cancelled : Bool}

theorem not_present (inserted : Inserted graph graph' id parents flag cancelled)
    (wf : graph.WF) : graph.nodes id = none :=
  wf.fresh id inserted.id_eq.ge

theorem edge_iff (inserted : Inserted graph graph' id parents flag cancelled)
    (wf : graph.WF) (present : ∀ parent ∈ parents, graph.IsToken parent)
    (source target : Nat) :
    graph'.Edge source target ↔ graph.Edge source target ∨ target = id ∧ source ∈ parents := by
  have absent := inserted.not_present wf
  by_cases equal : source = id
  · subst equal
    have noEdge : ¬ graph.Edge source target := by
      intro edge
      obtain ⟨entry, found⟩ := WF.parent_exists edge
      rw [absent] at found
      cases found
    have notParent : source ∉ parents := by
      intro member
      obtain ⟨entry, found, -⟩ := present source member
      rw [absent] at found
      cases found
    rw [Edge, inserted.children_self]
    simp [noEdge, notParent]
  · rw [Edge, inserted.children_eq source equal]
    split
    next member => simp [Edge, member, or_comm]
    next notMember => simp [Edge, notMember]

theorem isToken_iff (inserted : Inserted graph graph' id parents flag cancelled)
    (other : Nat) : graph'.IsToken other ↔ other = id ∨ graph.IsToken other := by
  by_cases equal : other = id
  · subst equal
    obtain ⟨entry, found, equal⟩ := coreOf_eq_some.1 inserted.core_self
    simp only [Prod.mk.injEq] at equal
    simp [Graph.isToken_iff found, equal.1]
  · simp [isToken_congr (inserted.core other equal), equal]

theorem isRelay_iff (inserted : Inserted graph graph' id parents flag cancelled)
    (wf : graph.WF) (other : Nat) : graph'.IsRelay other ↔ graph.IsRelay other := by
  by_cases equal : other = id
  · subst equal
    have notOld : ¬ graph.IsRelay other := by
      rintro ⟨entry, found, -⟩
      rw [inserted.not_present wf] at found
      cases found
    have token := (inserted.isToken_iff other).2 (.inl rfl)
    simp [token.not_isRelay, notOld]
  · exact isRelay_congr (inserted.core other equal)

theorem cancelled_self (inserted : Inserted graph graph' id parents flag cancelled) :
    graph'.Cancelled id ↔ cancelled = true := by
  obtain ⟨entry, found, equal⟩ := coreOf_eq_some.1 inserted.core_self
  simp only [Prod.mk.injEq] at equal
  rw [cancelled_iff found, equal.2.2.1]

theorem ancestry_self (inserted : Inserted graph graph' id parents flag cancelled) :
    graph'.ancestry id = (Signature.singleton id).members := by
  obtain ⟨entry, found, equal⟩ := coreOf_eq_some.1 inserted.core_self
  simp only [Prod.mk.injEq] at equal
  rw [ancestry_eq found, equal.2.2.2]

theorem wf (inserted : Inserted graph graph' id parents flag cancelled) (wf : graph.WF)
    (room : graph.next + 1 < 2 ^ 64) (present : ∀ parent ∈ parents, graph.IsToken parent)
    (inherits : cancelled = true ↔ ∃ parent ∈ parents, graph.Cancelled parent) :
    graph'.WF := by
  have absent := inserted.not_present wf
  have idEq := inserted.id_eq
  have below : ∀ parent ∈ parents, parent < id := by
    intro parent member
    obtain ⟨entry, found, -⟩ := present parent member
    rw [idEq]
    exact wf.lt_next found
  have edgeIff := inserted.edge_iff wf present
  exact {
    next_lt := by
      rw [inserted.next_eq]
      exact room
    fresh := by
      intro other above
      rw [inserted.next_eq] at above
      rw [← coreOf_eq_none, inserted.core other (by omega), coreOf_eq_none]
      exact wf.fresh other (by omega)
    edge_iff := by
      intro source target
      rw [← Edge, edgeIff]
      by_cases equal : target = id
      · have noEdge : ¬ graph.Edge source id := by
          intro edge
          obtain ⟨entry, found⟩ := wf.child_exists edge
          rw [absent] at found
          cases found
        rw [equal, inserted.parents_self]
        simp [noEdge]
      · rw [inserted.parents_eq target equal, ← wf.edge_iff]
        simp [Edge, equal]
    edge_lt := by
      intro source target edge
      rcases (edgeIff source target).1 edge with old | ⟨rfl, member⟩
      · exact wf.edge_lt _ _ old
      · exact below source member
    cancelled_edge := by
      intro source target edge isCancelled
      have sourceNe : source ≠ id := by
        rintro rfl
        rw [Edge, inserted.children_self] at edge
        simp at edge
      rw [cancelled_congr (inserted.core source sourceNe)] at isCancelled
      rcases (edgeIff source target).1 edge with old | ⟨rfl, member⟩
      · have targetNe : target ≠ id := by
          rintro rfl
          obtain ⟨entry, found⟩ := wf.child_exists old
          rw [absent] at found
          cases found
        rw [cancelled_congr (inserted.core target targetNe)]
        exact wf.cancelled_edge _ _ old isCancelled
      · exact inserted.cancelled_self.2 (inherits.2 ⟨source, member, isCancelled⟩)
    flag_iff := by
      intro other entry found
      have core := coreOf_eq_some.2 ⟨entry, found, rfl⟩
      by_cases equal : other = id
      · subst equal
        rw [inserted.core_self] at core
        simp only [Option.some.injEq, Prod.mk.injEq] at core
        simp [← core.1, ← core.2.1]
      · rw [inserted.core other equal] at core
        obtain ⟨old, oldFound, same⟩ := coreOf_eq_some.1 core
        have oldFlag := wf.flag_iff other old oldFound
        simp only [Prod.mk.injEq] at same
        rwa [same.1, same.2.1] at oldFlag
    token_ancestry := by
      intro other token
      by_cases equal : other = id
      · rw [equal, inserted.ancestry_self]
        exact Signature.members_singleton (by omega)
      · rw [ancestry_congr (inserted.core other equal)]
        exact wf.token_ancestry other
          (((inserted.isToken_iff other).1 token).resolve_left equal)
    relays_eq := by
      rw [inserted.relays_eq, wf.relays_eq]
      congr 1
      ext other
      exact (inserted.isRelay_iff wf other).symm
    index_iff := by
      intro candidate other
      rw [inserted.index_eq, wf.index_iff]
      by_cases equal : other = id
      · subst equal
        obtain ⟨entry, found, same⟩ := coreOf_eq_some.1 inserted.core_self
        simp only [Prod.mk.injEq] at same
        simp [absent, found, same.1]
      · have core := inserted.core other equal
        simp only [coreOf] at core
        cases found : graph.nodes other <;> cases found' : graph'.nodes other <;> simp_all }

theorem settled (inserted : Inserted graph graph' id parents flag cancelled)
    (settled : graph.Settled) (room : graph.next + 1 < 2 ^ 64)
    (present : ∀ parent ∈ parents, graph.IsToken parent)
    (inherits : cancelled = true ↔ ∃ parent ∈ parents, graph.Cancelled parent) :
    graph'.Settled := by
  have edgeIff := inserted.edge_iff settled.wf present
  have relayIff := inserted.isRelay_iff settled.wf
  have relayNe : ∀ other, graph.IsRelay other → other ≠ id := by
    rintro other ⟨entry, found, -⟩ rfl
    rw [inserted.not_present settled.wf] at found
    cases found
  have ancestryRelay : ∀ other, graph.IsRelay other →
      graph'.ancestry other = graph.ancestry other :=
    fun other relay => ancestry_congr (inserted.core other (relayNe other relay))
  exact {
    wf := inserted.wf settled.wf room present inherits
    consistent := by
      intro other relay ancestor
      rw [relayIff] at relay
      have ne := relayNe other relay
      rw [ancestryRelay other relay, settled.consistent other relay ancestor]
      have sameParents : ∀ parent, graph.Edge parent other →
          graph'.ancestry parent = graph.ancestry parent := by
        intro parent edge
        apply ancestry_congr (inserted.core parent ?_)
        rintro rfl
        obtain ⟨entry, found⟩ := WF.parent_exists edge
        rw [inserted.not_present settled.wf] at found
        cases found
      constructor
      · rintro ⟨parent, edge, member⟩
        exact ⟨parent, (edgeIff _ _).2 (.inl edge), by rwa [sameParents parent edge]⟩
      · rintro ⟨parent, edge, member⟩
        have old := ((edgeIff _ _).1 edge).resolve_right fun new => ne new.1
        exact ⟨parent, old, by rwa [sameParents parent old] at member⟩
    degrees := by
      intro other relay
      rw [relayIff] at relay
      have ne := relayNe other relay
      have notParent : other ∉ parents := fun member =>
        (present other member).not_isRelay relay
      rw [inserted.parents_eq other ne, inserted.children_eq other ne, if_neg notParent]
      exact settled.degrees other relay
    distinct := by
      intro left right leftRelay rightRelay differ
      rw [relayIff] at leftRelay rightRelay
      rw [Equivalent, ancestryRelay left leftRelay, ancestryRelay right rightRelay,
        cancelled_congr (inserted.core left (relayNe left leftRelay)),
        cancelled_congr (inserted.core right (relayNe right rightRelay))]
      exact settled.distinct left right leftRelay rightRelay differ }

/-- The new token has no descendants, so old reachability is unchanged. -/
theorem reach_iff (inserted : Inserted graph graph' id parents flag cancelled)
    (wf : graph.WF) (present : ∀ parent ∈ parents, graph.IsToken parent)
    (source : Nat) {target : Nat} (targetNe : target ≠ id) :
    graph'.Reach source target ↔ graph.Reach source target := by
  have edgeIff := inserted.edge_iff wf present
  constructor
  · intro path
    induction path with
    | refl => exact .refl
    | @tail middle last _ step ih =>
        have old := ((edgeIff _ _).1 step).resolve_right fun new => targetNe new.1
        have middleNe : middle ≠ id := by
          rintro rfl
          obtain ⟨entry, found⟩ := WF.parent_exists old
          rw [inserted.not_present wf] at found
          cases found
        exact (ih middleNe).tail old
  · exact Relation.ReflTransGen.mono (fun source target edge => (edgeIff _ _).2 (.inl edge))
      source target

/-- Whatever reaches the new token reaches one of its parents. -/
theorem reach_self_iff (inserted : Inserted graph graph' id parents flag cancelled)
    (wf : graph.WF) (present : ∀ parent ∈ parents, graph.IsToken parent) (source : Nat) :
    graph'.Reach source id ↔
      source = id ∨ ∃ parent ∈ parents, graph.Reach source parent := by
  have edgeIff := inserted.edge_iff wf present
  have parentNe : ∀ parent ∈ parents, parent ≠ id := by
    rintro parent member rfl
    obtain ⟨entry, found, -⟩ := present parent member
    rw [inserted.not_present wf] at found
    cases found
  constructor
  · intro path
    rcases Relation.ReflTransGen.cases_tail path with equal | ⟨parent, path, step⟩
    · exact .inl equal.symm
    · rcases (edgeIff _ _).1 step with old | ⟨-, member⟩
      · obtain ⟨entry, found⟩ := wf.child_exists old
        rw [inserted.not_present wf] at found
        cases found
      · exact .inr ⟨parent, member,
          (inserted.reach_iff wf present source (parentNe parent member)).1 path⟩
  · rintro (rfl | ⟨parent, member, path⟩)
    · exact .refl
    · exact ((inserted.reach_iff wf present source (parentNe parent member)).2 path).tail
        ((edgeIff _ _).2 (.inr ⟨rfl, member⟩))

end Inserted

end Graph

end VThread.Cancellation

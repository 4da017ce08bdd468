import VThread.Cancellation.Marking

/-!
# Refinement of the uncompressed reference

The reference graph never forgets a vertex: insertion inherits the flags of the
parents, cancellation marks every descendant, and removal does nothing.  Along every
run of the compressed graph the live tokens have the flags and the mutual reachability
of the reference.
-/

namespace VThread.Cancellation

open VThread.Lib

/-- The uncompressed graph. -/
structure Reference where
  count : Nat
  parents : Nat → List Nat
  cancelled : Nat → Prop

namespace Reference

def empty : Reference := ⟨0, fun _ => [], fun _ => False⟩

def Link (reference : Reference) (parent child : Nat) : Prop :=
  parent ∈ reference.parents child

/-- `descendant` was inserted below `ancestor`, possibly through other vertices. -/
def Descends (reference : Reference) : Nat → Nat → Prop := Digraph.Reach reference.Link

def insert (reference : Reference) (parents : List Nat) : Reference where
  count := reference.count + 1
  parents := Function.update reference.parents reference.count parents
  cancelled := Function.update reference.cancelled reference.count
    (∃ parent ∈ parents, reference.cancelled parent)

def cancel (reference : Reference) (id : Nat) : Reference :=
  { reference with cancelled := fun other =>
      reference.cancelled other ∨ reference.Descends id other }

/-- Links lead from older to newer vertices. -/
def Ordered (reference : Reference) : Prop :=
  ∀ parent child, reference.Link parent child → parent < child ∧ child < reference.count

theorem Ordered.descends_le {reference : Reference} (ordered : reference.Ordered)
    {source target : Nat} (path : reference.Descends source target) : source ≤ target :=
  Digraph.Reach.le (fun parent child link => (ordered parent child link).1) path

section Insert

variable {reference : Reference} {parents : List Nat}

theorem link_insert (ordered : reference.Ordered) {parent child : Nat} :
    (reference.insert parents).Link parent child ↔
      reference.Link parent child ∨ child = reference.count ∧ parent ∈ parents := by
  by_cases equal : child = reference.count
  · subst equal
    have noLink : ¬ reference.Link parent reference.count := fun link =>
      (ordered _ _ link).2.false
    simp [Link, insert] at *
    exact fun link => (noLink link).elim
  · simp [Link, insert, equal]

theorem Ordered.insert (ordered : reference.Ordered)
    (below : ∀ parent ∈ parents, parent < reference.count) :
    (reference.insert parents).Ordered := by
  intro parent child link
  show parent < child ∧ child < reference.count + 1
  rcases (link_insert ordered).1 link with old | ⟨rfl, member⟩
  · have bounds := ordered parent child old
    omega
  · have bound := below parent member
    omega

theorem descends_insert (ordered : reference.Ordered) {source target : Nat}
    (targetNe : target ≠ reference.count) :
    (reference.insert parents).Descends source target ↔ reference.Descends source target := by
  constructor
  · intro path
    induction path with
    | refl => exact .refl
    | @tail middle last _ link ih =>
        have old := ((link_insert ordered).1 link).resolve_right fun new => targetNe new.1
        have bounds := ordered _ _ old
        exact (ih (by omega)).tail old
  · exact Relation.ReflTransGen.mono
      (fun parent child link => (link_insert ordered).2 (.inl link)) source target

theorem descends_insert_self (ordered : reference.Ordered)
    (below : ∀ parent ∈ parents, parent < reference.count) {source : Nat} :
    (reference.insert parents).Descends source reference.count ↔
      source = reference.count ∨ ∃ parent ∈ parents, reference.Descends source parent := by
  constructor
  · intro path
    rcases Relation.ReflTransGen.cases_tail path with equal | ⟨parent, path, link⟩
    · exact .inl equal.symm
    · rcases (link_insert ordered).1 link with old | ⟨-, member⟩
      · exact ((ordered _ _ old).2.false).elim
      · exact .inr ⟨parent, member,
          (descends_insert ordered (below parent member).ne).1 path⟩
  · rintro (rfl | ⟨parent, member, path⟩)
    · exact .refl
    · exact ((descends_insert ordered (below parent member).ne).2 path).tail
        ((link_insert ordered).2 (.inr ⟨rfl, member⟩))

end Insert

end Reference

/-! ## Runs -/

variable {ω ν : Type}

/-- One operation of a run.  A cancellation comes with what its weak handles upgrade to
at that time. -/
inductive Op (ω ν : Type) where
  | insert (parents : List Nat) (flag : ω)
  | cancel (id : Nat) (upgrade : ω → Option ν)
  | remove (id : Nat)

/-- The compressed graph next to its reference, the live tokens, and the handle every
token was inserted with. -/
structure World (ω : Type) where
  graph : Graph ω
  reference : Reference
  live : Finset Nat
  handle : Nat → Option ω

namespace World

def initial : World ω := ⟨.default, .empty, ∅, fun _ => none⟩

/-- Operations name live tokens. -/
def Permits (world : World ω) : Op ω ν → Prop
  | .insert parents _ => ∀ parent ∈ parents, parent ∈ world.live
  | .cancel id _ => id ∈ world.live
  | .remove id => id ∈ world.live

/-- Identities remain for the operation. -/
def HasRoom (world : World ω) : Op ω ν → Prop
  | .insert _ _ => world.reference.count + 1 < 2 ^ 64
  | _ => True

/-- Run an operation on the compressed graph and on its reference; a cancellation also
returns node handles. -/
def step (world : World ω) : Op ω ν → Checked (World ω × List ν)
  | .insert parents flag => do
      let (id, graph, _) ← world.graph.insertToken parents flag
      pure ({ graph
              reference := world.reference.insert parents
              live := Insert.insert id world.live
              handle := Function.update world.handle id (some flag) }, [])
  | .cancel id upgrade => do
      let (graph, cancelled) ← world.graph.cancelNodes upgrade id
      pure ({ world with graph, reference := world.reference.cancel id }, cancelled)
  | .remove id => do
      let graph ← world.graph.remove id
      pure ({ world with graph, live := world.live.erase id }, [])

/-- Worlds after finitely many permitted operations. -/
inductive Reachable (ν : Type) : World ω → Prop
  | initial : Reachable ν World.initial
  | step {world next : World ω} {op : Op ω ν} {handles : List ν} :
      Reachable ν world → world.Permits op → world.step op = .ok (next, handles) →
      Reachable ν next

instance (world : World ω) (op : Op ω ν) : Decidable (world.Permits op) :=
  match op with
  | .insert parents _ => inferInstanceAs (Decidable (∀ parent ∈ parents, parent ∈ world.live))
  | .cancel id _ => inferInstanceAs (Decidable (id ∈ world.live))
  | .remove id => inferInstanceAs (Decidable (id ∈ world.live))

/-- Permitted operations in a row, with the handles they return. -/
def run (world : World ω) : List (Op ω ν) → Checked (World ω × List ν)
  | [] => pure (world, [])
  | op :: ops => do
      ensure (world.Permits op) "operation not permitted"
      let (next, handles) ← world.step op
      let (last, later) ← run next ops
      pure (last, handles ++ later)

theorem run_reachable {world last : World ω} {ops : List (Op ω ν)} {handles : List ν}
    (reachable : Reachable ν world) (ran : world.run ops = .ok (last, handles)) :
    Reachable ν last := by
  induction ops generalizing world handles with
  | nil =>
      cases ran
      exact reachable
  | cons op ops ih =>
      obtain ⟨_, permitted, ran⟩ := bind_eq_ok.1 ran
      obtain ⟨⟨next, first⟩, stepped, ran⟩ := bind_eq_ok.1 ran
      obtain ⟨⟨_, later⟩, rest, ran⟩ := bind_eq_ok.1 ran
      cases ran
      exact ih (reachable.step (ensure_eq_ok.1 permitted) stepped) rest

/-- The compressed graph agrees with the reference on live tokens. -/
structure Agrees (world : World ω) : Prop where
  settled : world.graph.Settled
  next_eq : world.graph.next = world.reference.count
  ordered : world.reference.Ordered
  live_iff : ∀ id, id ∈ world.live ↔ world.graph.IsToken id
  cancelled : ∀ id ∈ world.live, (world.graph.Cancelled id ↔ world.reference.cancelled id)
  reach : ∀ source ∈ world.live, ∀ target ∈ world.live,
    (world.graph.Reach source target ↔ world.reference.Descends source target)
  handle : ∀ id ∈ world.live, world.graph.flagOf id = world.handle id

/-- A cancellation returns, each once, the upgradable handles of the live tokens whose
flag it turned; other operations return none. -/
def Reports (world next : World ω) (op : Op ω ν) (handles : List ν) : Prop :=
  match op with
  | .cancel _ upgrade => ∃ turned : List Nat, turned.Nodup ∧
      (∀ id, id ∈ turned ↔
        id ∈ world.live ∧ ¬ world.graph.Cancelled id ∧ next.graph.Cancelled id) ∧
      handles = turned.filterMap fun id => (world.handle id).bind upgrade
  | _ => handles = []

end World

namespace Graph

theorem flagOf_congr {graph graph' : Graph ω} {id : Nat}
    (core : graph'.coreOf id = graph.coreOf id) : graph'.flagOf id = graph.flagOf id := by
  simp only [coreOf] at core
  simp only [flagOf]
  cases found : graph.nodes id <;> cases found' : graph'.nodes id <;> simp_all

theorem flagOf_mark {graph : Graph ω} {marked : List Nat} {id : Nat} :
    (graph.mark marked).flagOf id = graph.flagOf id := by
  cases found : graph.nodes id <;> simp [flagOf, mark, found]

theorem settled_default : (Graph.default : Graph ω).Settled := by
  have noRelay : ∀ id, ¬ (Graph.default : Graph ω).IsRelay id := by
    rintro id ⟨entry, found, -⟩
    cases found
  exact {
    wf := {
      next_lt := by simp [Graph.default]
      fresh := fun _ _ => rfl
      edge_iff := by simp [Graph.default, childrenOf, parentsOf]
      edge_lt := by simp [Graph.default, Edge, childrenOf]
      cancelled_edge := by simp [Graph.default, Edge, childrenOf]
      flag_iff := by simp [Graph.default]
      token_ancestry := by simp [Graph.default, IsToken]
      relays_eq := by simp [Graph.default, IsRelay]
      index_iff := by simp [Graph.default] }
    consistent := fun id relay => (noRelay id relay).elim
    degrees := fun id relay => (noRelay id relay).elim
    distinct := fun left _ relay => (noRelay left relay).elim }

end Graph

namespace World

theorem agrees_initial : (World.initial : World ω).Agrees where
  settled := Graph.settled_default
  next_eq := rfl
  ordered parent child link := by simp [World.initial, Reference.empty, Reference.Link] at link
  live_iff id := by simp [World.initial, Graph.default, Graph.IsToken]
  cancelled id member := by simp [World.initial] at member
  reach source member := by simp [World.initial] at member
  handle id member := by simp [World.initial] at member

theorem Agrees.insert (ν : Type) {world : World ω} (agrees : world.Agrees)
    {parents : List Nat} (flag : ω) (permitted : ∀ parent ∈ parents, parent ∈ world.live)
    (room : world.reference.count + 1 < 2 ^ 64) :
    ∃ next, world.step (.insert parents flag : Op ω ν) = .ok (next, []) ∧ next.Agrees := by
  have wf := agrees.settled.wf
  have present : ∀ parent ∈ parents, world.graph.IsToken parent := fun parent member =>
    (agrees.live_iff parent).1 (permitted parent member)
  rw [← agrees.next_eq] at room
  obtain ⟨graph, isCancelled, insertedOk, inserted, inherits⟩ :=
    Graph.insertToken_spec room flag present
  have tokenLt : ∀ id, world.graph.IsToken id → id < world.graph.next := by
    rintro id ⟨entry, found, -⟩
    exact wf.lt_next found
  have liveNe : ∀ id ∈ world.live, id ≠ world.graph.next := fun id member =>
    (tokenLt id ((agrees.live_iff id).1 member)).ne
  have below : ∀ parent ∈ parents, parent < world.reference.count := by
    intro parent member
    rw [← agrees.next_eq]
    exact tokenLt parent (present parent member)
  have settled := inserted.settled agrees.settled room present inherits
  have ordered := agrees.ordered.insert below
  refine ⟨_, by simp only [step, insertedOk, ok_bind]; rfl, ?_⟩
  refine {
    settled := settled
    next_eq := by rw [inserted.next_eq, agrees.next_eq]; rfl
    ordered := ordered
    live_iff := ?_
    cancelled := ?_
    reach := ?_
    handle := ?_ }
  · intro id
    rw [inserted.isToken_iff, Finset.mem_insert, agrees.live_iff]
  · intro id member
    show graph.Cancelled id ↔ Function.update world.reference.cancelled world.reference.count
      (∃ parent ∈ parents, world.reference.cancelled parent) id
    rw [← agrees.next_eq]
    rcases Finset.mem_insert.1 member with rfl | member
    · rw [inserted.cancelled_self, inherits, Function.update_self]
      constructor
      · rintro ⟨parent, isParent, parentCancelled⟩
        exact ⟨parent, isParent,
          (agrees.cancelled parent (permitted parent isParent)).1 parentCancelled⟩
      · rintro ⟨parent, isParent, parentCancelled⟩
        exact ⟨parent, isParent,
          (agrees.cancelled parent (permitted parent isParent)).2 parentCancelled⟩
    · rw [Graph.cancelled_congr (inserted.core id (liveNe id member)),
        Function.update_of_ne (liveNe id member), agrees.cancelled id member]
  · intro source sourceMember target targetMember
    show graph.Reach source target ↔ (world.reference.insert parents).Descends source target
    rcases Finset.mem_insert.1 targetMember with rfl | targetMember
    · rw [inserted.reach_self_iff wf present, agrees.next_eq,
        Reference.descends_insert_self agrees.ordered below]
      refine or_congr Iff.rfl ?_
      rcases Finset.mem_insert.1 sourceMember with rfl | sourceMember
      · constructor
        · rintro ⟨parent, isParent, path⟩
          have le := wf.reach_le path
          have lt := tokenLt parent (present parent isParent)
          omega
        · rintro ⟨parent, isParent, path⟩
          have le := agrees.ordered.descends_le path
          have lt := tokenLt parent (present parent isParent)
          omega
      · constructor
        · rintro ⟨parent, isParent, path⟩
          exact ⟨parent, isParent,
            (agrees.reach source sourceMember parent (permitted parent isParent)).1 path⟩
        · rintro ⟨parent, isParent, path⟩
          exact ⟨parent, isParent,
            (agrees.reach source sourceMember parent (permitted parent isParent)).2 path⟩
    · have targetNe := liveNe target targetMember
      rcases Finset.mem_insert.1 sourceMember with rfl | sourceMember
      · have lt := tokenLt target ((agrees.live_iff target).1 targetMember)
        constructor
        · intro path
          have le := settled.wf.reach_le path
          omega
        · intro path
          have le := ordered.descends_le path
          omega
      · rw [inserted.reach_iff wf present source targetNe,
          Reference.descends_insert agrees.ordered (agrees.next_eq ▸ targetNe)]
        exact agrees.reach source sourceMember target targetMember
  · intro id member
    show graph.flagOf id = Function.update world.handle world.graph.next (some flag) id
    rcases Finset.mem_insert.1 member with rfl | member
    · obtain ⟨entry, found, same⟩ := Graph.coreOf_eq_some.1 inserted.core_self
      simp only [Prod.mk.injEq] at same
      simp [Graph.flagOf, found, same.2.1]
    · rw [Graph.flagOf_congr (inserted.core id (liveNe id member)),
        Function.update_of_ne (liveNe id member), agrees.handle id member]

theorem Agrees.remove (ν : Type) {world : World ω} (agrees : world.Agrees) {id : Nat}
    (permitted : id ∈ world.live) :
    ∃ next, world.step (.remove id : Op ω ν) = .ok (next, []) ∧ next.Agrees := by
  obtain ⟨graph, removedOk, settled, forgets⟩ :=
    Graph.remove_spec agrees.settled ((agrees.live_iff id).1 permitted)
  refine ⟨_, by simp only [step, removedOk, ok_bind]; rfl, ?_⟩
  have old : ∀ other ∈ world.live.erase id,
      other ≠ id ∧ other ∈ world.live ∧ world.graph.IsToken other := by
    intro other member
    obtain ⟨ne, member⟩ := Finset.mem_erase.1 member
    exact ⟨ne, member, (agrees.live_iff other).1 member⟩
  refine {
    settled := settled
    next_eq := forgets.next_eq.trans agrees.next_eq
    ordered := agrees.ordered
    live_iff := ?_
    cancelled := ?_
    reach := ?_
    handle := ?_ }
  · intro other
    rw [forgets.isToken, Finset.mem_erase, agrees.live_iff]
  · intro other member
    obtain ⟨ne, member, token⟩ := old other member
    rw [Graph.cancelled_congr (forgets.core other ne token)]
    exact agrees.cancelled other member
  · intro source sourceMember target targetMember
    obtain ⟨sourceNe, sourceMember, sourceToken⟩ := old source sourceMember
    obtain ⟨targetNe, targetMember, targetToken⟩ := old target targetMember
    rw [forgets.reach source target sourceNe targetNe sourceToken targetToken]
    exact agrees.reach source sourceMember target targetMember
  · intro other member
    obtain ⟨ne, member, token⟩ := old other member
    rw [Graph.flagOf_congr (forgets.core other ne token)]
    exact agrees.handle other member

theorem Agrees.cancel {world : World ω} (agrees : world.Agrees) {root : Nat}
    (upgrade : ω → Option ν) (permitted : root ∈ world.live) :
    ∃ next handles, world.step (.cancel root upgrade) = .ok (next, handles) ∧ next.Agrees ∧
      Reports world next (.cancel root upgrade) handles := by
  have wf := agrees.settled.wf
  have rootToken := (agrees.live_iff root).1 permitted
  obtain ⟨graph, marked, cancelledOk, nodup, mem_marked, settled, same⟩ :=
    Graph.cancelNodes_spec agrees.settled upgrade rootToken
  have tokenIff : ∀ id, graph.IsToken id ↔ world.graph.IsToken id := fun id =>
    (same.isToken id).trans Graph.mark_isToken
  have cancelledIff : ∀ id, world.graph.IsToken id →
      (graph.Cancelled id ↔ world.graph.Cancelled id ∨ world.graph.Reach root id) := by
    intro id token
    have present : ∃ entry, world.graph.nodes id = some entry := by
      obtain ⟨entry, found, -⟩ := token
      exact ⟨entry, found⟩
    rw [Graph.cancelled_congr (same.core id (Graph.mark_isToken.2 token)),
      Graph.mark_cancelled marked present, mem_marked]
    tauto
  refine ⟨_, _, by simp only [step, cancelledOk, ok_bind]; rfl, ?_, ?_⟩
  · refine {
      settled := settled
      next_eq := same.next_eq.trans agrees.next_eq
      ordered := agrees.ordered
      live_iff := ?_
      cancelled := ?_
      reach := ?_
      handle := ?_ }
    · intro id
      rw [tokenIff]
      exact agrees.live_iff id
    · intro id member
      rw [cancelledIff id ((agrees.live_iff id).1 member), agrees.cancelled id member,
        agrees.reach root permitted id member]
      rfl
    · intro source sourceMember target targetMember
      rw [same.reach source target
        (Graph.mark_isToken.2 ((agrees.live_iff source).1 sourceMember))
        (Graph.mark_isToken.2 ((agrees.live_iff target).1 targetMember)), Graph.mark_reach]
      exact agrees.reach source sourceMember target targetMember
    · intro id member
      rw [Graph.flagOf_congr
        (same.core id (Graph.mark_isToken.2 ((agrees.live_iff id).1 member))),
        Graph.flagOf_mark]
      exact agrees.handle id member
  · -- The relays among the marked entries have no handle.
    have presentOf : ∀ id ∈ marked, ∃ entry, world.graph.nodes id = some entry := by
      intro id member
      rcases Relation.ReflTransGen.cases_tail ((mem_marked id).1 member).1 with
        rfl | ⟨parent, -, edge⟩
      · obtain ⟨entry, found, -⟩ := rootToken
        exact ⟨entry, found⟩
      · exact wf.child_exists edge
    have tokenOf : ∀ id ∈ marked, (decide (id ∈ world.live) = true ↔
        (world.graph.flagOf id).isSome = true) := by
      intro id member
      obtain ⟨entry, found⟩ := presentOf id member
      rw [decide_eq_true_eq, agrees.live_iff, Graph.isToken_iff found, ← wf.flag_iff id entry found]
      simp [Graph.flagOf, found]
    refine ⟨marked.filter fun id => decide (id ∈ world.live), nodup.filter _, ?_, ?_⟩
    · intro id
      rw [List.mem_filter, decide_eq_true_eq, mem_marked]
      constructor
      · rintro ⟨⟨path, fresh⟩, live⟩
        exact ⟨live, fresh, (cancelledIff id ((agrees.live_iff id).1 live)).2 (.inr path)⟩
      · rintro ⟨live, fresh, turned⟩
        exact ⟨⟨((cancelledIff id ((agrees.live_iff id).1 live)).1 turned).resolve_left fresh,
          fresh⟩, live⟩
    · rw [List.filterMap_filter]
      apply List.filterMap_congr
      intro id member
      by_cases live : id ∈ world.live
      · simp [live, agrees.handle id live]
      · have noHandle : world.graph.flagOf id = none := by
          have notSome := (tokenOf id member).not.1 (by simp [live])
          simpa using notSome
        simp [live, noHandle]

/-- Every permitted operation with room for its identity returns and keeps the
agreement. -/
theorem Agrees.step {world : World ω} (agrees : world.Agrees) {op : Op ω ν}
    (permitted : world.Permits op) (room : world.HasRoom op) :
    ∃ next handles, world.step op = .ok (next, handles) ∧ next.Agrees ∧
      Reports world next op handles := by
  cases op with
  | insert parents flag =>
      obtain ⟨next, stepped, agrees'⟩ := agrees.insert ν flag permitted room
      exact ⟨next, [], stepped, agrees', rfl⟩
  | cancel id upgrade => exact agrees.cancel upgrade permitted
  | remove id =>
      obtain ⟨next, stepped, agrees'⟩ := agrees.remove ν permitted
      exact ⟨next, [], stepped, agrees', rfl⟩

/-- An insertion that returned had room for its identity. -/
theorem hasRoom_of_step {world next : World ω} {op : Op ω ν} {handles : List ν}
    (agrees : world.Agrees) (stepped : world.step op = .ok (next, handles)) :
    world.HasRoom op := by
  cases op with
  | insert =>
      obtain ⟨result, insertedOk, -⟩ := bind_eq_ok.1 stepped
      obtain ⟨reserved, reservedOk, -⟩ := bind_eq_ok.1 insertedOk
      obtain ⟨_, room, -⟩ := bind_eq_ok.1 reservedOk
      show world.reference.count + 1 < 2 ^ 64
      rw [← agrees.next_eq]
      exact ensure_eq_ok.1 room
  | cancel => trivial
  | remove id => trivial

theorem Reachable.agrees {world : World ω} (reachable : Reachable ν world) :
    world.Agrees := by
  induction reachable with
  | initial => exact agrees_initial
  | step _ permitted stepped ih =>
      obtain ⟨next, handles, stepped', agrees, -⟩ :=
        ih.step permitted (hasRoom_of_step ih stepped)
      rw [stepped] at stepped'
      cases stepped'
      exact agrees

/-- In every run the flags of the live tokens, and their descendants, are those of the
uncompressed reference; every further operation returns; and a cancellation reports
exactly the live tokens it turned. -/
theorem compressed_graph_matches_reference {world : World ω} (reachable : Reachable ν world) :
    (∀ id ∈ world.live, ∃ flag, world.graph.isCancelled id = .ok flag ∧
      (flag = true ↔ world.reference.cancelled id)) ∧
    (∀ source ∈ world.live, ∀ target ∈ world.live,
      (world.graph.Reach source target ↔ world.reference.Descends source target)) ∧
    ∀ op : Op ω ν, world.Permits op → world.HasRoom op →
      ∃ next handles, world.step op = .ok (next, handles) ∧ Reports world next op handles := by
  have agrees := reachable.agrees
  refine ⟨?_, agrees.reach, ?_⟩
  · intro id member
    obtain ⟨entry, found, -⟩ := (agrees.live_iff id).1 member
    refine ⟨entry.cancelled, ?_, ?_⟩
    · rw [Graph.isCancelled, Graph.index, found]
      rfl
    · rw [← agrees.cancelled id member, Graph.cancelled_iff found]
  · intro op permitted room
    obtain ⟨next, handles, stepped, -, reports⟩ := agrees.step permitted room
    exact ⟨next, handles, stepped, reports⟩

/-! ## A run with a relay -/

/-- Two tokens without parents, a child of both, and two children of that child. -/
structure Wide (graph : Graph Nat) : Prop where
  next_eq : graph.next = 5
  relays_eq : graph.relays = 0
  index_eq : graph.relayIndex = fun _ => ∅
  left : graph.nodes 0 = some ⟨.token, some 10, false, .empty, .one 2, .singleton 0⟩
  right : graph.nodes 1 = some ⟨.token, some 11, false, .empty, .one 2, .singleton 1⟩
  middle : graph.nodes 2 = some ⟨.token, some 12, false, .many {0, 1} (by decide),
    .many {3, 4} (by decide), .singleton 2⟩
  first : graph.nodes 3 = some ⟨.token, some 13, false, .one 2, .empty, .singleton 3⟩
  second : graph.nodes 4 = some ⟨.token, some 14, false, .one 2, .empty, .singleton 4⟩

/-- The same graph when its middle has become a relay. -/
structure Relayed (graph : Graph Nat) (signature : Signature) : Prop where
  next_eq : graph.next = 5
  relays_eq : graph.relays = 1
  index_eq : graph.relayIndex signature.candidate = {2}
  left : graph.nodes 0 = some ⟨.token, some 10, false, .empty, .one 2, .singleton 0⟩
  right : graph.nodes 1 = some ⟨.token, some 11, false, .empty, .one 2, .singleton 1⟩
  middle : graph.nodes 2 = some ⟨.relay, none, false, .many {0, 1} (by decide),
    .many {3, 4} (by decide), signature⟩
  first : graph.nodes 3 = some ⟨.token, some 13, false, .one 2, .empty, .singleton 3⟩
  second : graph.nodes 4 = some ⟨.token, some 14, false, .one 2, .empty, .singleton 4⟩

theorem sort_pair {left right : Nat} (less : left < right) :
    ({left, right} : Finset Nat).sort (· ≤ ·) = [left, right] := by
  rw [Finset.sort_insert] <;> simp <;> omega

theorem wide_reachable :
    ∃ world : World Nat, Reachable Nat world ∧ world.live = {4, 3, 2, 1, 0} ∧ Wide world.graph := by
  have ran : ∃ world, (World.initial : World Nat).run ([.insert [] 10, .insert [] 11,
      .insert [0, 1] 12, .insert [2] 13, .insert [2] 14] : List (Op Nat Nat)) = .ok (world, []) ∧
      world.live = {4, 3, 2, 1, 0} ∧ Wide world.graph := by
    simp [run, step, Permits, World.initial, Graph.insertToken, Graph.reserve, Graph.insert,
      Graph.adopt, IdSet.ofList, IdSet.insert, IdSet.toList, sort_pair, Graph.default, Graph.put,
      ensure_of trivial]
    constructor <;> simp
  obtain ⟨world, ran, facts⟩ := ran
  exact ⟨world, run_reachable .initial ran, facts⟩

/-- The removal of the middle hands the new relay and its children over. -/
theorem Wide.prepareRemove {graph : Graph Nat} (wide : Wide graph) :
    ∃ graph' signature, graph.prepareRemove 2 =
      .ok (graph', some [.known 2, .dirty 3, .dirty 4]) ∧ Relayed graph' signature := by
  simp [Graph.prepareRemove, Graph.index, wide.middle, Graph.directParent, Graph.directLeaf,
    IdSet.isEmpty, ensure_of trivial, Graph.anyCancelled, IdSet.toList, sort_pair, wide.left,
    wide.right, Graph.signatureFor, IdSet.toFinset, Graph.modify, Graph.put, Graph.indexRelay]
  refine ⟨(Signature.default.union (.singleton 0)).union (.singleton 1), wide.next_eq, ?_, ?_,
    wide.left, wide.right, ?_, wide.first, wide.second⟩
  · simp [wide.relays_eq]
  · simp [wide.index_eq]
  · simp

theorem normalizeLoop_keep {fuel : Nat} {graph : Graph ω} {pending rest : Pending} {id : Nat}
    {state : SignatureState} (popped : pending.popFirst = some (id, state, rest))
    (kept : graph.normalizeStep id state rest = .ok (graph, rest)) :
    graph.normalizeLoop (fuel + 1) pending = graph.normalizeLoop fuel rest := by
  rw [Graph.normalizeLoop, popped]
  simp [kept]

/-- A wide relay without an equivalent one stays. -/
theorem normalizeStep_alone {graph : Graph ω} {id : Nat} {entry : Entry ω}
    (found : graph.nodes id = some entry) (relay : entry.kind = .relay)
    (parents : 1 < entry.parents.len) (children : 1 < entry.children.len)
    (alone : graph.relayIndex entry.signature.candidate = {id}) (pending : Pending) :
    graph.normalizeStep id .known pending = .ok (graph, pending) := by
  simp only [Graph.normalizeStep, found, relay, Nat.not_le.2 parents, Nat.not_le.2 children]
  simp [Graph.equivalentRelay, found, relay, alone, List.findM?]
  rfl

theorem Relayed.normalize {graph : Graph Nat} {signature : Signature}
    (relayed : Relayed graph signature) :
    graph.normalize [.known 2, .dirty 3, .dirty 4] = .ok graph := by
  have fuel : graph.normalizeFuel = 215 + 1 := by simp [Graph.normalizeFuel, relayed.next_eq]
  have relay : graph.normalizeLoop (215 + 1) (Pending.empty.enqueueAll
      [.known 2, .dirty 3, .dirty 4]) = graph.normalizeLoop 215 ⟨{4, 3}, {4, 3}, by decide⟩ :=
    normalizeLoop_keep rfl (normalizeStep_alone relayed.middle rfl Nat.one_lt_two Nat.one_lt_two
      relayed.index_eq _)
  have first : graph.normalizeLoop 215 ⟨{4, 3}, {4, 3}, by decide⟩ =
      graph.normalizeLoop 214 ⟨{4}, {4}, by decide⟩ :=
    normalizeLoop_keep rfl (by simp [Graph.normalizeStep, relayed.first]; rfl)
  have second : graph.normalizeLoop 214 ⟨{4}, {4}, by decide⟩ =
      graph.normalizeLoop 213 ⟨∅, ∅, by decide⟩ :=
    normalizeLoop_keep rfl (by simp [Graph.normalizeStep, relayed.second]; rfl)
  rw [Graph.normalize, fuel, relay, first, second]
  rfl

theorem relayed_reachable : ∃ (world : World Nat) (signature : Signature),
    Reachable Nat world ∧ world.live = {4, 3, 1, 0} ∧ Relayed world.graph signature := by
  obtain ⟨world, reachable, live, wide⟩ := wide_reachable
  obtain ⟨graph, signature, prepared, relayed⟩ := wide.prepareRemove
  have removed : world.step (.remove 2 : Op Nat Nat) =
      .ok ({ world with graph, live := world.live.erase 2 }, []) := by
    simp [step, Graph.remove_eq, prepared, Graph.finish, relayed.normalize]
  have permitted : world.Permits (.remove 2 : Op Nat Nat) := by simp [Permits, live]
  have erased : world.live.erase 2 = {4, 3, 1, 0} := by
    rw [live]
    decide
  exact ⟨_, signature, reachable.step permitted removed, erased, relayed⟩

/-- A cancellation above the relay reports the tokens below it, from the end of the stack. -/
theorem Relayed.cancel {graph : Graph Nat} {signature : Signature}
    (relayed : Relayed graph signature) :
    ∃ graph', graph.cancelNodes some 0 = .ok (graph', [10, 14, 13]) ∧
      graph'.isCancelled 1 = .ok false ∧ ∀ id ∈ [0, 3, 4], graph'.isCancelled id = .ok true := by
  have prepared : ∃ graph', graph.prepareCancel some 0 =
      .ok ((graph', [.known 2]), [10, 14, 13]) ∧ graph'.next = 5 ∧
        graph'.relayIndex signature.candidate = {2} ∧
        graph'.nodes 2 = some ⟨.relay, none, true, .many {0, 1} (by decide),
          .many {3, 4} (by decide), signature⟩ ∧
        graph'.isCancelled 1 = .ok false ∧
        ∀ id ∈ [0, 3, 4], graph'.isCancelled id = .ok true := by
    simp [Graph.prepareCancel, Graph.cancelFuel, Graph.cancelLoop, relayed.next_eq, relayed.left,
      relayed.middle, relayed.first, relayed.second, IdSet.toList, sort_pair, Graph.put,
      RelayWork.known, Graph.isCancelled, Graph.index]
    refine ⟨_, rfl, rfl, relayed.index_eq, ?_⟩
    simp [relayed.right, Functor.map, Except.map]
  obtain ⟨graph', prepared, next_eq, index_eq, middle, flags⟩ := prepared
  have fuel : graph'.normalizeFuel = 215 + 1 := by simp [Graph.normalizeFuel, next_eq]
  have relay : graph'.normalizeLoop (215 + 1) (Pending.empty.enqueueAll [.known 2]) =
      graph'.normalizeLoop 215 ⟨∅, ∅, by decide⟩ :=
    normalizeLoop_keep rfl (normalizeStep_alone middle rfl Nat.one_lt_two Nat.one_lt_two
      index_eq _)
  refine ⟨graph', ?_, flags⟩
  rw [Graph.cancelNodes_eq, prepared, ok_bind, Graph.normalize, fuel, relay]
  rfl

/-- The removal of the middle leaves a relay; then the cancellation of one of its parents turns
that parent and the two children, and no other token. -/
theorem compressed_graph_matches_reference_relay :
    ∃ world next : World Nat, Reachable Nat world ∧ world.live = {4, 3, 1, 0} ∧
      world.graph.IsRelay 2 ∧
      world.step (.cancel 0 some : Op Nat Nat) = .ok (next, [10, 14, 13]) ∧
      next.graph.isCancelled 1 = .ok false ∧ ¬ next.reference.cancelled 1 ∧
      ∀ id ∈ [0, 3, 4], next.graph.isCancelled id = .ok true ∧ next.reference.cancelled id := by
  obtain ⟨world, signature, reachable, live, relayed⟩ := relayed_reachable
  obtain ⟨graph, cancelled, live', turned⟩ := relayed.cancel
  have stepped : world.step (.cancel 0 some : Op Nat Nat) = .ok ({ world with
      graph, reference := world.reference.cancel 0 }, [10, 14, 13]) := by
    rw [step, cancelled]
    rfl
  have reachable' := reachable.step (show Permits _ _ by simp [Permits, live]) stepped
  have flags := (compressed_graph_matches_reference reachable').1
  refine ⟨world, _, reachable, live, ⟨_, relayed.middle, rfl⟩, stepped, live', ?_, ?_⟩
  · obtain ⟨flag, isCancelled, agrees⟩ := flags 1 (by simp [live])
    cases live'.symm.trans isCancelled
    simpa using agrees
  · intro id member
    obtain ⟨flag, isCancelled, agrees⟩ := flags id (by
      rw [live]
      revert id
      decide)
    cases (turned id member).symm.trans isCancelled
    exact ⟨turned id member, agrees.1 rfl⟩

end World

end VThread.Cancellation

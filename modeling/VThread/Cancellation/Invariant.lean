import Mathlib.Data.Set.Card
import VThread.Cancellation.Graph
import VThread.Lib.Digraph

/-!
# Invariants of the compressed graph

`WF` is what every rewrite keeps.  `Normalizing` is the invariant of the work loop
while the signatures of some relays still mention a removed token; with an empty
queue it is `Settled`, the state between operations.
-/

namespace VThread.Cancellation

open VThread.Lib

variable {ω : Type}

namespace Graph

/-! ## Views -/

def IsToken (graph : Graph ω) (id : Nat) : Prop :=
  ∃ entry, graph.nodes id = some entry ∧ entry.kind = .token

def IsRelay (graph : Graph ω) (id : Nat) : Prop :=
  ∃ entry, graph.nodes id = some entry ∧ entry.kind = .relay

def Cancelled (graph : Graph ω) (id : Nat) : Prop :=
  ∃ entry, graph.nodes id = some entry ∧ entry.cancelled = true

def parentsOf (graph : Graph ω) (id : Nat) : ParentSet :=
  (graph.nodes id).elim .empty Entry.parents

def childrenOf (graph : Graph ω) (id : Nat) : IdSet :=
  (graph.nodes id).elim .empty Entry.children

/-- The identities in an entry's stored signature. -/
def ancestry (graph : Graph ω) (id : Nat) : Finset Nat :=
  (graph.nodes id).elim ∅ (·.signature.members)

/-- The downward link relation. -/
def Edge (graph : Graph ω) (parent child : Nat) : Prop := child ∈ graph.childrenOf parent

/-- Descent through tokens and relays. -/
abbrev Reach (graph : Graph ω) : Nat → Nat → Prop := Digraph.Reach graph.Edge

/-- Everything an entry stores besides its links. -/
def coreOf (graph : Graph ω) (id : Nat) : Option (Kind × Option ω × Bool × Signature) :=
  (graph.nodes id).map fun entry => (entry.kind, entry.flag, entry.cancelled, entry.signature)

section Lookup

variable {graph : Graph ω} {id : Nat} {entry : Entry ω}

theorem parentsOf_eq (found : graph.nodes id = some entry) :
    graph.parentsOf id = entry.parents := by
  simp [parentsOf, found]

theorem childrenOf_eq (found : graph.nodes id = some entry) :
    graph.childrenOf id = entry.children := by
  simp [childrenOf, found]

theorem ancestry_eq (found : graph.nodes id = some entry) :
    graph.ancestry id = entry.signature.members := by
  simp [ancestry, found]

theorem isToken_iff (found : graph.nodes id = some entry) :
    graph.IsToken id ↔ entry.kind = .token := by
  simp [IsToken, found]

theorem isRelay_iff (found : graph.nodes id = some entry) :
    graph.IsRelay id ↔ entry.kind = .relay := by
  simp [IsRelay, found]

theorem cancelled_iff (found : graph.nodes id = some entry) :
    graph.Cancelled id ↔ entry.cancelled = true := by
  simp [Cancelled, found]

theorem IsToken.not_isRelay (token : graph.IsToken id) : ¬ graph.IsRelay id := by
  rintro ⟨entry, found, relay⟩
  rw [isToken_iff found, relay] at token
  cases token

theorem exists_of_mem_childrenOf {child : Nat} (member : child ∈ graph.childrenOf id) :
    ∃ entry, graph.nodes id = some entry := by
  cases found : graph.nodes id with
  | none => simp [childrenOf, found] at member
  | some entry => exact ⟨entry, rfl⟩

theorem exists_of_mem_parentsOf {parent : Nat} (member : parent ∈ graph.parentsOf id) :
    ∃ entry, graph.nodes id = some entry := by
  cases found : graph.nodes id with
  | none => simp [parentsOf, found] at member
  | some entry => exact ⟨entry, rfl⟩

theorem isToken_or_isRelay (found : graph.nodes id = some entry) :
    graph.IsToken id ∨ graph.IsRelay id := by
  rw [isToken_iff found, isRelay_iff found]
  cases entry.kind <;> simp

end Lookup

/-! Views that do not involve links agree wherever the cores do. -/
section Core

variable {graph graph' : Graph ω} {id : Nat}

theorem isToken_congr (core : graph'.coreOf id = graph.coreOf id) :
    graph'.IsToken id ↔ graph.IsToken id := by
  simp only [coreOf] at core
  simp only [IsToken]
  cases found : graph.nodes id <;> cases found' : graph'.nodes id <;> simp_all

theorem isRelay_congr (core : graph'.coreOf id = graph.coreOf id) :
    graph'.IsRelay id ↔ graph.IsRelay id := by
  simp only [coreOf] at core
  simp only [IsRelay]
  cases found : graph.nodes id <;> cases found' : graph'.nodes id <;> simp_all

theorem cancelled_congr (core : graph'.coreOf id = graph.coreOf id) :
    graph'.Cancelled id ↔ graph.Cancelled id := by
  simp only [coreOf] at core
  simp only [Cancelled]
  cases found : graph.nodes id <;> cases found' : graph'.nodes id <;> simp_all

theorem ancestry_congr (core : graph'.coreOf id = graph.coreOf id) :
    graph'.ancestry id = graph.ancestry id := by
  simp only [coreOf] at core
  simp only [ancestry]
  cases found : graph.nodes id <;> cases found' : graph'.nodes id <;> simp_all

theorem coreOf_eq_none : graph.coreOf id = none ↔ graph.nodes id = none := by
  simp [coreOf]

theorem coreOf_eq_some {core : Kind × Option ω × Bool × Signature} :
    graph.coreOf id = some core ↔ ∃ entry, graph.nodes id = some entry ∧
      (entry.kind, entry.flag, entry.cancelled, entry.signature) = core := by
  simp [coreOf]

end Core

/-! ## Structure -/

/-- The links, flags, index and counter of a graph fit together. -/
structure WF (graph : Graph ω) : Prop where
  next_lt : graph.next < 2 ^ 64
  fresh : ∀ id, graph.next ≤ id → graph.nodes id = none
  edge_iff : ∀ parent child,
    child ∈ graph.childrenOf parent ↔ parent ∈ graph.parentsOf child
  edge_lt : ∀ parent child, graph.Edge parent child → parent < child
  cancelled_edge : ∀ parent child, graph.Edge parent child →
    graph.Cancelled parent → graph.Cancelled child
  flag_iff : ∀ id entry, graph.nodes id = some entry →
    (entry.flag.isSome ↔ entry.kind = .token)
  token_ancestry : ∀ id, graph.IsToken id → graph.ancestry id = {id}
  relays_eq : graph.relays = {id | graph.IsRelay id}.ncard
  index_iff : ∀ candidate id, id ∈ graph.relayIndex candidate ↔
    ∃ entry, graph.nodes id = some entry ∧ entry.kind = .relay ∧
      entry.signature.candidate = candidate

namespace WF

variable {graph : Graph ω}

theorem lt_next (wf : graph.WF) {id : Nat} {entry : Entry ω}
    (found : graph.nodes id = some entry) : id < graph.next := by
  by_contra notBelow
  rw [wf.fresh id (Nat.le_of_not_lt notBelow)] at found
  cases found

theorem parent_mem (wf : graph.WF) {id parent : Nat} {entry : Entry ω}
    (found : graph.nodes id = some entry) :
    parent ∈ entry.parents ↔ graph.Edge parent id := by
  rw [Edge, wf.edge_iff, parentsOf_eq found]

theorem child_mem {id child : Nat} {entry : Entry ω}
    (found : graph.nodes id = some entry) :
    child ∈ entry.children ↔ graph.Edge id child := by
  rw [Edge, childrenOf_eq found]

theorem parent_exists {parent child : Nat} (edge : graph.Edge parent child) :
    ∃ entry, graph.nodes parent = some entry :=
  exists_of_mem_childrenOf edge

theorem child_exists (wf : graph.WF) {parent child : Nat} (edge : graph.Edge parent child) :
    ∃ entry, graph.nodes child = some entry :=
  exists_of_mem_parentsOf ((wf.edge_iff parent child).1 edge)

theorem finite_relays (wf : graph.WF) : {id | graph.IsRelay id}.Finite := by
  apply (Set.finite_lt_nat graph.next).subset
  rintro id ⟨entry, found, -⟩
  exact wf.lt_next found

theorem loopless (wf : graph.WF) (id : Nat) : ¬ graph.Edge id id :=
  fun edge => (wf.edge_lt id id edge).false

theorem reach_le (wf : graph.WF) {source target : Nat} (path : graph.Reach source target) :
    source ≤ target :=
  Digraph.Reach.le wf.edge_lt path

end WF

/-! ## Signatures -/

/-- An entry's stored ancestry is the union of its parents'. -/
def Consistent (graph : Graph ω) (id : Nat) : Prop :=
  ∀ ancestor, ancestor ∈ graph.ancestry id ↔
    ∃ parent, graph.Edge parent id ∧ ancestor ∈ graph.ancestry parent

/-- Two relays that the compaction would merge. -/
def Equivalent (graph : Graph ω) (left right : Nat) : Prop :=
  graph.ancestry left = graph.ancestry right ∧
    (graph.Cancelled left ↔ graph.Cancelled right)

/-- The invariant of the work loop around the removal of `gone`: a relay whose stored
signature still mentions it is queued as dirty or lies below such an entry. -/
structure Normalizing (graph : Graph ω) (pending : Pending) (gone : Nat) : Prop where
  wf : graph.WF
  consistent : ∀ id, graph.IsRelay id → gone ∉ graph.ancestry id → graph.Consistent id
  stale_parent : ∀ id, graph.IsRelay id → gone ∈ graph.ancestry id →
    id ∈ pending.dirty ∨ ∃ parent, graph.Edge parent id ∧ gone ∈ graph.ancestry parent
  degrees : ∀ id, graph.IsRelay id → id ∉ pending.ids →
    2 ≤ (graph.parentsOf id).len ∧ 2 ≤ (graph.childrenOf id).len
  distinct : ∀ left right, graph.IsRelay left → graph.IsRelay right → left ≠ right →
    left ∉ pending.ids → right ∉ pending.ids → ¬ graph.Equivalent left right
  bounded : ∀ id ∈ pending.ids, id < graph.next

/-- The invariant between operations. -/
structure Settled (graph : Graph ω) : Prop where
  wf : graph.WF
  consistent : ∀ id, graph.IsRelay id → graph.Consistent id
  degrees : ∀ id, graph.IsRelay id →
    2 ≤ (graph.parentsOf id).len ∧ 2 ≤ (graph.childrenOf id).len
  distinct : ∀ left right, graph.IsRelay left → graph.IsRelay right → left ≠ right →
    ¬ graph.Equivalent left right

/-- Once the removed token is dead, only relays mention it. -/
theorem WF.isRelay_of_mentions {graph : Graph ω} (wf : graph.WF) {gone id : Nat}
    (dead : ¬ graph.IsToken gone) (mentions : gone ∈ graph.ancestry id) :
    graph.IsRelay id := by
  cases found : graph.nodes id with
  | none => simp [ancestry, found] at mentions
  | some entry =>
      refine (isToken_or_isRelay found).resolve_left fun token => ?_
      rw [wf.token_ancestry id token, Finset.mem_singleton] at mentions
      exact dead (mentions ▸ token)

/-- Stale relays lie below a dirty one. -/
theorem Normalizing.exists_dirty {graph : Graph ω} {pending : Pending} {gone id : Nat}
    (inv : graph.Normalizing pending gone) (dead : ¬ graph.IsToken gone)
    (mentions : gone ∈ graph.ancestry id) : ∃ source ∈ pending.dirty, source ≤ id := by
  induction id using Nat.strong_induction_on with
  | h id ih =>
      have relay := inv.wf.isRelay_of_mentions dead mentions
      rcases inv.stale_parent id relay mentions with dirty | ⟨parent, edge, inherited⟩
      · exact ⟨id, dirty, le_rfl⟩
      · have below := inv.wf.edge_lt _ _ edge
        obtain ⟨source, dirty, le⟩ := ih parent below inherited
        exact ⟨source, dirty, le.trans below.le⟩

/-- With nothing queued, every signature is exact. -/
theorem Normalizing.settled {graph : Graph ω} {pending : Pending} {gone : Nat}
    (inv : graph.Normalizing pending gone) (dead : ¬ graph.IsToken gone)
    (drained : pending.ids = ∅) : graph.Settled := by
  have clean : ∀ id, gone ∉ graph.ancestry id := by
    intro id mentions
    obtain ⟨source, dirty, -⟩ := inv.exists_dirty dead mentions
    have queued := pending.dirty_subset dirty
    simp [drained] at queued
  exact {
    wf := inv.wf
    consistent := fun id relay => inv.consistent id relay (clean id)
    degrees := fun id relay => inv.degrees id relay (by simp [drained])
    distinct := fun left right leftRelay rightRelay ne =>
      inv.distinct left right leftRelay rightRelay ne (by simp [drained]) (by simp [drained]) }

/-- Where no signature mentions `gone`, a token reaches an entry exactly when it reaches
one of the tokens in its signature. -/
theorem reach_iff_ancestry {graph : Graph ω} (wf : graph.WF) {gone : Nat}
    (consistent : ∀ id, graph.IsRelay id → gone ∉ graph.ancestry id → graph.Consistent id)
    {source target : Nat} (sourceToken : graph.IsToken source)
    (known : graph.IsToken target ∨ graph.IsRelay target)
    (clean : gone ∉ graph.ancestry target) :
    graph.Reach source target ↔
      ∃ ancestor ∈ graph.ancestry target, graph.Reach source ancestor := by
  induction target using Nat.strong_induction_on with
  | h target ih =>
      rcases known with token | relay
      · simp [wf.token_ancestry target token]
      · have exactness := consistent target relay clean
        have differ : source ≠ target := by
          rintro rfl
          exact sourceToken.not_isRelay relay
        have viaParent : ∀ parent, graph.Edge parent target →
            (graph.Reach source parent ↔
              ∃ ancestor ∈ graph.ancestry parent, graph.Reach source ancestor) := by
          intro parent edge
          obtain ⟨entry, found⟩ := WF.parent_exists edge
          apply ih parent (wf.edge_lt _ _ edge) (isToken_or_isRelay found)
          exact fun inherited => clean ((exactness gone).2 ⟨parent, edge, inherited⟩)
        constructor
        · intro path
          rcases Relation.ReflTransGen.cases_tail path with equal | ⟨parent, path, edge⟩
          · exact (differ equal.symm).elim
          · obtain ⟨ancestor, member, reach⟩ := (viaParent parent edge).1 path
            exact ⟨ancestor, (exactness ancestor).2 ⟨parent, edge, member⟩, reach⟩
        · rintro ⟨ancestor, member, reach⟩
          obtain ⟨parent, edge, inParent⟩ := (exactness ancestor).1 member
          exact ((viaParent parent edge).2 ⟨ancestor, inParent, reach⟩).tail edge

/-! ## What tokens see -/

/-- A rewrite that tokens cannot observe: it keeps their entries, flags and mutual
reachability. -/
structure SameTokens (graph graph' : Graph ω) : Prop where
  next_eq : graph'.next = graph.next
  isToken : ∀ id, graph'.IsToken id ↔ graph.IsToken id
  core : ∀ id, graph.IsToken id → graph'.coreOf id = graph.coreOf id
  reach : ∀ source target, graph.IsToken source → graph.IsToken target →
    (graph'.Reach source target ↔ graph.Reach source target)

theorem SameTokens.refl (graph : Graph ω) : SameTokens graph graph :=
  ⟨rfl, fun _ => Iff.rfl, fun _ _ => rfl, fun _ _ _ _ => Iff.rfl⟩

theorem SameTokens.trans {first second third : Graph ω}
    (left : SameTokens first second) (right : SameTokens second third) :
    SameTokens first third where
  next_eq := right.next_eq.trans left.next_eq
  isToken id := (right.isToken id).trans (left.isToken id)
  core id token := (right.core id ((left.isToken id).2 token)).trans (left.core id token)
  reach source target sourceToken targetToken :=
    (right.reach source target ((left.isToken _).2 sourceToken)
      ((left.isToken _).2 targetToken)).trans (left.reach _ _ sourceToken targetToken)

end Graph

end VThread.Cancellation

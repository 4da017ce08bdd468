import Mathlib.Algebra.Group.Nat.Defs
import Mathlib.Data.Finset.Image
import VThread.Lib.Patricia

/-!
# Live-ancestry signatures

A signature is a finite set of cancellation identities.  One identity is stored
inline; two or more are stored in a Patricia tree addressed by the reversed bits of
the identity.  The tree is canonical, so its cached summaries and a node-by-node
comparison decide set equality.

Shared subtrees have no address in a pure model: the source skips the comparison of
two pointers to one allocation, and comparing an allocation with itself yields the
same answer.  The cached `len`, `xor` and `sum` of a node are functions of the tree,
because `Node::leaf` and `Node::branch` are its only constructors.
-/

namespace VThread.Cancellation

open VThread.Lib

/-- `usize` on a 64-bit target. -/
abbrev Usize := BitVec 64

/-- Least-significant bits first, so that sequential identities spread over a tree. -/
def route (id : Usize) : Usize := id.reverse

/-- Position of the highest set bit. -/
def highestBit (value : Usize) : Checked Nat := do
  ensure (value ≠ 0) "assertion `left != right` failed"
  pure value.toNat.log2

def bitSet (value : Usize) (bit : Nat) : Bool := value.getLsbD bit

/-- The salted 64-bit mixer behind candidate keys. -/
def atom (id salt : BitVec 64) : BitVec 64 :=
  let value := id ^^^ salt
  let value := (value ^^^ (value >>> 30)) * 0xbf58476d1ce4e5b9#64
  let value := (value ^^^ (value >>> 27)) * 0x94d049bb133111eb#64
  value ^^^ (value >>> 31)

def xorSalt : BitVec 64 := 0x243f6a8885a308d3#64

def sumSalt : BitVec 64 := 0x13198a2e03707344#64

private theorem testBit_xor_route {left right : Usize} (index : Nat) :
    (route left ^^^ route right).toNat.testBit index =
      (bitSet (route left) index ^^ bitSet (route right) index) := by
  rw [BitVec.testBit_toNat, BitVec.getLsbD_xor]
  rfl

private theorem xor_route_toNat_ne_zero {left right : Usize} (differ : left ≠ right) :
    (route left ^^^ route right).toNat ≠ 0 := by
  intro zero
  have equal : route left = route right := by
    apply BitVec.xor_eq_zero_iff.1
    exact BitVec.eq_of_toNat_eq (by simpa using zero)
  apply differ
  have restored := congrArg BitVec.reverse equal
  simpa [route, BitVec.reverse_reverse_eq] using restored

/-- Identities are routed through a tree by their reversed bits. -/
instance : BitKey Usize where
  bit id index := bitSet (route id) index
  diff left right := (route left ^^^ route right).toNat.log2
  bit_diff := by
    intro left right differ equal
    have set := Nat.testBit_log2 (xor_route_toNat_ne_zero differ)
    rw [testBit_xor_route, equal] at set
    simp at set
  bit_above := by
    intro left right index differ higher
    have clear : (route left ^^^ route right).toNat.testBit index = false :=
      Nat.testBit_lt_two_pow
        ((Nat.log2_lt (xor_route_toNat_ne_zero differ)).1 higher)
    rw [testBit_xor_route] at clear
    simpa using clear

theorem highestBit_route {left right : Usize} (differ : left ≠ right) :
    highestBit (route left ^^^ route right) = .ok (BitKey.diff left right) := by
  have nonzero : route left ^^^ route right ≠ 0 := by
    intro zero
    exact xor_route_toNat_ne_zero differ (by rw [zero]; rfl)
  rw [highestBit, ensure_of nonzero]
  rfl

/-- Collision-tolerant key under which equal signatures meet. -/
structure Candidate where
  len : Nat
  xor : BitVec 64
  sum : BitVec 64
  deriving DecidableEq, Repr

/-- Cached summary of a node. -/
def nodeSummary : Patricia Usize → Candidate
  | .leaf id => ⟨1, atom id xorSalt, atom id sumSalt⟩
  | .branch _ left right =>
      ⟨(nodeSummary left).len + (nodeSummary right).len,
        (nodeSummary left).xor ^^^ (nodeSummary right).xor,
        (nodeSummary left).sum + (nodeSummary right).sum⟩

/-- Storage of a signature. -/
inductive Root where
  | empty
  | singleton (id : Usize)
  | tree (node : Patricia Usize)
  deriving DecidableEq

namespace Root

/-- Identities in iteration order. -/
def iter : Root → List Usize
  | empty => []
  | singleton id => [id]
  | tree node => node.toList

def cardinality : Root → Nat
  | empty => 0
  | singleton _ => 1
  | tree node => (nodeSummary node).len

def candidate : Root → Candidate
  | empty => ⟨0, 0, 0⟩
  | singleton id => ⟨1, atom id xorSalt, atom id sumSalt⟩
  | tree node => nodeSummary node

/-- Pointer equality, which only inline storage can observe. -/
def ptrEq : Root → Root → Bool
  | empty, empty => true
  | singleton left, singleton right => left = right
  | _, _ => false

def sameSet (left right : Root) : Bool :=
  if left.ptrEq right then true
  else if left.candidate ≠ right.candidate then false
  else match left, right with
    | tree left, tree right => Patricia.sameNode nodeSummary left right
    | _, _ => false

/-- Add one identity. -/
def insert (root : Root) (id : Usize) : Checked Root :=
  match root with
  | empty => .ok (singleton id)
  | singleton existing =>
      if existing = id then .ok (singleton existing) else insertNode (.leaf existing) id
  | tree node => insertNode node id
where
  /-- Insertion below an allocated node. -/
  insertNode (node : Patricia Usize) (id : Usize) : Checked Root :=
    let existing := node.findLeaf id
    if existing = id then .ok (tree node)
    else do
      let differing ← highestBit (route id ^^^ route existing)
      let node ← node.insertAt id differing
      pure (tree node)

/-- Insert the identities of the smaller set into the larger one. -/
def union (left right : Root) : Checked Root :=
  if left = empty then .ok right
  else if right = empty ∨ left.ptrEq right then .ok left
  else if left.candidate = right.candidate ∧ left.sameSet right then .ok left
  else if right.cardinality ≤ left.cardinality then
    right.iter.foldlM insert left
  else
    left.iter.foldlM insert right

/-- A tree is canonical and holds at least two identities. -/
def WF : Root → Prop
  | empty => True
  | singleton _ => True
  | tree node => node.WF ∧ 2 ≤ node.size

theorem iter_nodup {root : Root} (wf : root.WF) : root.iter.Nodup := by
  cases root with
  | empty => simp [iter]
  | singleton id => simp [iter]
  | tree node => exact wf.1.nodup

theorem nodeSummary_len (node : Patricia Usize) : (nodeSummary node).len = node.size := by
  induction node with
  | leaf id => rfl
  | branch _ _ _ leftIH rightIH =>
      simp [nodeSummary, Patricia.size, leftIH, rightIH]

theorem cardinality_eq_length (root : Root) : root.cardinality = root.iter.length := by
  cases root with
  | empty => rfl
  | singleton id => rfl
  | tree node => simp [cardinality, iter, nodeSummary_len, Patricia.size_eq_length]

/-- Well-formed storage is determined by the identities it holds. -/
theorem eq_of_same_ids {left right : Root} (wf : left.WF) (wf' : right.WF)
    (same : ∀ id, id ∈ left.iter ↔ id ∈ right.iter) : left = right := by
  have lengths : left.iter.length = right.iter.length :=
    ((List.perm_ext_iff_of_nodup (iter_nodup wf) (iter_nodup wf')).2 same).length_eq
  cases left with
  | empty =>
      cases right with
      | empty => rfl
      | singleton id => simp [iter] at lengths
      | tree node =>
          have large := wf'.2
          rw [Patricia.size_eq_length] at large
          simp only [iter, List.length_nil] at lengths
          omega
  | singleton id =>
      cases right with
      | empty => simp [iter] at lengths
      | singleton other =>
          have member : id ∈ iter (singleton other) := (same id).1 (by simp [iter])
          simpa [iter] using member
      | tree node =>
          have large := wf'.2
          rw [Patricia.size_eq_length] at large
          simp only [iter, List.length_singleton] at lengths
          omega
  | tree node =>
      have large := wf.2
      rw [Patricia.size_eq_length] at large
      cases right with
      | empty =>
          simp only [iter, List.length_nil] at lengths
          omega
      | singleton id =>
          simp only [iter, List.length_singleton] at lengths
          omega
      | tree other => rw [Patricia.eq_of_same_keys wf.1 wf'.1 same]

private theorem eq_of_sameSet {left right : Root} (same : left.sameSet right = true) :
    left = right := by
  unfold sameSet at same
  split at same
  next shared =>
    cases left <;> cases right <;> simp_all [ptrEq]
  split at same
  next => cases same
  next =>
    cases left <;> cases right <;> simp_all [Patricia.sameNode_iff]

/-- Exact comparison, however the two sets were built. -/
theorem sameSet_iff {left right : Root} (wf : left.WF) (wf' : right.WF) :
    left.sameSet right = true ↔ ∀ id, id ∈ left.iter ↔ id ∈ right.iter := by
  constructor
  · intro same
    have equal := eq_of_sameSet same
    simp [equal]
  · intro same
    have equal := eq_of_same_ids wf wf' same
    subst equal
    cases left with
    | empty => simp [sameSet, ptrEq]
    | singleton id => simp [sameSet, ptrEq]
    | tree node => simp [sameSet, ptrEq, Patricia.sameNode_iff]

private theorem insertNode_spec (node : Patricia Usize) (wf : node.WF) (id : Usize)
    (large : 2 ≤ node.size ∨ node.findLeaf id ≠ id) :
    ∃ result, insert.insertNode node id = .ok result ∧ result.WF ∧
      ∀ other, other ∈ result.iter ↔ other = id ∨ Patricia.Mem other node := by
  by_cases present : node.findLeaf id = id
  · refine ⟨tree node, by simp [insert.insertNode, present], ⟨wf, ?_⟩, ?_⟩
    · exact large.resolve_right fun absent => absent present
    · intro other
      constructor
      · exact Or.inr
      · rintro (rfl | member)
        · have found := node.findLeaf_mem other
          rwa [present] at found
        · exact member
  · obtain ⟨result, inserted, resultWF, members⟩ :=
      Patricia.insertAt_spec wf rfl (Ne.symm present)
    refine ⟨tree result, ?_, ⟨resultWF, ?_⟩, members⟩
    · simp only [insert.insertNode, present, if_false,
        highestBit_route (Ne.symm present), ok_bind, inserted]
      rfl
    · -- The new key and the one it was compared with are both present.
      rw [Patricia.size_eq_length]
      have newMem : id ∈ result.toList := (members id).2 (.inl rfl)
      have oldMem : node.findLeaf id ∈ result.toList :=
        (members _).2 (.inr (node.findLeaf_mem id))
      have pair : [id, node.findLeaf id].Nodup := by simp [Ne.symm present]
      have sub : [id, node.findLeaf id] ⊆ result.toList := by
        intro other member
        rcases List.mem_pair.1 member with rfl | rfl
        · exact newMem
        · exact oldMem
      exact (pair.subperm sub).length_le

/-- Inserting an identity never fails and adds exactly that identity. -/
theorem insert_spec {root : Root} (wf : root.WF) (id : Usize) :
    ∃ result, root.insert id = .ok result ∧ result.WF ∧
      ∀ other, other ∈ result.iter ↔ other = id ∨ other ∈ root.iter := by
  cases root with
  | empty => exact ⟨singleton id, rfl, trivial, by simp [iter]⟩
  | singleton existing =>
      by_cases equal : existing = id
      · refine ⟨singleton existing, by simp [insert, equal], trivial, ?_⟩
        simp [iter, equal]
      · obtain ⟨result, inserted, resultWF, members⟩ :=
          insertNode_spec (.leaf existing) trivial id (.inr equal)
        refine ⟨result, by simp [insert, equal, inserted], resultWF, ?_⟩
        intro other
        rw [members, Patricia.mem_leaf]
        simp [iter]
  | tree node => exact insertNode_spec node wf.1 id (.inl wf.2)

private theorem foldlM_insert_spec (ids : List Usize) {root : Root} (wf : root.WF) :
    ∃ result, ids.foldlM insert root = .ok result ∧ result.WF ∧
      ∀ other, other ∈ result.iter ↔ other ∈ ids ∨ other ∈ root.iter := by
  induction ids generalizing root with
  | nil => exact ⟨root, rfl, wf, by simp⟩
  | cons id ids ih =>
      obtain ⟨next, inserted, nextWF, nextMem⟩ := insert_spec wf id
      obtain ⟨result, folded, resultWF, members⟩ := ih nextWF
      refine ⟨result, by rw [List.foldlM_cons, inserted, ok_bind, folded], resultWF, ?_⟩
      intro other
      rw [members, nextMem, List.mem_cons]
      tauto

/-- The union of two well-formed signatures always exists. -/
theorem union_spec {left right : Root} (wf : left.WF) (wf' : right.WF) :
    ∃ result, left.union right = .ok result ∧ result.WF ∧
      ∀ id, id ∈ result.iter ↔ id ∈ left.iter ∨ id ∈ right.iter := by
  unfold union
  split
  next leftEmpty => exact ⟨right, rfl, wf', by simp [leftEmpty, iter]⟩
  split
  next keep =>
    refine ⟨left, rfl, wf, fun id => ?_⟩
    have subset : id ∈ right.iter → id ∈ left.iter := by
      rcases keep with rfl | shared
      · simp [iter]
      · cases left <;> cases right <;> simp_all [ptrEq, iter]
    tauto
  split
  next same =>
    refine ⟨left, rfl, wf, fun id => ?_⟩
    have members := (sameSet_iff wf wf').1 same.2 id
    tauto
  split
  next =>
    obtain ⟨result, folded, resultWF, members⟩ := foldlM_insert_spec right.iter wf
    exact ⟨result, folded, resultWF, fun id => by rw [members, or_comm]⟩
  next => exact foldlM_insert_spec left.iter wf'

end Root

/-- A well-formed ancestry signature. -/
structure Signature where
  root : Root
  wf : root.WF

namespace Signature

instance : DecidableEq Signature := fun left right =>
  decidable_of_iff (left.root = right.root) (by cases left; cases right; simp)

/-- The empty signature. -/
def default : Signature := ⟨.empty, trivial⟩

def singleton (id : Nat) : Signature := ⟨.singleton (BitVec.ofNat 64 id), trivial⟩

def candidate (signature : Signature) : Candidate := signature.root.candidate

def sameSet (left right : Signature) : Bool := left.root.sameSet right.root

def union (left right : Signature) : Signature :=
  match result : left.root.union right.root with
  | .ok root => ⟨root, by
      obtain ⟨expected, returned, expectedWF, -⟩ := Root.union_spec left.wf right.wf
      rw [result] at returned
      cases returned
      exact expectedWF⟩
  | .error _ => left

/-- The identities in a signature. -/
def members (signature : Signature) : Finset Nat :=
  (signature.root.iter.map BitVec.toNat).toFinset

theorem mem_members {signature : Signature} {id : Nat} :
    id ∈ signature.members ↔ ∃ word ∈ signature.root.iter, word.toNat = id := by
  simp [members]

@[simp] theorem members_default : default.members = ∅ := rfl

@[simp] theorem members_singleton {id : Nat} (bound : id < 2 ^ 64) :
    (singleton id).members = {id} := by
  have word : (BitVec.ofNat 64 id).toNat = id := by
    rw [BitVec.toNat_ofNat, Nat.mod_eq_of_lt bound]
  change ([(BitVec.ofNat 64 id).toNat]).toFinset = {id}
  rw [word]
  rfl

@[simp] theorem members_union (left right : Signature) :
    (left.union right).members = left.members ∪ right.members := by
  obtain ⟨expected, returned, expectedWF, exact⟩ := Root.union_spec left.wf right.wf
  have rootEq : (left.union right).root = expected := by
    unfold union
    split
    next root result => rw [result] at returned; cases returned; rfl
    next message result => rw [result] at returned; cases returned
  ext id
  simp only [Finset.mem_union, mem_members, rootEq, exact]
  constructor
  · rintro ⟨word, inLeft | inRight, equal⟩
    · exact .inl ⟨word, inLeft, equal⟩
    · exact .inr ⟨word, inRight, equal⟩
  · rintro (⟨word, member, equal⟩ | ⟨word, member, equal⟩)
    · exact ⟨word, .inl member, equal⟩
    · exact ⟨word, .inr member, equal⟩

private theorem same_iter_iff {left right : Signature} :
    (∀ id, id ∈ left.root.iter ↔ id ∈ right.root.iter) ↔ left.members = right.members := by
  constructor
  · intro same
    ext id
    simp [mem_members, same]
  · intro equal id
    have members := Finset.ext_iff.1 equal id.toNat
    simpa [mem_members, BitVec.toNat_inj] using members

/-- Exact comparison of finite sets. -/
@[simp] theorem sameSet_iff {left right : Signature} :
    left.sameSet right = true ↔ left.members = right.members := by
  rw [sameSet, Root.sameSet_iff left.wf right.wf, same_iter_iff]

/-- Equal sets have equal candidate keys. -/
theorem candidate_eq_of_members {left right : Signature}
    (equal : left.members = right.members) : left.candidate = right.candidate := by
  rw [candidate, candidate,
    Root.eq_of_same_ids left.wf right.wf (same_iter_iff.2 equal)]

end Signature

end VThread.Cancellation

import Mathlib.Data.Finset.Card
import VThread.Cancellation.Signature

/-!
# Signatures as exact finite sets

Signatures are built from single identities by any tree of unions.  Subtrees may be shared, and
a comparison of two pointers to one node is cut short; what is shared is left open, call by
call.
-/

namespace VThread.Cancellation

open VThread.Lib

/-! ## Shared subtrees -/

/-- The outcomes of pointer comparisons in one call, by the path to the compared nodes.  Nodes
of one allocation are equal. -/
structure Sharing where
  ptrEq : List Bool → Patricia Usize → Patricia Usize → Bool
  sound : ∀ path left right, ptrEq path left right = true → left = right

namespace Sharing

/-- No two nodes share an allocation. -/
def apart : Sharing where
  ptrEq _ _ _ := false
  sound _ _ _ shared := absurd shared Bool.false_ne_true

/-- Equal leaves share an allocation, branches do not. -/
def leaves : Sharing where
  ptrEq _
    | .leaf left, .leaf right => left = right
    | _, _ => false
  sound
    | _, .leaf _, .leaf _, shared => congrArg Patricia.leaf (of_decide_eq_true shared)

/-- `same_node`. -/
def sameNode (sharing : Sharing) (path : List Bool) (left right : Patricia Usize) : Bool :=
  if sharing.ptrEq path left right then true
  else if nodeSummary left ≠ nodeSummary right then false
  else match left, right with
    | .leaf left, .leaf right => left = right
    | .branch bit left right, .branch bit' left' right' =>
        bit = bit' && sharing.sameNode (path ++ [false]) left left' &&
          sharing.sameNode (path ++ [true]) right right'
    | _, _ => false

/-- `Signature::ptr_eq`. -/
def rootPtrEq (sharing : Sharing) : Root → Root → Bool
  | .empty, .empty => true
  | .singleton left, .singleton right => left = right
  | .tree left, .tree right => sharing.ptrEq [] left right
  | _, _ => false

/-- `Signature::same_set`. -/
def sameSet (sharing : Sharing) (left right : Root) : Bool :=
  if sharing.rootPtrEq left right then true
  else if left.candidate ≠ right.candidate then false
  else match left, right with
    | .tree left, .tree right => sharing.sameNode [] left right
    | _, _ => false

/-- `Signature::union`. -/
def union (sharing : Sharing) (left right : Root) : Checked Root :=
  if left = .empty then .ok right
  else if right = .empty ∨ sharing.rootPtrEq left right then .ok left
  else if left.candidate = right.candidate ∧ sharing.sameSet left right then .ok left
  else if right.cardinality ≤ left.cardinality then right.iter.foldlM Root.insert left
  else left.iter.foldlM Root.insert right

theorem sameNode_shared (sharing : Sharing) {path : List Bool} {left right : Patricia Usize}
    (shared : sharing.ptrEq path left right = true) :
    sharing.sameNode path left right = true ↔ left = right := by
  have same := sharing.sound path left right shared
  subst same
  cases left <;> simp [sameNode, shared]

/-- The comparison is exact, whatever is shared. -/
theorem sameNode_iff (sharing : Sharing) (path : List Bool) (left right : Patricia Usize) :
    sharing.sameNode path left right = true ↔ left = right := by
  induction left generalizing path right with
  | leaf key =>
      by_cases shared : sharing.ptrEq path (.leaf key) right = true
      · exact sharing.sameNode_shared shared
      cases right with
      | leaf key' =>
          simp only [sameNode, if_neg shared, ite_not, Bool.if_false_right, Bool.and_eq_true,
            decide_eq_true_eq, Patricia.leaf.injEq]
          exact ⟨And.right, fun same => ⟨by rw [same], same⟩⟩
      | branch => simp [sameNode, shared]
  | branch bit zero one zeroIH oneIH =>
      by_cases shared : sharing.ptrEq path (.branch bit zero one) right = true
      · exact sharing.sameNode_shared shared
      cases right with
      | leaf key => simp [sameNode, shared]
      | branch =>
          simp only [sameNode, if_neg shared, ite_not, Bool.if_false_right, Bool.and_eq_true,
            decide_eq_true_eq, zeroIH, oneIH, Patricia.branch.injEq]
          constructor
          · rintro ⟨-, ⟨sameBit, sameZero⟩, sameOne⟩
            exact ⟨sameBit, sameZero, sameOne⟩
          · rintro ⟨rfl, rfl, rfl⟩
            exact ⟨rfl, ⟨rfl, rfl⟩, rfl⟩

theorem rootPtrEq_sound (sharing : Sharing) {left right : Root}
    (shared : sharing.rootPtrEq left right = true) : left = right := by
  cases left <;> cases right <;> first | rfl | cases shared | skip
  · exact congrArg Root.singleton (of_decide_eq_true shared)
  · exact congrArg Root.tree (sharing.sound _ _ _ shared)

theorem rootPtrEq_of_ptrEq (sharing : Sharing) {left right : Root}
    (inline : left.ptrEq right = true) : sharing.rootPtrEq left right = true := by
  cases left <;> cases right <;> first | exact inline | cases inline

theorem sameSet_refl (root : Root) : root.sameSet root = true := by
  cases root with
  | empty | singleton => simp [Root.sameSet, Root.ptrEq]
  | tree node => simp [Root.sameSet, Root.ptrEq, Patricia.sameNode_iff]

/-- What is shared does not matter. -/
theorem sameSet_eq (sharing : Sharing) (left right : Root) :
    sharing.sameSet left right = left.sameSet right := by
  by_cases shared : sharing.rootPtrEq left right = true
  · have same := sharing.rootPtrEq_sound shared
    subst same
    cases left <;> simp [sameSet, shared, sameSet_refl]
  · have apart : ¬ left.ptrEq right = true := fun inline =>
      shared (sharing.rootPtrEq_of_ptrEq inline)
    cases left with
    | tree node =>
        cases right with
        | tree node' =>
            have equal : sharing.sameNode [] node node' =
                Patricia.sameNode nodeSummary node node' := by
              rw [Bool.eq_iff_iff, sharing.sameNode_iff, Patricia.sameNode_iff]
            simp [sameSet, Root.sameSet, shared, apart, equal]
        | _ => simp [sameSet, Root.sameSet, shared, apart]
    | _ => cases right <;> simp [sameSet, Root.sameSet, shared, apart]

theorem union_eq (sharing : Sharing) (left right : Root) :
    sharing.union left right = left.union right := by
  simp only [union, Root.union, sharing.sameSet_eq]
  by_cases shared : sharing.rootPtrEq left right = true
  · have same := sharing.rootPtrEq_sound shared
    subst same
    simp [shared, sameSet_refl]
  · have apart : ¬ left.ptrEq right = true := fun inline =>
      shared (sharing.rootPtrEq_of_ptrEq inline)
    simp [shared, apart]

end Sharing

/-! ## Iteration -/

/-- `Iter`; the top of the stack comes first. -/
structure Iter where
  singleton : Option Usize
  stack : List (Patricia Usize)

namespace Iter

def new : Root → Iter
  | .empty => ⟨none, []⟩
  | .singleton id => ⟨some id, []⟩
  | .tree root => ⟨none, [root]⟩

/-- The loop of `next` from a node that was popped: the subtree pushed last is popped next. -/
def descend : Patricia Usize → List (Patricia Usize) → Usize × List (Patricia Usize)
  | .leaf id, stack => (id, stack)
  | .branch _ left right, stack => descend left (right :: stack)

def next (iter : Iter) : Iter × Option Usize :=
  match iter.singleton, iter.stack with
  | some id, _ => ({ iter with singleton := none }, some id)
  | none, [] => (iter, none)
  | none, node :: stack =>
      let (id, stack) := descend node stack
      ({ iter with stack }, some id)

/-- What so many calls of `next` return. -/
def calls : Nat → Iter → List (Option Usize)
  | 0, _ => []
  | count + 1, iter => iter.next.2 :: calls count iter.next.1

/-- The identities that are still to come. -/
def rest (iter : Iter) : List Usize :=
  iter.singleton.toList ++ iter.stack.flatMap Patricia.toList

theorem descend_rest (node : Patricia Usize) (stack : List (Patricia Usize)) :
    (descend node stack).1 :: (descend node stack).2.flatMap Patricia.toList =
      node.toList ++ stack.flatMap Patricia.toList := by
  induction node generalizing stack with
  | leaf id => rfl
  | branch _ _ _ leftIH =>
      rw [descend, leftIH, Patricia.toList, List.flatMap_cons, List.append_assoc]

theorem next_rest (iter : Iter) :
    iter.next.2 = iter.rest.head? ∧ iter.next.1.rest = iter.rest.tail := by
  obtain ⟨singleton, stack⟩ := iter
  cases singleton with
  | some id => exact ⟨rfl, rfl⟩
  | none =>
      cases stack with
      | nil => exact ⟨rfl, rfl⟩
      | cons node stack =>
          have descended := descend_rest node stack
          simp only [rest, next, Option.toList_none, List.nil_append, List.flatMap_cons,
            ← descended]
          exact ⟨rfl, rfl⟩

/-- The calls return what is to come, once each, and then nothing. -/
theorem calls_eq (count : Nat) (iter : Iter) :
    iter.calls count = (List.range count).map fun index => iter.rest[index]? := by
  induction count generalizing iter with
  | zero => rfl
  | succ count ih =>
      obtain ⟨returned, remaining⟩ := iter.next_rest
      rw [calls, returned, ih, remaining, List.range_succ_eq_map, List.map_cons, List.map_map]
      congr 1
      · exact List.head?_eq_getElem?
      · simp [Function.comp_def]

end Iter

/-! ## Any tree of unions -/

/-- How a signature was built. -/
inductive Build where
  | default
  | singleton (id : Usize)
  | union (sharing : Sharing) (left right : Build)

namespace Build

def root : Build → Checked Root
  | default => pure .empty
  | singleton id => pure (.singleton id)
  | union sharing left right => do
      let left ← left.root
      let right ← right.root
      sharing.union left right

/-- The identities that went in. -/
def ids : Build → Finset Usize
  | default => ∅
  | singleton id => {id}
  | union _ left right => left.ids ∪ right.ids

/-- Building never fails, and the storage holds what went in. -/
theorem root_spec (build : Build) :
    ∃ root, build.root = .ok root ∧ root.WF ∧ ∀ id, id ∈ root.iter ↔ id ∈ build.ids := by
  induction build with
  | default => exact ⟨.empty, rfl, trivial, by simp [Root.iter, ids]⟩
  | singleton id => exact ⟨.singleton id, rfl, trivial, by simp [Root.iter, ids]⟩
  | union sharing left right leftIH rightIH =>
      obtain ⟨first, builtFirst, wfFirst, memFirst⟩ := leftIH
      obtain ⟨second, builtSecond, wfSecond, memSecond⟩ := rightIH
      obtain ⟨result, united, wf, members⟩ := Root.union_spec wfFirst wfSecond
      refine ⟨result, ?_, wf, fun id => ?_⟩
      · rw [root, builtFirst, ok_bind, builtSecond, ok_bind, sharing.union_eq, united]
      · rw [members, memFirst, memSecond, ids, Finset.mem_union]

end Build

def Root.depth : Root → Nat
  | empty => 0
  | singleton _ => 1
  | tree node => node.depth

/-- The bits of a word bound the depth. -/
theorem Root.depth_le {root : Root} (wf : root.WF) : root.depth ≤ 64 + 1 := by
  cases root with
  | empty => exact Nat.zero_le _
  | singleton id => exact Nat.le_add_left 1 64
  | tree node =>
      refine wf.1.depth_le ?_
      rintro index left right rfl
      have one : bitSet (route right.sample) index = true :=
        wf.1.bit_right right.mem_sample
      exact BitVec.lt_of_getLsbD one

/-- A signature is exactly a finite set of identities. -/
structure Exact (ids : Finset Usize) (root : Root) : Prop where
  /-- Every member comes once, then nothing. -/
  nodup : root.iter.Nodup
  members : ∀ id, id ∈ root.iter ↔ id ∈ ids
  calls : ∀ count, (Iter.new root).calls count =
    (List.range count).map fun index => root.iter[index]?
  cardinality : root.cardinality = ids.card
  depth : root.depth ≤ 64 + 1

theorem Root.exact {root : Root} {ids : Finset Usize} (wf : root.WF)
    (members : ∀ id, id ∈ root.iter ↔ id ∈ ids) : Exact ids root where
  nodup := iter_nodup wf
  members := members
  calls count := by
    have remaining : (Iter.new root).rest = root.iter := by
      cases root <;> simp [Iter.new, Iter.rest, iter]
    rw [Iter.calls_eq, remaining]
  cardinality := by
    have same : root.iter.toFinset = ids := by
      ext id
      rw [List.mem_toFinset, members]
    rw [cardinality_eq_length, ← same, List.toFinset_card_of_nodup (iter_nodup wf)]
  depth := depth_le wf

/-- Whatever trees of unions two signatures were built by and whatever subtrees they share, they
are exact sets, and their comparison and their candidates depend only on the sets. -/
theorem signatures_exact (left right : Build) (sharing : Sharing) :
    ∃ first second, left.root = .ok first ∧ right.root = .ok second ∧
      Exact left.ids first ∧ Exact right.ids second ∧
      (sharing.sameSet first second = true ↔ left.ids = right.ids) ∧
      (left.ids = right.ids → first.candidate = second.candidate) := by
  obtain ⟨first, builtFirst, wfFirst, memFirst⟩ := left.root_spec
  obtain ⟨second, builtSecond, wfSecond, memSecond⟩ := right.root_spec
  have sameIds : (∀ id, id ∈ first.iter ↔ id ∈ second.iter) ↔ left.ids = right.ids := by
    rw [Finset.ext_iff]
    exact forall_congr' fun id => by rw [memFirst, memSecond]
  refine ⟨first, second, builtFirst, builtSecond, Root.exact wfFirst memFirst,
    Root.exact wfSecond memSecond, ?_, fun same => ?_⟩
  · rw [sharing.sameSet_eq, Root.sameSet_iff wfFirst wfSecond, sameIds]
  · rw [Root.eq_of_same_ids wfFirst wfSecond (sameIds.mpr same)]

/-- Three identities, one of them twice, with shared leaves. -/
def leftward : Build :=
  .union .leaves (.union .leaves (.singleton 4) (.singleton 1))
    (.union .leaves (.singleton 6) (.singleton 1))

/-- The same identities the other way round, with nothing shared. -/
def rightward : Build :=
  .union .apart (.singleton 6) (.union .apart (.singleton 1) (.singleton 4))

/-- Two trees of unions with the same three identities. -/
theorem signatures_exact_united : ∃ first second,
    leftward.root = .ok first ∧ rightward.root = .ok second ∧
      first.cardinality = 3 ∧ (Iter.new first).calls 4 = [some 4, some 6, some 1, none] ∧
      Sharing.leaves.sameSet first second = true ∧ first.candidate = second.candidate := by
  obtain ⟨first, second, builtFirst, builtSecond, exactFirst, -, same, candidate⟩ :=
    signatures_exact leftward rightward .leaves
  have ids : leftward.ids = rightward.ids := by decide
  have iterated : leftward.root.map (fun root => (Iter.new root).calls 4) =
      .ok [some 4, some 6, some 1, none] := by decide +kernel
  rw [builtFirst] at iterated
  have cardinality : first.cardinality = 3 := exactFirst.cardinality
  exact ⟨first, second, builtFirst, builtSecond, cardinality, Except.ok.inj iterated,
    same.mpr ids, candidate ids⟩

end VThread.Cancellation

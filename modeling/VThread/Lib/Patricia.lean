import Mathlib.Data.Finset.Basic
import Mathlib.Tactic.Basic
import VThread.Lib.Checked

/-!
# Patricia trees over bit-addressed keys

A Patricia tree stores a nonempty finite set of keys.  A branch names the highest
bit in which the keys below it differ; keys without that bit lie on its left, keys
with it on its right.  The shape of such a tree is determined by its set of keys,
so structural comparison decides set equality.
-/

namespace VThread.Lib

/-- Keys with numbered bits.  `diff` is the highest bit in which two different
keys disagree. -/
class BitKey (κ : Type) where
  bit : κ → Nat → Bool
  diff : κ → κ → Nat
  bit_diff : ∀ {left right : κ}, left ≠ right →
    bit left (diff left right) ≠ bit right (diff left right)
  bit_above : ∀ {left right : κ} {index : Nat}, left ≠ right →
    diff left right < index → bit left index = bit right index

/-- A tree of keys; every branch carries the bit it discriminates. -/
inductive Patricia (κ : Type) where
  | leaf (key : κ)
  | branch (bit : Nat) (left right : Patricia κ)
  deriving DecidableEq, Repr

namespace Patricia

variable {κ : Type}

/-- The key of the leftmost leaf. -/
def sample : Patricia κ → κ
  | leaf key => key
  | branch _ left _ => left.sample

/-- Keys in left-to-right order. -/
def toList : Patricia κ → List κ
  | leaf key => [key]
  | branch _ left right => left.toList ++ right.toList

/-- Number of leaves. -/
def size : Patricia κ → Nat
  | leaf _ => 1
  | branch _ left right => left.size + right.size

/-- Membership of a key. -/
def Mem (key : κ) (tree : Patricia κ) : Prop := key ∈ tree.toList

@[simp] theorem mem_leaf {key other : κ} : Mem key (leaf other) ↔ key = other := by
  simp [Mem, toList]

@[simp] theorem mem_branch {key : κ} {bit : Nat} {left right : Patricia κ} :
    Mem key (branch bit left right) ↔ Mem key left ∨ Mem key right := by
  simp [Mem, toList]

theorem mem_sample (tree : Patricia κ) : Mem tree.sample tree := by
  induction tree with
  | leaf key => simp [sample]
  | branch _ _ _ leftIH => simp [sample, leftIH]

theorem size_eq_length (tree : Patricia κ) : tree.size = tree.toList.length := by
  induction tree with
  | leaf key => rfl
  | branch _ _ _ leftIH rightIH => simp [size, toList, leftIH, rightIH]

variable [BitKey κ]

open BitKey

/-- Every branch separates its keys at the highest bit in which they differ. -/
def WF : Patricia κ → Prop
  | leaf _ => True
  | branch index left right =>
      WF left ∧ WF right ∧
      (∀ key, Mem key left → bit key index = false) ∧
      (∀ key, Mem key right → bit key index = true) ∧
      ∀ first second, Mem first (branch index left right) →
        Mem second (branch index left right) →
        ∀ above, index < above → bit first above = bit second above

theorem WF.bit_left {index : Nat} {left right : Patricia κ}
    (wf : WF (branch index left right)) {key : κ} (member : Mem key left) :
    bit key index = false :=
  wf.2.2.1 key member

theorem WF.bit_right {index : Nat} {left right : Patricia κ}
    (wf : WF (branch index left right)) {key : κ} (member : Mem key right) :
    bit key index = true :=
  wf.2.2.2.1 key member

theorem WF.agree_above {index : Nat} {left right : Patricia κ}
    (wf : WF (branch index left right)) {first second : κ}
    (firstMem : Mem first (branch index left right))
    (secondMem : Mem second (branch index left right)) {above : Nat}
    (higher : index < above) : bit first above = bit second above :=
  wf.2.2.2.2 first second firstMem secondMem above higher

theorem WF.nodup {tree : Patricia κ} (wf : WF tree) : tree.toList.Nodup := by
  induction tree with
  | leaf key => simp [toList]
  | branch _ _ _ leftIH rightIH =>
      rw [toList, List.nodup_append]
      refine ⟨leftIH wf.1, rightIH wf.2.1, ?_⟩
      intro key inLeft other inRight equal
      have leftBit := wf.bit_left inLeft
      have rightBit := wf.bit_right inRight
      rw [equal, rightBit] at leftBit
      cases leftBit

/-- The bit of a branch is the highest bit in which two of its keys differ. -/
theorem WF.branch_bit_unique {index other : Nat} {left right left' right' : Patricia κ}
    (wf : WF (branch index left right)) (wf' : WF (branch other left' right'))
    (same : ∀ key, Mem key (branch index left right) ↔
      Mem key (branch other left' right')) : ¬ index < other := by
  intro lower
  have leftMem : Mem left'.sample (branch other left' right') :=
    mem_branch.2 (.inl (mem_sample left'))
  have rightMem : Mem right'.sample (branch other left' right') :=
    mem_branch.2 (.inr (mem_sample right'))
  have agree := wf.agree_above ((same _).2 leftMem) ((same _).2 rightMem) lower
  rw [wf'.bit_left (mem_sample left'), wf'.bit_right (mem_sample right')] at agree
  cases agree

private theorem mem_left_of_same {index : Nat} {left right left' right' : Patricia κ}
    (wf : WF (branch index left right)) (wf' : WF (branch index left' right'))
    (same : ∀ key, Mem key (branch index left right) ↔
      Mem key (branch index left' right')) {key : κ} (member : Mem key left) :
    Mem key left' := by
  rcases mem_branch.1 ((same key).1 (mem_branch.2 (.inl member))) with inLeft | inRight
  · exact inLeft
  · have leftBit := wf.bit_left member
    rw [wf'.bit_right inRight] at leftBit
    cases leftBit

private theorem mem_right_of_same {index : Nat} {left right left' right' : Patricia κ}
    (wf : WF (branch index left right)) (wf' : WF (branch index left' right'))
    (same : ∀ key, Mem key (branch index left right) ↔
      Mem key (branch index left' right')) {key : κ} (member : Mem key right) :
    Mem key right' := by
  rcases mem_branch.1 ((same key).1 (mem_branch.2 (.inr member))) with inLeft | inRight
  · have rightBit := wf.bit_right member
    rw [wf'.bit_left inLeft] at rightBit
    cases rightBit
  · exact inRight

private theorem leaf_ne_branch {key : κ} {index : Nat} {left right : Patricia κ}
    (wf : WF (branch index left right))
    (same : ∀ other, Mem other (leaf key) ↔ Mem other (branch index left right)) :
    False := by
  have leftEq := mem_leaf.1 ((same _).2 (mem_branch.2 (.inl (mem_sample left))))
  have rightEq := mem_leaf.1 ((same _).2 (mem_branch.2 (.inr (mem_sample right))))
  have leftBit := wf.bit_left (mem_sample left)
  have rightBit := wf.bit_right (mem_sample right)
  rw [leftEq, ← rightEq, rightBit] at leftBit
  cases leftBit

/-- The shape of a well-formed tree is determined by its keys. -/
theorem eq_of_same_keys {tree other : Patricia κ} (wf : WF tree) (wf' : WF other)
    (same : ∀ key, Mem key tree ↔ Mem key other) : tree = other := by
  induction tree generalizing other with
  | leaf key =>
      cases other with
      | leaf key' => rw [mem_leaf.1 ((same key).1 (mem_leaf.2 rfl))]
      | branch => exact (leaf_ne_branch wf' same).elim
  | branch index left right leftIH rightIH =>
      cases other with
      | leaf key => exact (leaf_ne_branch wf fun key => (same key).symm).elim
      | branch index' =>
          have notLower := wf.branch_bit_unique wf' same
          have notHigher := wf'.branch_bit_unique wf fun key => (same key).symm
          have bitEq : index = index' := by omega
          subst bitEq
          have back := fun key => (same key).symm
          rw [leftIH wf.1 wf'.1 fun key =>
              ⟨mem_left_of_same wf wf' same, mem_left_of_same wf' wf back⟩,
            rightIH wf.2.1 wf'.2.1 fun key =>
              ⟨mem_right_of_same wf wf' same, mem_right_of_same wf' wf back⟩]

/-! ## Insertion -/

/-- Build a branch; the samples of both sides must lie on the announced side. -/
def mkBranch (index : Nat) (left right : Patricia κ) : Checked (Patricia κ) := do
  ensure (bit left.sample index = false) "left sample has the branch bit"
  ensure (bit right.sample index = true) "right sample lacks the branch bit"
  pure (branch index left right)

/-- The leaf reached by following the bits of a key. -/
def findLeaf : Patricia κ → κ → κ
  | leaf existing, _ => existing
  | branch index left right, key =>
      if bit key index then right.findLeaf key else left.findLeaf key

/-- Descend along `key` below every branch whose bit exceeds `index`, and split
there into the existing subtree and a new leaf. -/
def insertAt (key : κ) (index : Nat) : Patricia κ → Checked (Patricia κ)
  | leaf existing =>
      if bit key index then mkBranch index (leaf existing) (leaf key)
      else mkBranch index (leaf key) (leaf existing)
  | branch current left right =>
      if index < current then
        if bit key current then do
          let right ← right.insertAt key index
          mkBranch current left right
        else do
          let left ← left.insertAt key index
          mkBranch current left right
      else if bit key index then mkBranch index (branch current left right) (leaf key)
      else mkBranch index (leaf key) (branch current left right)

theorem findLeaf_mem (tree : Patricia κ) (key : κ) : Mem (tree.findLeaf key) tree := by
  induction tree with
  | leaf => simp [findLeaf]
  | branch _ _ _ leftIH rightIH =>
      simp only [findLeaf]
      split
      · exact mem_branch.2 (.inr rightIH)
      · exact mem_branch.2 (.inl leftIH)

theorem mkBranch_eq_ok {index : Nat} {left right : Patricia κ}
    (leftBit : ∀ key, Mem key left → bit key index = false)
    (rightBit : ∀ key, Mem key right → bit key index = true) :
    mkBranch index left right = .ok (branch index left right) := by
  simp only [mkBranch, ensure_of (leftBit _ (mem_sample left)),
    ensure_of (rightBit _ (mem_sample right)), ok_bind]
  rfl

/-- Splitting a tree whose keys all agree with `existing` from bit `diff` upwards. -/
private theorem split_spec {tree : Patricia κ} {key existing : κ} (wf : WF tree)
    (differ : key ≠ existing)
    (agree : ∀ other, Mem other tree → ∀ index, diff key existing ≤ index →
      bit other index = bit existing index) :
    ∃ result, (if bit key (diff key existing) then
        mkBranch (diff key existing) tree (leaf key)
      else mkBranch (diff key existing) (leaf key) tree) = .ok result ∧
      WF result ∧ ∀ other, Mem other result ↔ other = key ∨ Mem other tree := by
  have side := bit_diff differ
  have above : ∀ other, Mem other tree → ∀ index, diff key existing < index →
      bit other index = bit key index := by
    intro other member index higher
    rw [agree other member index (by omega), bit_above differ higher]
  have together : ∀ first second : κ, (first = key ∨ Mem first tree) →
      (second = key ∨ Mem second tree) → ∀ index, diff key existing < index →
      bit first index = bit second index := by
    rintro first second (rfl | firstMem) (rfl | secondMem) index higher
    · rfl
    · exact (above second secondMem index higher).symm
    · exact above first firstMem index higher
    · rw [above first firstMem index higher, above second secondMem index higher]
  cases keyBit : bit key (diff key existing) with
  | true =>
      have treeBit : ∀ other, Mem other tree → bit other (diff key existing) = false := by
        intro other member
        rw [agree other member _ le_rfl]
        simpa [keyBit] using side.symm
      have leafBit : ∀ other, Mem other (leaf key) →
          bit other (diff key existing) = true := by
        intro other member
        rw [mem_leaf.1 member, keyBit]
      refine ⟨_, mkBranch_eq_ok treeBit leafBit, ?_, ?_⟩
      · refine ⟨wf, trivial, treeBit, leafBit, ?_⟩
        intro first second firstMem secondMem
        simp only [mem_branch, mem_leaf] at firstMem secondMem
        exact together first second firstMem.symm secondMem.symm
      · intro other
        simp [or_comm]
  | false =>
      have treeBit : ∀ other, Mem other tree → bit other (diff key existing) = true := by
        intro other member
        rw [agree other member _ le_rfl]
        simpa [keyBit] using side.symm
      have leafBit : ∀ other, Mem other (leaf key) →
          bit other (diff key existing) = false := by
        intro other member
        rw [mem_leaf.1 member, keyBit]
      refine ⟨_, mkBranch_eq_ok leafBit treeBit, ?_, ?_⟩
      · refine ⟨trivial, wf, leafBit, treeBit, ?_⟩
        intro first second firstMem secondMem
        simp only [mem_branch, mem_leaf] at firstMem secondMem
        exact together first second firstMem secondMem
      · intro other
        simp

/-- Inserting a new key at its highest differing bit succeeds, keeps the tree well
formed and adds exactly that key. -/
theorem insertAt_spec {tree : Patricia κ} {key existing : κ} (wf : WF tree)
    (found : tree.findLeaf key = existing) (differ : key ≠ existing) :
    ∃ result, tree.insertAt key (diff key existing) = .ok result ∧ WF result ∧
      ∀ other, Mem other result ↔ other = key ∨ Mem other tree := by
  induction tree with
  | leaf stored =>
      have storedEq : stored = existing := found
      simp only [insertAt]
      apply split_spec wf differ
      intro other member index _
      rw [mem_leaf.1 member, storedEq]
  | branch current left right leftIH rightIH =>
      have existingMem : Mem existing (branch current left right) :=
        found ▸ findLeaf_mem _ key
      simp only [insertAt]
      split
      next lower =>
        have agree : bit key current = bit existing current := bit_above differ lower
        have join : ∀ first second : κ,
            (first = key ∨ Mem first (branch current left right)) →
            (second = key ∨ Mem second (branch current left right)) →
            ∀ index, current < index → bit first index = bit second index := by
          have toExisting : ∀ first : κ,
              (first = key ∨ Mem first (branch current left right)) →
              ∀ index, current < index → bit first index = bit existing index := by
            rintro first (rfl | member) index higher
            · exact bit_above differ (by omega)
            · exact wf.agree_above member existingMem higher
          intro first second firstMem secondMem index higher
          rw [toExisting first firstMem index higher,
            toExisting second secondMem index higher]
        cases keyBit : bit key current with
        | true =>
            simp only [findLeaf, keyBit, if_true] at found
            obtain ⟨result, inserted, resultWF, members⟩ := rightIH wf.2.1 found
            have rightBit : ∀ other, Mem other result → bit other current = true := by
              intro other member
              rcases (members other).1 member with rfl | member
              · exact keyBit
              · exact wf.bit_right member
            simp only [if_true, inserted, ok_bind,
              mkBranch_eq_ok (fun _ => wf.bit_left) rightBit]
            have all : ∀ other, Mem other (branch current left result) ↔
                other = key ∨ Mem other (branch current left right) := by
              intro other
              simp only [mem_branch, members]
              tauto
            refine ⟨_, rfl, ⟨wf.1, resultWF, fun _ => wf.bit_left, rightBit, ?_⟩, all⟩
            intro first second firstMem secondMem
            exact join first second ((all first).1 firstMem) ((all second).1 secondMem)
        | false =>
            simp only [findLeaf, keyBit, Bool.false_eq_true, if_false] at found
            obtain ⟨result, inserted, resultWF, members⟩ := leftIH wf.1 found
            have leftBit : ∀ other, Mem other result → bit other current = false := by
              intro other member
              rcases (members other).1 member with rfl | member
              · exact keyBit
              · exact wf.bit_left member
            simp only [Bool.false_eq_true, if_false, inserted, ok_bind,
              mkBranch_eq_ok leftBit (fun _ => wf.bit_right)]
            have all : ∀ other, Mem other (branch current result right) ↔
                other = key ∨ Mem other (branch current left right) := by
              intro other
              simp only [mem_branch, members]
              tauto
            refine ⟨_, rfl, ⟨resultWF, wf.2.1, leftBit, fun _ => wf.bit_right, ?_⟩, all⟩
            intro first second firstMem secondMem
            exact join first second ((all first).1 firstMem) ((all second).1 secondMem)
      next notLower =>
        apply split_spec wf differ
        intro other member index notBelow
        -- The search followed `key`, so it would have left through the other side of
        -- a branch whose own bit is the differing one.
        have currentNe : current ≠ diff key existing := by
          intro currentEq
          have side := bit_diff differ
          rw [← currentEq] at side
          simp only [findLeaf] at found
          split at found
          next keyBit =>
            have existingBit := wf.bit_right (found ▸ findLeaf_mem right key)
            exact side (keyBit.trans existingBit.symm)
          next keyBit =>
            have existingBit := wf.bit_left (found ▸ findLeaf_mem left key)
            rw [Bool.not_eq_true] at keyBit
            exact side (keyBit.trans existingBit.symm)
        exact wf.agree_above member existingMem (by omega)

/-! ## Depth -/

/-- The number of nodes on the longest path to a leaf. -/
def depth : Patricia κ → Nat
  | leaf _ => 1
  | branch _ left right => max left.depth right.depth + 1

/-- A branch whose keys agree on a bit and on all bits above separates them below it. -/
theorem WF.branch_lt {index inner : Nat} {first second : Patricia κ}
    (wf : WF (branch inner first second))
    (agree : ∀ key other, Mem key (branch inner first second) →
      Mem other (branch inner first second) → ∀ above, index ≤ above →
      bit key above = bit other above) : inner < index := by
  by_contra notBelow
  have zero := wf.bit_left first.mem_sample
  have one := wf.bit_right second.mem_sample
  have equal := agree first.sample second.sample (mem_branch.mpr (.inl first.mem_sample))
    (mem_branch.mpr (.inr second.mem_sample)) inner (Nat.le_of_not_lt notBelow)
  rw [zero, one] at equal
  cases equal

/-- On one side of a branch the keys agree on its bit and on all bits above. -/
theorem WF.side_agree {index : Nat} {left right side : Patricia κ} {value : Bool}
    (wf : WF (branch index left right))
    (inside : ∀ key, Mem key side → Mem key (branch index left right))
    (same : ∀ key, Mem key side → bit key index = value) {key other : κ} (member : Mem key side)
    (member' : Mem other side) {above : Nat} (higher : index ≤ above) :
    bit key above = bit other above := by
  rcases Nat.eq_or_lt_of_le higher with rfl | higher
  · rw [same key member, same other member']
  · exact wf.agree_above (inside key member) (inside other member') higher

/-- The bits of branches decrease along every path. -/
theorem WF.depth_le {tree : Patricia κ} (wf : WF tree) {bound : Nat}
    (below : ∀ index left right, tree = branch index left right → index < bound) :
    tree.depth ≤ bound + 1 := by
  induction tree generalizing bound with
  | leaf key => exact Nat.le_add_left 1 bound
  | branch index left right leftIH rightIH =>
      have lower := below index left right rfl
      have onLeft : left.depth ≤ index + 1 := by
        apply leftIH wf.1
        rintro inner first second rfl
        exact wf.1.branch_lt fun key other member member' above higher =>
          wf.side_agree (fun _ inside => mem_branch.mpr (.inl inside))
            (fun _ inside => wf.bit_left inside) member member' higher
      have onRight : right.depth ≤ index + 1 := by
        apply rightIH wf.2.1
        rintro inner first second rfl
        exact wf.2.1.branch_lt fun key other member member' above higher =>
          wf.side_agree (fun _ inside => mem_branch.mpr (.inr inside))
            (fun _ inside => wf.bit_right inside) member member' higher
      rw [depth]
      omega

/-! ## Structural comparison -/

/-- Node-by-node comparison, cut short when the summaries of two subtrees differ. -/
def sameNode {σ : Type} [DecidableEq σ] (summary : Patricia κ → σ) [DecidableEq κ] :
    Patricia κ → Patricia κ → Bool
  | leaf left, leaf right =>
      summary (leaf left) = summary (leaf right) && left = right
  | branch index left right, branch index' left' right' =>
      summary (branch index left right) = summary (branch index' left' right') &&
        index = index' && sameNode summary left left' && sameNode summary right right'
  | _, _ => false

omit [BitKey κ] in
theorem sameNode_iff {σ : Type} [DecidableEq σ] [DecidableEq κ]
    (summary : Patricia κ → σ) (tree other : Patricia κ) :
    sameNode summary tree other = true ↔ tree = other := by
  induction tree generalizing other with
  | leaf key =>
      cases other with
      | leaf key' => simp [sameNode]; intro equal; rw [equal]
      | branch => simp [sameNode]
  | branch _ _ _ leftIH rightIH =>
      cases other with
      | leaf key => simp [sameNode]
      | branch =>
          simp only [sameNode, Bool.and_eq_true, decide_eq_true_eq, leftIH, rightIH,
            branch.injEq]
          constructor
          · rintro ⟨⟨⟨-, indexEq⟩, leftEq⟩, rightEq⟩
            exact ⟨indexEq, leftEq, rightEq⟩
          · rintro ⟨rfl, rfl, rfl⟩
            exact ⟨⟨⟨rfl, rfl⟩, rfl⟩, rfl⟩

end Patricia

end VThread.Lib

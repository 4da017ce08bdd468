import Mathlib.Data.Finset.Card
import Mathlib.Data.List.Nodup
import VThread.Lib.Checked

/-!
# Carrier-local task storage

Task slots behind compact keys.  Owned fibers and borrowed leases have a slab each, and a
key names the slab, the slot and nothing else: a freed slot is reused by the next insertion.
-/

namespace VThread.Kernel

/-- `TaskKey`. -/
inductive TaskKey where
  | owned (index : Nat)
  | borrowed (index : Nat)
  deriving DecidableEq

namespace TaskKey

def index : TaskKey → Nat
  | owned index => index
  | borrowed index => index

def isBorrowed : TaskKey → Bool
  | owned _ => false
  | borrowed _ => true

/-- `encoded`: twice the one-based slot, and the kind in the low bit. -/
def encoded (key : TaskKey) : Nat := 2 * (key.index + 1) + key.isBorrowed.toNat

theorem encoded_injective : Function.Injective encoded := by
  intro key other same
  have parity : key.isBorrowed = other.isBorrowed := by
    cases key <;> cases other <;>
      simp only [encoded, isBorrowed, Bool.toNat_false, Bool.toNat_true] at same ⊢ <;> omega
  have slot : key.index = other.index := by
    rw [encoded, encoded, parity] at same
    omega
  cases key <;> cases other <;> simp_all [index, isBorrowed]

end TaskKey

/-- `TaskSlab`.  The list of vacant slots is exact, so that the assertion of `insert` cannot
fail. -/
structure TaskSlab (α : Type) where
  slots : List (Option α)
  /-- The last slot freed comes first. -/
  vacant : List Nat
  distinct : vacant.Nodup
  mem_vacant : ∀ index, index ∈ vacant ↔ slots[index]? = some none

namespace TaskSlab

variable {α : Type}

def new : TaskSlab α := ⟨[], [], List.nodup_nil, by simp⟩

def get (slab : TaskSlab α) (index : Nat) : Option α := slab.slots[index]?.join

def len (slab : TaskSlab α) : Nat := slab.slots.length - slab.vacant.length

theorem get_eq_some {slab : TaskSlab α} {index : Nat} {value : α} :
    slab.get index = some value ↔ slab.slots[index]? = some (some value) := by
  simp [get, Option.join_eq_some_iff]

theorem get_of_vacant {slab : TaskSlab α} {index : Nat} (free : index ∈ slab.vacant) :
    slab.get index = none := by
  rw [get, (slab.mem_vacant index).mp free]
  rfl

theorem get_length (slab : TaskSlab α) : slab.get slab.slots.length = none := by
  rw [get, List.getElem?_eq_none_iff.mpr (Nat.le_refl _)]
  rfl

theorem vacant_lt {slab : TaskSlab α} {index : Nat} (free : index ∈ slab.vacant) :
    index < slab.slots.length :=
  (List.getElem?_eq_some_iff.mp ((slab.mem_vacant index).mp free)).1

theorem vacant_length_le (slab : TaskSlab α) : slab.vacant.length ≤ slab.slots.length := by
  have inside : slab.vacant ⊆ List.range slab.slots.length := fun index free =>
    List.mem_range.mpr (vacant_lt free)
  simpa using (slab.distinct.subperm inside).length_le

theorem get_lt {slab : TaskSlab α} {index : Nat} {value : α} (there : slab.get index = some value) :
    index < slab.slots.length :=
  (List.getElem?_eq_some_iff.mp (get_eq_some.mp there)).1

/-! ## Insertion -/

/-- The slot of the next insertion. -/
def nextSlot (slab : TaskSlab α) : Nat := slab.vacant.headD slab.slots.length

theorem get_nextSlot (slab : TaskSlab α) : slab.get slab.nextSlot = none := by
  rw [nextSlot]
  cases free : slab.vacant with
  | nil => exact slab.get_length
  | cons => exact get_of_vacant (by simp [free])

def insert (slab : TaskSlab α) (value : α) : TaskSlab α × Nat :=
  match free : slab.vacant with
  | [] => ({
      slots := slab.slots ++ [some value]
      vacant := []
      distinct := List.nodup_nil
      mem_vacant := by
        intro index
        have none_vacant := slab.mem_vacant index
        rw [free] at none_vacant
        rcases Nat.lt_trichotomy index slab.slots.length with below | rfl | above
        · rw [List.getElem?_append_left below]
          exact none_vacant
        · simp
        · have beyond : (slab.slots ++ [some value]).length ≤ index := by
            rw [List.length_append]
            exact above
          rw [List.getElem?_eq_none beyond]
          exact iff_of_false List.not_mem_nil (by simp) },
      slab.slots.length)
  | index :: vacant => ({
      slots := slab.slots.set index (some value)
      vacant := vacant
      distinct := (free ▸ slab.distinct).of_cons
      mem_vacant := by
        intro other
        have known := slab.mem_vacant other
        have distinct := free ▸ slab.distinct
        rw [free, List.mem_cons] at known
        by_cases same : other = index
        · subst same
          have inside : other < slab.slots.length := vacant_lt (by simp [free])
          simp [List.getElem?_set_self inside, (List.nodup_cons.mp distinct).1]
        · rw [List.getElem?_set_ne (fun equal => same equal.symm), ← known]
          simp [same] }, index)

theorem insert_snd (slab : TaskSlab α) (value : α) : (slab.insert value).2 = slab.nextSlot := by
  rw [insert, nextSlot]
  split
  · rename_i free
    simp [free]
  · rename_i index vacant free
    simp [free]

theorem insert_get_self (slab : TaskSlab α) (value : α) :
    (slab.insert value).1.get slab.nextSlot = some value := by
  rw [get_eq_some, insert, nextSlot]
  split
  · rename_i free
    simp [free]
  · rename_i index vacant free
    have inside : index < slab.slots.length := vacant_lt (by simp [free])
    simp [free, List.getElem?_set_self inside]

theorem insert_get_of_ne (slab : TaskSlab α) (value : α) {index : Nat}
    (other : index ≠ slab.nextSlot) : (slab.insert value).1.get index = slab.get index := by
  rw [get, get, insert]
  rw [nextSlot] at other
  split
  · rename_i free
    rw [free, List.headD_nil] at other
    rcases Nat.lt_or_gt_of_ne other with below | above
    · simp [List.getElem?_append_left below]
    · rw [List.getElem?_eq_none_iff.mpr (by simp; omega), List.getElem?_eq_none_iff.mpr above.le]
  · rename_i vacantIndex vacant free
    rw [free, List.headD_cons] at other
    simp [List.getElem?_set_ne (Ne.symm other)]

theorem insert_len (slab : TaskSlab α) (value : α) :
    (slab.insert value).1.len = slab.len + 1 := by
  have bound := slab.vacant_length_le
  rw [len, len, insert]
  split
  · rename_i free
    simp [free]
  · rename_i index vacant free
    simp only [List.length_set]
    rw [free, List.length_cons] at bound ⊢
    omega

/-- A slab grows to its greatest size and no further. -/
theorem insert_slots_le (slab : TaskSlab α) (value : α) :
    (slab.insert value).1.slots.length ≤ max slab.slots.length (slab.len + 1) := by
  rw [len, insert]
  split
  · rename_i free
    simp [free]
  · simp

/-! ## Removal -/

def remove (slab : TaskSlab α) (index : Nat) : TaskSlab α × Option α :=
  match there : slab.get index with
  | none => (slab, none)
  | some value => ({
      slots := slab.slots.set index none
      vacant := index :: slab.vacant
      distinct := by
        refine List.nodup_cons.mpr ⟨fun free => ?_, slab.distinct⟩
        rw [get_of_vacant free] at there
        cases there
      mem_vacant := by
        intro other
        rw [List.mem_cons, slab.mem_vacant other]
        by_cases same : other = index
        · subst same
          simp [List.getElem?_set_self (get_lt there)]
        · simp [List.getElem?_set_ne (fun equal => same equal.symm), same] }, some value)

theorem remove_snd (slab : TaskSlab α) (index : Nat) :
    (slab.remove index).2 = slab.get index := by
  rw [remove]
  split <;> simp [*]

theorem remove_get_self (slab : TaskSlab α) (index : Nat) :
    (slab.remove index).1.get index = none := by
  rw [remove]
  split
  · assumption
  · rename_i value there
    simp [get, List.getElem?_set_self (get_lt there)]

theorem remove_get_of_ne (slab : TaskSlab α) {index other : Nat} (different : other ≠ index) :
    (slab.remove index).1.get other = slab.get other := by
  rw [remove]
  split
  · rfl
  · simp [get, List.getElem?_set_ne (Ne.symm different)]

theorem remove_len {slab : TaskSlab α} {index : Nat} {value : α}
    (there : slab.get index = some value) : (slab.remove index).1.len + 1 = slab.len := by
  have occupied : slab.vacant.length < slab.slots.length := by
    have absent : index ∉ slab.vacant := fun free => by
      rw [get_of_vacant free] at there
      cases there
    have inside : index :: slab.vacant ⊆ List.range slab.slots.length := by
      intro other member
      rcases List.mem_cons.mp member with rfl | free
      · exact List.mem_range.mpr (get_lt there)
      · exact List.mem_range.mpr (vacant_lt free)
    have bound := ((List.nodup_cons.mpr ⟨absent, slab.distinct⟩).subperm inside).length_le
    simpa [Nat.succ_le_iff] using bound
  rw [remove]
  split
  · rename_i absent
    rw [there] at absent
    cases absent
  · simp only [len, List.length_set, List.length_cons]
    omega

theorem remove_slots (slab : TaskSlab α) (index : Nat) :
    (slab.remove index).1.slots.length = slab.slots.length := by
  rw [remove]
  split
  · rfl
  · simp

/-! ## Size -/

theorem len_eq_zero {slab : TaskSlab α} : slab.len = 0 ↔ ∀ index, slab.get index = none := by
  constructor
  · intro empty index
    by_cases inside : index < slab.slots.length
    · have all : List.range slab.slots.length ⊆ slab.vacant := by
        have within : slab.vacant ⊆ List.range slab.slots.length := fun index free =>
          List.mem_range.mpr (vacant_lt free)
        have perm : slab.vacant.Perm (List.range slab.slots.length) := by
          apply (slab.distinct.subperm within).perm_of_length_le
          rw [List.length_range]
          rw [len] at empty
          omega
        exact perm.symm.subset
      exact get_of_vacant (all (List.mem_range.mpr inside))
    · rw [get, List.getElem?_eq_none_iff.mpr (Nat.le_of_not_lt inside)]
      rfl
  · intro absent
    have all : List.range slab.slots.length ⊆ slab.vacant := by
      intro index member
      have inside := List.mem_range.mp member
      rw [slab.mem_vacant, List.getElem?_eq_getElem inside]
      have missing := absent index
      rw [get, List.getElem?_eq_getElem inside] at missing
      rw [show slab.slots[index] = none from missing]
    have bound := (List.nodup_range.subperm all).length_le
    rw [List.length_range] at bound
    rw [len]
    omega

/-- Live slots are counted. -/
theorem length_le_len {slab : TaskSlab α} {indices : List Nat} (distinct : indices.Nodup)
    (live : ∀ index ∈ indices, (slab.get index).isSome = true) : indices.length ≤ slab.len := by
  have apart : (indices ++ slab.vacant).Nodup := by
    refine distinct.append slab.distinct fun index isLive free => ?_
    have some := live index isLive
    rw [get_of_vacant free] at some
    cases some
  have inside : indices ++ slab.vacant ⊆ List.range slab.slots.length := by
    intro index member
    rw [List.mem_range]
    rcases List.mem_append.mp member with isLive | free
    · obtain ⟨value, there⟩ := Option.isSome_iff_exists.mp (live index isLive)
      exact get_lt there
    · exact vacant_lt free
  have bound := (apart.subperm inside).length_le
  rw [List.length_append, List.length_range] at bound
  rw [len]
  omega

end TaskSlab

/-- The frames of a task, in the scope that all its descendants belong to. -/
structure Frames where
  task : Nat
  scope : Nat
  deriving DecidableEq

/-- A started or local task.  Its lineage lists its own frames first and then those it borrows,
up to the frames of an owned task. -/
structure Task where
  id : Nat
  scope : Nat
  lineage : List Frames
  deriving DecidableEq

def Task.frames (task : Task) : Frames := ⟨task.id, task.scope⟩

/-- `KernelTasks`. -/
structure KernelTasks where
  owned : TaskSlab Task
  borrowed : TaskSlab Task

namespace KernelTasks

def new : KernelTasks := ⟨.new, .new⟩

def insertOwned (tasks : KernelTasks) (task : Task) : KernelTasks × TaskKey :=
  ({ tasks with owned := (tasks.owned.insert task).1 }, .owned (tasks.owned.insert task).2)

def insertBorrowed (tasks : KernelTasks) (task : Task) : KernelTasks × TaskKey :=
  ({ tasks with borrowed := (tasks.borrowed.insert task).1 },
    .borrowed (tasks.borrowed.insert task).2)

def get (tasks : KernelTasks) : TaskKey → Option Task
  | .owned index => tasks.owned.get index
  | .borrowed index => tasks.borrowed.get index

/-- `remove`, which reports whether the key was live. -/
def remove (tasks : KernelTasks) : TaskKey → KernelTasks × Bool
  | .owned index =>
      ({ tasks with owned := (tasks.owned.remove index).1 }, (tasks.owned.remove index).2.isSome)
  | .borrowed index =>
      ({ tasks with borrowed := (tasks.borrowed.remove index).1 },
        (tasks.borrowed.remove index).2.isSome)

def len (tasks : KernelTasks) : Nat := tasks.owned.len + tasks.borrowed.len

def borrowedCount (tasks : KernelTasks) : Nat := tasks.borrowed.len

variable {tasks : KernelTasks} {task : Task}

theorem insertOwned_get (tasks : KernelTasks) (task : Task) (key : TaskKey) :
    (tasks.insertOwned task).1.get key =
      if key = (tasks.insertOwned task).2 then some task else tasks.get key := by
  cases key with
  | owned index =>
      by_cases same : index = tasks.owned.nextSlot
      · subst same
        simp [insertOwned, get, TaskSlab.insert_snd, TaskSlab.insert_get_self]
      · simp [insertOwned, get, TaskSlab.insert_snd, TaskSlab.insert_get_of_ne _ _ same, same]
  | borrowed index => simp [insertOwned, get]

theorem insertBorrowed_get (tasks : KernelTasks) (task : Task) (key : TaskKey) :
    (tasks.insertBorrowed task).1.get key =
      if key = (tasks.insertBorrowed task).2 then some task else tasks.get key := by
  cases key with
  | owned index => simp [insertBorrowed, get]
  | borrowed index =>
      by_cases same : index = tasks.borrowed.nextSlot
      · subst same
        simp [insertBorrowed, get, TaskSlab.insert_snd, TaskSlab.insert_get_self]
      · simp [insertBorrowed, get, TaskSlab.insert_snd, TaskSlab.insert_get_of_ne _ _ same, same]

theorem insertOwned_fresh (tasks : KernelTasks) (task : Task) :
    tasks.get (tasks.insertOwned task).2 = none := by
  simp [insertOwned, get, TaskSlab.insert_snd, TaskSlab.get_nextSlot]

theorem insertBorrowed_fresh (tasks : KernelTasks) (task : Task) :
    tasks.get (tasks.insertBorrowed task).2 = none := by
  simp [insertBorrowed, get, TaskSlab.insert_snd, TaskSlab.get_nextSlot]

theorem insertOwned_len (tasks : KernelTasks) (task : Task) :
    (tasks.insertOwned task).1.len = tasks.len + 1 := by
  simp only [insertOwned, len, TaskSlab.insert_len]
  omega

theorem insertBorrowed_len (tasks : KernelTasks) (task : Task) :
    (tasks.insertBorrowed task).1.len = tasks.len + 1 := by
  simp only [insertBorrowed, len, TaskSlab.insert_len]
  omega

theorem remove_get (tasks : KernelTasks) (key other : TaskKey) :
    (tasks.remove key).1.get other = if other = key then none else tasks.get other := by
  cases key with
  | owned index =>
      cases other with
      | owned other =>
          by_cases same : other = index
          · subst same
            simp [remove, get, TaskSlab.remove_get_self]
          · simp [remove, get, TaskSlab.remove_get_of_ne _ same, same]
      | borrowed other => simp [remove, get]
  | borrowed index =>
      cases other with
      | owned other => simp [remove, get]
      | borrowed other =>
          by_cases same : other = index
          · subst same
            simp [remove, get, TaskSlab.remove_get_self]
          · simp [remove, get, TaskSlab.remove_get_of_ne _ same, same]

theorem remove_snd (tasks : KernelTasks) (key : TaskKey) :
    (tasks.remove key).2 = (tasks.get key).isSome := by
  cases key <;> simp [remove, get, TaskSlab.remove_snd]

/-- No slot is given back. -/
def capacity (tasks : KernelTasks) : Nat × Nat :=
  (tasks.owned.slots.length, tasks.borrowed.slots.length)

theorem remove_capacity (tasks : KernelTasks) (key : TaskKey) :
    (tasks.remove key).1.capacity = tasks.capacity := by
  cases key <;> simp [remove, capacity, TaskSlab.remove_slots]

theorem remove_len {key : TaskKey} (there : tasks.get key = some task) :
    (tasks.remove key).1.len + 1 = tasks.len := by
  cases key with
  | owned | borrowed =>
      have shorter := TaskSlab.remove_len there
      simp only [remove, len]
      omega

/-- Live keys are counted. -/
theorem length_le_len {keys : List TaskKey} (distinct : keys.Nodup)
    (live : ∀ key ∈ keys, (tasks.get key).isSome = true) : keys.length ≤ tasks.len := by
  have indices (kind : Bool) : ((keys.filter (·.isBorrowed == kind)).map (·.index)).Nodup := by
    refine List.Nodup.map_on (fun key member other member' same => ?_) (distinct.filter _)
    have isKind := (List.mem_filter.mp member).2
    have isKind' := (List.mem_filter.mp member').2
    rw [beq_iff_eq] at isKind isKind'
    cases key <;> cases other <;> simp_all [TaskKey.index, TaskKey.isBorrowed]
  have owned := @TaskSlab.length_le_len _ tasks.owned _ (indices false) (by
    intro index member
    obtain ⟨key, chosen, rfl⟩ := List.mem_map.mp member
    obtain ⟨isKey, isOwned⟩ := List.mem_filter.mp chosen
    cases key with
    | owned index => exact live _ isKey
    | borrowed index => cases isOwned)
  have borrowed := @TaskSlab.length_le_len _ tasks.borrowed _ (indices true) (by
    intro index member
    obtain ⟨key, chosen, rfl⟩ := List.mem_map.mp member
    obtain ⟨isKey, isBorrowed⟩ := List.mem_filter.mp chosen
    cases key with
    | owned index => cases isBorrowed
    | borrowed index => exact live _ isKey)
  have split := @List.length_eq_length_filter_add _ keys (·.isBorrowed == false)
  have same : (keys.filter fun key => !(key.isBorrowed == false)) =
      keys.filter (·.isBorrowed == true) := by
    refine List.filter_congr fun key _ => ?_
    cases key.isBorrowed <;> rfl
  rw [List.length_map] at owned borrowed
  rw [same] at split
  rw [split, len]
  exact Nat.add_le_add owned borrowed

theorem borrowedCount_eq_zero : tasks.borrowedCount = 0 ↔
    ∀ key, key.isBorrowed = true → tasks.get key = none := by
  rw [borrowedCount, TaskSlab.len_eq_zero]
  constructor
  · intro empty key isBorrowed
    cases key with
    | owned index => cases isBorrowed
    | borrowed index => exact empty index
  · intro empty index
    exact empty (.borrowed index) rfl

end KernelTasks

end VThread.Kernel

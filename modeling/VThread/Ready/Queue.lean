import Mathlib.Data.List.Basic

/-!
# The ready queue of a carrier

Two lanes of runnable tasks.  A cohort serves at most two newest wakes, one normal head and
then one oldest wake; an empty lane does not consume a dispatch.
-/

namespace VThread.Ready

/-- `WAKE_BURST`. -/
def wakeBurst : Nat := 2

/-- The first entry of the wake lane is its newest. -/
structure ReadyQueue (α : Type) where
  normal : List α
  wakes : List α
  wakeStreak : Nat
  deriving DecidableEq

/-- Operations on the queue in a run without cleanup. -/
inductive Op (α : Type) where
  | pushBack (task : α)
  | pushWake (task : α)
  | popFront
  deriving DecidableEq

variable {α β : Type}

namespace ReadyQueue

def new : ReadyQueue α := ⟨[], [], 0⟩

def pushBack (queue : ReadyQueue α) (task : α) : ReadyQueue α :=
  { queue with normal := queue.normal ++ [task] }

def pushFront (queue : ReadyQueue α) (task : α) : ReadyQueue α :=
  { queue with normal := task :: queue.normal }

def pushWake (queue : ReadyQueue α) (task : α) : ReadyQueue α :=
  { queue with wakes := task :: queue.wakes }

/-- `pop_front` of the normal lane. -/
def popNormal (queue : ReadyQueue α) : ReadyQueue α × Option α :=
  ({ queue with normal := queue.normal.tail }, queue.normal.head?)

/-- `pop_back` of the wake lane. -/
def popOldest (queue : ReadyQueue α) : ReadyQueue α × Option α :=
  ({ queue with wakes := queue.wakes.dropLast, wakeStreak := 0 }, queue.wakes.getLast?)

def popFront (queue : ReadyQueue α) : ReadyQueue α × Option α :=
  if queue.wakes.isEmpty then { queue with wakeStreak := 0 }.popNormal
  else if queue.wakeStreak < wakeBurst then
    ({ queue with wakes := queue.wakes.tail, wakeStreak := queue.wakeStreak + 1 },
      queue.wakes.head?)
  else if queue.wakeStreak = wakeBurst then
    -- The oldest wake is due next even when normal work is selected now.
    match { queue with wakeStreak := queue.wakeStreak + 1 }.popNormal with
    | (queue, some task) => (queue, some task)
    | (queue, none) => queue.popOldest
  else queue.popOldest

def len (queue : ReadyQueue α) : Nat := queue.normal.length + queue.wakes.length

def isEmpty (queue : ReadyQueue α) : Bool := queue.normal.isEmpty && queue.wakes.isEmpty

/-! ## Runs -/

/-- An operation and what it returns, if it is a pop. -/
def apply (queue : ReadyQueue α) : Op α → ReadyQueue α × Option (Option α)
  | .pushBack task => (queue.pushBack task, none)
  | .pushWake task => (queue.pushWake task, none)
  | .popFront => (queue.popFront.1, some queue.popFront.2)

/-- The queue after a run. -/
def after (queue : ReadyQueue α) : List (Op α) → ReadyQueue α
  | [] => queue
  | op :: ops => (queue.apply op).1.after ops

/-- What the pops of a run return. -/
def results (queue : ReadyQueue α) : List (Op α) → List (Option α)
  | [] => []
  | op :: ops => (queue.apply op).2.toList ++ (queue.apply op).1.results ops

/-! ## What a pop can do -/

/-- Every outcome of a pop. -/
inductive Pops (queue : ReadyQueue α) : ReadyQueue α → Option α → Prop where
  | empty : queue.normal = [] → queue.wakes = [] →
      Pops queue { queue with wakeStreak := 0 } none
  | idle (task : α) (rest : List α) : queue.normal = task :: rest → queue.wakes = [] →
      Pops queue { queue with normal := rest, wakeStreak := 0 } (some task)
  | newest (task : α) (rest : List α) : queue.wakes = task :: rest →
      queue.wakeStreak < wakeBurst →
      Pops queue { queue with wakes := rest, wakeStreak := queue.wakeStreak + 1 } (some task)
  | normal (task : α) (rest : List α) : queue.normal = task :: rest → queue.wakes ≠ [] →
      queue.wakeStreak = wakeBurst →
      Pops queue { queue with normal := rest, wakeStreak := wakeBurst + 1 } (some task)
  | oldest (rest : List α) (task : α) : queue.wakes = rest ++ [task] →
      (queue.wakeStreak = wakeBurst ∧ queue.normal = [] ∨ wakeBurst < queue.wakeStreak) →
      Pops queue { queue with wakes := rest, wakeStreak := 0 } (some task)

theorem popFront_pops (queue : ReadyQueue α) :
    Pops queue queue.popFront.1 queue.popFront.2 := by
  obtain ⟨normal, wakes, streak⟩ := queue
  cases wakes with
  | nil =>
      cases normal with
      | nil => exact .empty rfl rfl
      | cons task rest => exact .idle task rest rfl rfl
  | cons newest wakes =>
      obtain ⟨rest, oldest, split⟩ : ∃ rest oldest, newest :: wakes = rest ++ [oldest] :=
        ⟨_, _, (List.dropLast_append_getLast (List.cons_ne_nil newest wakes)).symm⟩
      have last : (⟨normal, newest :: wakes, streak⟩ : ReadyQueue α).popOldest =
          (⟨normal, rest, 0⟩, some oldest) := by
        simp [popOldest, split]
      rcases Nat.lt_trichotomy streak wakeBurst with below | equal | above
      · simp only [popFront, List.isEmpty_cons, Bool.false_eq_true, if_false, if_pos below]
        exact .newest newest wakes rfl below
      · subst equal
        cases normal with
        | nil =>
            simp only [popFront, List.isEmpty_cons, Bool.false_eq_true, if_false,
              Nat.lt_irrefl, if_true, popNormal, List.head?_nil, List.tail_nil]
            have due : (⟨[], newest :: wakes, wakeBurst + 1⟩ : ReadyQueue α).popOldest =
                (⟨[], rest, 0⟩, some oldest) := by
              simp [popOldest, split]
            rw [due]
            exact .oldest rest oldest split (.inl ⟨rfl, rfl⟩)
        | cons task normal =>
            simp only [popFront, List.isEmpty_cons, Bool.false_eq_true, if_false,
              Nat.lt_irrefl, if_true, popNormal, List.head?_cons, List.tail_cons]
            exact .normal task normal rfl (List.cons_ne_nil _ _) rfl
      · have notBelow : ¬ streak < wakeBurst := Nat.lt_asymm above
        have notEqual : streak ≠ wakeBurst := Nat.ne_of_gt above
        simp only [popFront, List.isEmpty_cons, Bool.false_eq_true, if_false, if_neg notBelow,
          if_neg notEqual, last]
        exact .oldest rest oldest split (.inr above)

/-! ## Entries may be renamed -/

def map (rename : α → β) (queue : ReadyQueue α) : ReadyQueue β :=
  ⟨queue.normal.map rename, queue.wakes.map rename, queue.wakeStreak⟩

end ReadyQueue

def Op.map (rename : α → β) : Op α → Op β
  | .pushBack task => .pushBack (rename task)
  | .pushWake task => .pushWake (rename task)
  | .popFront => .popFront

namespace ReadyQueue

variable (rename : α → β)

theorem popOldest_map (queue : ReadyQueue α) : (queue.map rename).popOldest =
    (queue.popOldest.1.map rename, queue.popOldest.2.map rename) := by
  simp [popOldest, map, List.map_dropLast]

theorem popFront_map (queue : ReadyQueue α) : (queue.map rename).popFront =
    (queue.popFront.1.map rename, queue.popFront.2.map rename) := by
  obtain ⟨normal, wakes, streak⟩ := queue
  cases wakes with
  | nil => cases normal <;> rfl
  | cons newest wakes =>
      by_cases below : streak < wakeBurst
      · simp [popFront, map, below]
      by_cases equal : streak = wakeBurst
      · cases normal with
        | nil =>
            have renamed := popOldest_map rename ⟨[], newest :: wakes, streak + 1⟩
            simpa [popFront, popNormal, map, equal] using renamed
        | cons => simp [popFront, popNormal, map, equal]
      · have renamed := popOldest_map rename ⟨normal, newest :: wakes, streak⟩
        simpa [popFront, map, below, equal] using renamed

theorem apply_map (queue : ReadyQueue α) (op : Op α) :
    (queue.map rename).apply (op.map rename) =
      ((queue.apply op).1.map rename, (queue.apply op).2.map (Option.map rename)) := by
  cases op with
  | pushBack task => simp [apply, Op.map, pushBack, map]
  | pushWake task => simp [apply, Op.map, pushWake, map]
  | popFront => simp only [apply, Op.map, popFront_map, Option.map_some]

theorem results_map (queue : ReadyQueue α) (ops : List (Op α)) :
    (queue.map rename).results (ops.map (Op.map rename)) =
      (queue.results ops).map (Option.map rename) := by
  induction ops generalizing queue with
  | nil => rfl
  | cons op ops ih =>
      simp only [List.map_cons, results, apply_map, ih, List.map_append]
      cases (queue.apply op).2 <;> rfl

end ReadyQueue

end VThread.Ready

import VThread.Lib.Census
import VThread.Join.Completion

/-!
# Subscribers of a completion

The lifecycle word counts the waiters that somebody still has to take back, and every
settled subscriber is in the map, on its way to be notified, or notified.
-/

namespace VThread.Join

open VThread.Lib

variable {capacity : Nat} {completion completion' : Completion} {pc pc' : Pc} {id : CellId}

/-! ## Counting -/

/-- Subscribers that announced themselves and are neither in the map nor taken back. -/
def Pc.announced : Pc → Nat
  | .late => 1
  | .locked => 1
  | _ => 0

/-- Subscribers that removed themselves and are not uncounted. -/
def Pc.unregistering : Pc → Nat
  | .removed => 1
  | _ => 0

/-- The waiters that `complete` took and did not uncount. -/
def Pc.uncounted : Pc → List CellId
  | .uncount waiters => waiters
  | _ => []

/-- The waiters that `complete` took and did not notify. -/
def Pc.pending : Pc → List CellId
  | .uncount waiters => waiters
  | .wake waiters => waiters
  | _ => []

/-- `DONE`, once `complete` has started. -/
def Pc.bit : Pc → Nat
  | .idle => 0
  | _ => 1

/-- The map can no longer grow and was taken. -/
def Pc.emptied : Pc → Prop
  | .idle => False
  | .take => False
  | _ => True

/-- Where `complete` can be. -/
def Pc.completes : Pc → Prop
  | .idle => True
  | .take => True
  | .uncount _ => True
  | .wake _ => True
  | .completed => True
  | _ => False

/-- The lifecycle word and the map, against the subscribers at every stage. -/
structure Counts (capacity : Nat) (completion : Completion) (completer : Pc)
    (announced unregistering : Nat) : Prop where
  sized : completion.capacity = capacity
  word : completion.lifecycle = completer.bit + 2 * (completion.waiters.length + announced +
    unregistering + completer.uncounted.length)
  bounded : completion.waiters.length ≤ capacity
  emptied : completer.emptied → completion.waiters = []
  completes : completer.completes

variable {completer completer' : Pc} {announced unregistering : Nat}

theorem Pc.bit_cases (pc : Pc) : pc = .idle ∧ pc.bit = 0 ∨ pc ≠ .idle ∧ pc.bit = 1 := by
  cases pc <;> simp [Pc.bit]

theorem Counts.isDone (counts : Counts capacity completion completer announced unregistering) :
    completion.isDone = true ↔ completer ≠ .idle := by
  have word := counts.word
  rw [Completion.isDone, done, bne_iff_ne, Nat.and_one_is_mod]
  rcases completer.bit_cases with ⟨idle, zero⟩ | ⟨started, one⟩
  · rw [zero] at word
    exact ⟨fun odd => absurd odd (by omega), fun started => absurd idle started⟩
  · rw [one] at word
    exact ⟨fun _ => started, fun _ => by omega⟩

theorem even_or_done (count : Nat) : 2 * count ||| done = 2 * count + 1 :=
  (Nat.two_pow_add_eq_or_of_lt (by decide : done < 2 ^ 1) count).symm

theorem Counts.complete (counts : Counts capacity completion completer announced unregistering)
    (taken : completeStep completion completer = some (completion', completer')) :
    Counts capacity completion' completer' announced unregistering := by
  have word := counts.word
  cases completer with
  | idle =>
      cases taken
      have even : completion.lifecycle =
          2 * (completion.waiters.length + announced + unregistering) := by
        simpa [Pc.bit, Pc.uncounted] using word
      have set : completion.lifecycle ||| done = completion.lifecycle + 1 := by
        rw [even, even_or_done]
      by_cases none : completion.lifecycle / waiter = 0
      · rw [if_pos none]
        have empty : completion.waiters.length = 0 := by
          rw [waiter] at none
          omega
        refine ⟨counts.sized, ?_, counts.bounded, fun _ => List.length_eq_zero_iff.mp empty,
          trivial⟩
        simp only [set, Pc.bit, Pc.uncounted, List.length_nil]
        omega
      · rw [if_neg none]
        refine ⟨counts.sized, ?_, counts.bounded, nofun, trivial⟩
        simp only [set, Pc.bit, Pc.uncounted, List.length_nil]
        omega
  | take =>
      cases taken
      simp only [Pc.bit, Pc.uncounted, List.length_nil] at word
      by_cases none : completion.waiters = []
      · rw [if_pos (List.isEmpty_iff.mpr none)]
        rw [none, List.length_nil] at word
        exact ⟨counts.sized, word, Nat.zero_le _, fun _ => rfl, trivial⟩
      · rw [if_neg (mt List.isEmpty_iff.mp none)]
        refine ⟨counts.sized, ?_, Nat.zero_le _, fun _ => rfl, trivial⟩
        simp only [Pc.bit, Pc.uncounted, List.length_nil]
        omega
  | uncount =>
      cases taken
      refine ⟨counts.sized, ?_, counts.bounded, fun _ => counts.emptied trivial, trivial⟩
      simp only [Pc.bit, Pc.uncounted, List.length_nil, Completion.fetchSub, waiter] at word ⊢
      omega
  | wake waiters =>
      cases waiters with
      | nil => cases taken
      | cons =>
          cases taken
          have emptied := counts.emptied trivial
          split
          · exact ⟨counts.sized, word, counts.bounded, fun _ => emptied, trivial⟩
          · exact ⟨counts.sized, word, counts.bounded, fun _ => emptied, trivial⟩
  | completed => cases taken
  | late | notifying | locked | subscribed | rejected | removed | dropped =>
      exact counts.completes.elim

theorem insert_length (fresh : id ∉ completion.waiters) :
    (completion.insert id).waiters.length = completion.waiters.length + 1 := by
  rw [Completion.insert, if_neg fresh]
  exact List.orderedInsert_length _ _ _

/-- A subscriber changes the counts by what its own stage contributes. -/
theorem Counts.subscribe {announced' unregistering' : Nat}
    (counts : Counts capacity completion completer announced unregistering)
    (fresh : pc = .locked → id ∉ completion.waiters)
    (taken : subscribeStep id completion pc = some (completion', pc'))
    (announces : announced' + pc.announced = announced + pc'.announced)
    (unregisters : unregistering' + pc.unregistering = unregistering + pc'.unregistering) :
    Counts capacity completion' completer announced' unregistering' := by
  have word := counts.word
  cases pc with
  | idle =>
      cases taken
      refine ⟨counts.sized, ?_, counts.bounded, counts.emptied, counts.completes⟩
      simp only [Completion.fetchAdd, waiter]
      split at announces <;> split at unregisters <;>
        simp only [Pc.announced, Pc.unregistering] at announces unregisters <;> omega
  | late | removed =>
      cases taken
      simp only [Pc.announced, Pc.unregistering] at announces unregisters
      refine ⟨counts.sized, ?_, counts.bounded, counts.emptied, counts.completes⟩
      simp only [Completion.fetchSub, waiter]
      omega
  | notifying =>
      cases taken
      simp only [Pc.announced, Pc.unregistering] at announces unregisters
      refine ⟨counts.sized, ?_, counts.bounded, counts.emptied, counts.completes⟩
      simp only [Completion.notify]
      omega
  | locked =>
      rw [subscribeStep] at taken
      split at taken
      · cases taken
        simp only [Pc.announced, Pc.unregistering] at announces unregisters
        refine ⟨counts.sized, ?_, counts.bounded, counts.emptied, counts.completes⟩
        simp only [Completion.fetchSub, Completion.notify, waiter]
        omega
      · rename_i running
        split at taken
        · cases taken
          simp only [Pc.announced, Pc.unregistering] at announces unregisters
          refine ⟨counts.sized, ?_, counts.bounded, counts.emptied, counts.completes⟩
          simp only [Completion.fetchSub, waiter]
          omega
        · rename_i room
          cases taken
          simp only [Pc.announced, Pc.unregistering] at announces unregisters
          have length := insert_length (fresh rfl)
          have idle : completer = .idle := by
            by_contra started
            exact running (counts.isDone.mpr started)
          have sized := counts.sized
          refine ⟨?_, ?_, ?_, ?_, counts.completes⟩
          · rw [Completion.insert, if_neg (fresh rfl)]
            exact sized
          · have same : (completion.insert id).lifecycle = completion.lifecycle := by
              rw [Completion.insert, if_neg (fresh rfl)]
            rw [same, length]
            omega
          · omega
          · rw [idle]
            exact False.elim
  | subscribed =>
      cases taken
      by_cases here : id ∈ completion.waiters
      · rw [if_pos here] at announces unregisters
        simp only [Pc.announced, Pc.unregistering] at announces unregisters
        have length := List.length_erase_add_one here
        refine ⟨counts.sized, ?_, ?_, ?_, counts.completes⟩
        · dsimp only
          omega
        · have bounded := counts.bounded
          dsimp only
          omega
        · intro emptied
          rw [counts.emptied emptied] at here
          cases here
      · rw [if_neg here] at announces unregisters
        simp only [Pc.announced, Pc.unregistering] at announces unregisters
        rw [List.erase_of_not_mem here]
        refine ⟨counts.sized, ?_, counts.bounded, counts.emptied, counts.completes⟩
        dsimp only
        omega
  | rejected | dropped | take | uncount | wake | completed => cases taken

/-! ## Settled subscribers -/

/-- The list holds exactly the elements with a property, each once. -/
structure Lists {α : Type} (list : List α) (holds : α → Prop) : Prop where
  nodup : list.Nodup
  mem_iff : ∀ item, item ∈ list ↔ holds item

namespace Lists

variable {α : Type} {list list' : List α} {holds holds' : α → Prop} {item : α}

theorem same (lists : Lists list holds) (perm : list'.Perm list)
    (iff : ∀ other, holds' other ↔ holds other) : Lists list' holds' where
  nodup := perm.nodup_iff.mpr lists.nodup
  mem_iff other := (perm.mem_iff.trans (lists.mem_iff other)).trans (iff other).symm

theorem add (lists : Lists list holds) (perm : list'.Perm (item :: list)) (fresh : ¬ holds item)
    (iff : ∀ other, holds' other ↔ other = item ∨ holds other) : Lists list' holds' where
  nodup := by
    rw [perm.nodup_iff, List.nodup_cons, lists.mem_iff]
    exact ⟨fresh, lists.nodup⟩
  mem_iff other := by
    rw [perm.mem_iff, List.mem_cons, lists.mem_iff, iff]

theorem remove (lists : Lists list holds) (perm : list.Perm (item :: list'))
    (iff : ∀ other, holds' other ↔ other ≠ item ∧ holds other) : Lists list' holds' := by
  obtain ⟨fresh, nodup⟩ := List.nodup_cons.mp (perm.nodup_iff.mp lists.nodup)
  refine ⟨nodup, fun other => ?_⟩
  rw [iff, ← lists.mem_iff, perm.mem_iff, List.mem_cons]
  constructor
  · intro member
    exact ⟨fun same => fresh (same ▸ member), .inr member⟩
  · rintro ⟨differs, same | member⟩
    · exact absurd same differs
    · exact member

end Lists

/-- `subscribe` returned a guard, and the guard has not removed the waiter. -/
def Pc.settled : Pc → Prop
  | .subscribed => True
  | .dropped gone => gone = false
  | _ => False

/-- Every settled subscriber is in one place. -/
structure Placed (completion : Completion) (completer : Pc) (pcs : CellId → Pc) : Prop where
  lists : Lists (completion.waiters ++ completer.pending ++ completion.notified)
    fun id => (pcs id).settled
  live : ∀ id ∈ completion.waiters, pcs id = .subscribed

variable {pcs : CellId → Pc}

theorem Placed.complete (placed : Placed completion completer pcs)
    (taken : completeStep completion completer = some (completion', completer')) :
    Placed completion' completer' pcs := by
  cases completer with
  | idle =>
      cases taken
      by_cases none : completion.lifecycle / waiter = 0
      · rw [if_pos none]
        exact ⟨placed.lists, placed.live⟩
      · rw [if_neg none]
        exact ⟨placed.lists, placed.live⟩
  | take =>
      cases taken
      by_cases none : completion.waiters = []
      · rw [if_pos (List.isEmpty_iff.mpr none)]
        have lists := placed.lists
        rw [none] at lists
        exact ⟨lists, nofun⟩
      · rw [if_neg (mt List.isEmpty_iff.mp none)]
        have lists := placed.lists
        change Lists (completion.waiters ++ [] ++ completion.notified) _ at lists
        rw [List.append_nil] at lists
        exact ⟨lists, nofun⟩
  | uncount =>
      cases taken
      exact ⟨placed.lists, placed.live⟩
  | wake waiters =>
      cases waiters with
      | nil => cases taken
      | cons id rest =>
          cases taken
          have pending : (if rest.isEmpty then Pc.completed else .wake rest).pending = rest := by
            cases rest <;> rfl
          refine ⟨placed.lists.same ?_ fun _ => Iff.rfl, placed.live⟩
          rw [pending]
          change (completion.waiters ++ rest ++ (completion.notified ++ [id])).Perm
            (completion.waiters ++ (id :: rest) ++ completion.notified)
          rw [← List.append_assoc]
          refine (List.perm_append_singleton _ _).trans ?_
          have middle : (completion.waiters ++ id :: (rest ++ completion.notified)).Perm
              (id :: (completion.waiters ++ (rest ++ completion.notified))) := List.perm_middle
          simpa using middle.symm
  | completed => cases taken
  | late | notifying | locked | subscribed | rejected | removed | dropped => cases taken

/-- The step of one subscriber. -/
def after (pcs : CellId → Pc) (id : CellId) (pc : Pc) : CellId → Pc :=
  fun other => if other = id then pc else pcs other

theorem after_settled_same (same : pc'.settled ↔ (pcs id).settled) (other : CellId) :
    (after pcs id pc' other).settled ↔ (pcs other).settled := by
  unfold after
  split
  · rename_i equal
    rw [equal]
    exact same
  · exact Iff.rfl

theorem after_settled_add (settled : pc'.settled) (other : CellId) :
    (after pcs id pc' other).settled ↔ other = id ∨ (pcs other).settled := by
  unfold after
  split
  · rename_i equal
    exact ⟨fun _ => .inl equal, fun _ => settled⟩
  · rename_i differs
    exact ⟨.inr, fun either => either.resolve_left differs⟩

theorem after_settled_remove (unsettled : ¬ pc'.settled) (other : CellId) :
    (after pcs id pc' other).settled ↔ other ≠ id ∧ (pcs other).settled := by
  unfold after
  split
  · rename_i equal
    exact ⟨fun settled => absurd settled unsettled, fun both => absurd equal both.1⟩
  · rename_i differs
    exact ⟨fun settled => ⟨differs, settled⟩, fun both => both.2⟩

/-- A subscriber that is not in the map moves on. -/
theorem Placed.after_live (placed : Placed completion completer pcs)
    (absent : id ∉ completion.waiters) : ∀ other ∈ completion.waiters,
      after pcs id pc' other = .subscribed := by
  intro other member
  have differs : other ≠ id := fun same => absent (same ▸ member)
  rw [after, if_neg differs]
  exact placed.live other member

theorem Placed.absent (placed : Placed completion completer pcs)
    (away : pcs id ≠ .subscribed) : id ∉ completion.waiters :=
  fun member => away (placed.live id member)

theorem Placed.subscribe (placed : Placed completion completer pcs)
    (taken : subscribeStep id completion (pcs id) = some (completion', pc')) :
    Placed completion' completer (after pcs id pc') := by
  have absent : pcs id ≠ .subscribed → id ∉ completion.waiters := placed.absent
  cases atPc : pcs id with
  | idle =>
      rw [atPc] at taken absent
      cases taken
      refine ⟨placed.lists.same (.refl _) (after_settled_same ?_), placed.after_live (absent nofun)⟩
      rw [atPc]
      split <;> rfl
  | late =>
      rw [atPc] at taken absent
      cases taken
      refine ⟨placed.lists.same (.refl _) (after_settled_same ?_), placed.after_live (absent nofun)⟩
      rw [atPc]
      rfl
  | removed =>
      rw [atPc] at taken absent
      cases taken
      refine ⟨placed.lists.same (.refl _) (after_settled_same ?_), placed.after_live (absent nofun)⟩
      rw [atPc]
      simp [Pc.settled]
  | notifying =>
      rw [atPc] at taken absent
      cases taken
      refine ⟨placed.lists.add ?_ ?_ (after_settled_add trivial),
        placed.after_live (absent nofun)⟩
      · simp only [Completion.notify, ← List.append_assoc]
        exact List.perm_append_singleton _ _
      · rw [atPc]
        exact not_false
  | locked =>
      rw [atPc] at absent
      have away := absent nofun
      have unsettled : ¬ (pcs id).settled := by
        rw [atPc]
        exact not_false
      rw [atPc, subscribeStep] at taken
      split at taken
      · cases taken
        refine ⟨placed.lists.add ?_ unsettled (after_settled_add trivial), placed.after_live away⟩
        simp only [Completion.notify, Completion.fetchSub, ← List.append_assoc]
        exact List.perm_append_singleton _ _
      · split at taken
        · cases taken
          refine ⟨placed.lists.same (.refl _) (after_settled_same ?_), placed.after_live away⟩
          rw [atPc]
          rfl
        · cases taken
          have inserted : completion.insert id =
              { completion with waiters := completion.waiters.orderedInsert (· ≤ ·) id } :=
            if_neg away
          rw [inserted]
          refine ⟨placed.lists.add ?_ unsettled (after_settled_add trivial), ?_⟩
          · have perm := List.perm_orderedInsert (· ≤ ·) id completion.waiters
            exact (perm.append_right completer.pending).append_right completion.notified
          · intro other member
            rcases (List.mem_orderedInsert _).mp member with rfl | old
            · exact if_pos rfl
            · exact placed.after_live away other old
  | subscribed =>
      rw [atPc] at taken
      have settled : (pcs id).settled := by
        rw [atPc]
        trivial
      cases taken
      by_cases here : id ∈ completion.waiters
      · rw [if_pos here]
        have perm := List.perm_cons_erase here
        have distinct := (List.nodup_append.mp (List.nodup_append.mp placed.lists.nodup).1).1
        refine ⟨placed.lists.remove ?_ (after_settled_remove not_false), ?_⟩
        · exact (perm.append_right completer.pending).append_right completion.notified
        · intro other member
          obtain ⟨differs, old⟩ := (distinct.mem_erase_iff).mp member
          rw [after, if_neg differs]
          exact placed.live other old
      · rw [if_neg here, List.erase_of_not_mem here]
        refine ⟨placed.lists.same (.refl _) (after_settled_same ?_), placed.after_live here⟩
        exact ⟨fun _ => settled, fun _ => rfl⟩
  | rejected | dropped | take | uncount | wake | completed =>
      rw [atPc] at taken
      cases taken

/-! ## Runs -/

theorem announced_move {state : Threads Party Completion Pc} (reachable :
    (program capacity).system.Reachable state) (party : Party) (pc : Pc) :
    total Pc.announced (fun other => if other = party then pc else state.locals other) +
        (state.locals party).announced =
      total Pc.announced state.locals + pc.announced :=
  total_move Pc.announced rfl (Program.started reachable) party pc

theorem unregistering_move {state : Threads Party Completion Pc} (reachable :
    (program capacity).system.Reachable state) (party : Party) (pc : Pc) :
    total Pc.unregistering (fun other => if other = party then pc else state.locals other) +
        (state.locals party).unregistering =
      total Pc.unregistering state.locals + pc.unregistering :=
  total_move Pc.unregistering rfl (Program.started reachable) party pc

/-- The step of `complete` is at none of the stages of subscribers. -/
theorem completeStep_stage
    (taken : completeStep completion completer = some (completion', completer'))
    (completes : completer.completes) : completer.announced = 0 ∧ completer.unregistering = 0 ∧
      completer'.announced = 0 ∧ completer'.unregistering = 0 := by
  cases completer with
  | idle | take =>
      cases taken
      split <;> exact ⟨rfl, rfl, rfl, rfl⟩
  | uncount =>
      cases taken
      exact ⟨rfl, rfl, rfl, rfl⟩
  | wake waiters =>
      cases waiters with
      | nil => cases taken
      | cons =>
          cases taken
          split <;> exact ⟨rfl, rfl, rfl, rfl⟩
  | completed => cases taken
  | late | notifying | locked | subscribed | rejected | removed | dropped => exact completes.elim

theorem counts_new : Counts capacity (.new capacity) .idle 0 0 where
  sized := rfl
  word := rfl
  bounded := Nat.zero_le _
  emptied := nofun
  completes := trivial

theorem placed_new : Placed (.new capacity) .idle fun _ => .idle where
  lists := ⟨List.nodup_nil, fun _ => ⟨nofun, nofun⟩⟩
  live := nofun

/-- The counts and the places hold in every reachable state. -/
theorem reachable_good {state : Threads Party Completion Pc}
    (reachable : (program capacity).system.Reachable state) :
    Counts capacity state.shared (state.locals .completer) (total Pc.announced state.locals)
        (total Pc.unregistering state.locals) ∧
      Placed state.shared (state.locals .completer) fun id => state.locals (.subscriber id) := by
  induction reachable with
  | @initial first isInitial =>
      obtain ⟨fresh, idle⟩ := isInitial
      have fresh : first.shared = .new capacity := fresh
      have idle : first.locals = fun _ => .idle := funext idle
      rw [fresh, idle]
      have noneAnnounced : total Pc.announced (fun _ : Party => Pc.idle) = 0 :=
        total_eq_zero fun _ => rfl
      have noneUnregistering : total Pc.unregistering (fun _ : Party => Pc.idle) = 0 :=
        total_eq_zero fun _ => rfl
      rw [noneAnnounced, noneUnregistering]
      exact ⟨counts_new, placed_new⟩
  | @step first last previous taken ih =>
      obtain ⟨counts, placed⟩ := ih
      cases taken with
      | mk party moved =>
          rename_i completion' pc'
          have announces := announced_move previous party pc'
          have unregisters := unregistering_move previous party pc'
          cases party with
          | completer =>
              obtain ⟨none, none', still, still'⟩ := completeStep_stage moved counts.completes
              rw [none, still] at announces
              rw [none', still'] at unregisters
              simp only [Nat.add_zero] at announces unregisters
              dsimp only
              rw [announces, unregisters]
              exact ⟨counts.complete moved, placed.complete moved⟩
          | subscriber id =>
              have absent : first.locals (.subscriber id) = .locked →
                  id ∉ first.shared.waiters := fun atPc =>
                placed.absent (by rw [atPc]; nofun)
              refine ⟨counts.subscribe absent moved announces unregisters, ?_⟩
              have placed' := placed.subscribe moved
              have same : (fun other => if Party.subscriber other = .subscriber id then pc'
                  else first.locals (.subscriber other)) =
                  after (fun other => first.locals (.subscriber other)) id pc' := by
                funext other
                simp only [after, Party.subscriber.injEq]
              dsimp only
              rw [same]
              exact placed'

/-- What the completion guarantees in a state. -/
structure Subscriptions (capacity : Nat) (state : Threads Party Completion Pc) : Prop where
  /-- Once `complete` has returned, whoever subscribed is notified, unless the guard was
  dropped while the waiter was in the map. -/
  notified : state.locals .completer = .completed → ∀ id,
    (state.locals (.subscriber id)).settled → id ∈ state.shared.notified
  /-- The guard is dropped so only before `complete` takes the map. -/
  removes : ∀ id, state.locals (.subscriber id) = .subscribed → id ∈ state.shared.waiters →
    state.locals .completer = .idle ∨ state.locals .completer = .take
  once : state.shared.notified.Nodup
  bounded : state.shared.waiters.length ≤ capacity
  /-- The lifecycle word counts everyone who still has to be uncounted. -/
  word : state.shared.lifecycle = (state.locals .completer).bit +
    2 * (state.shared.waiters.length + total Pc.announced state.locals +
      total Pc.unregistering state.locals + (state.locals .completer).uncounted.length)
  /-- No subtraction underflows. -/
  uncounts : ∀ waiters, state.locals .completer = .uncount waiters →
    waiters.length * waiter ≤ state.shared.lifecycle
  takesBack : ∀ id, 0 < (state.locals (.subscriber id)).announced +
    (state.locals (.subscriber id)).unregistering → waiter ≤ state.shared.lifecycle
  /-- A subscriber turned away for capacity leaves no trace. -/
  rejects : ∀ id completion, nextStep (.subscriber id) state.shared
      (state.locals (.subscriber id)) = some (completion, .rejected) →
    completion.waiters = state.shared.waiters ∧ completion.notified = state.shared.notified ∧
      completion.lifecycle + waiter = state.shared.lifecycle
  /-- Exactly `DONE` is left when everyone has returned. -/
  quiet : state.locals .completer = .completed →
    (∀ id, (state.locals (.subscriber id)).announced = 0 ∧
      (state.locals (.subscriber id)).unregistering = 0) → state.shared.lifecycle = done

theorem Counts.takesBack {state : Threads Party Completion Pc}
    (reachable : (program capacity).system.Reachable state) {party : Party}
    (busy : 0 < (state.locals party).announced + (state.locals party).unregistering) :
    waiter ≤ state.shared.lifecycle := by
  obtain ⟨counts, -⟩ := reachable_good reachable
  have started := Program.started reachable
  have announced := le_total Pc.announced rfl started party
  have unregistering := le_total Pc.unregistering rfl started party
  have word := counts.word
  rw [waiter]
  omega

theorem completion_subscriptions {state : Threads Party Completion Pc}
    (reachable : (program capacity).system.Reachable state) : Subscriptions capacity state := by
  obtain ⟨counts, placed⟩ := reachable_good reachable
  refine ⟨?_, ?_, ?_, counts.bounded, counts.word, ?_, ?_, ?_, ?_⟩
  · intro completed id settled
    have member := (placed.lists.mem_iff id).mpr settled
    have emptied := counts.emptied
    rw [completed] at member emptied
    simpa [emptied trivial, Pc.pending] using member
  · intro id _ member
    have emptied := counts.emptied
    cases atPc : state.locals .completer with
    | idle => exact .inl rfl
    | take => exact .inr rfl
    | late | notifying | locked | subscribed | rejected | removed | dropped | uncount | wake
    | completed =>
        rw [atPc] at emptied
        rw [emptied trivial] at member
        cases member
  · exact (List.nodup_append.mp placed.lists.nodup).2.1
  · intro waiters atPc
    have word := counts.word
    rw [atPc] at word
    change _ = _ + 2 * (_ + waiters.length) at word
    rw [waiter]
    omega
  · intro id busy
    exact Counts.takesBack reachable busy
  · intro id completion taken
    cases atPc : state.locals (.subscriber id) with
    | locked =>
        have enough : waiter ≤ state.shared.lifecycle := by
          have busy : 0 < (state.locals (.subscriber id)).announced +
              (state.locals (.subscriber id)).unregistering := by
            rw [atPc]
            exact Nat.zero_lt_one
          exact Counts.takesBack reachable busy
        rw [atPc, nextStep, subscribeStep] at taken
        split at taken
        · cases taken
        · split at taken
          · cases taken
            exact ⟨rfl, rfl, Nat.sub_add_cancel enough⟩
          · cases taken
    | idle | subscribed =>
        rw [atPc] at taken
        simp only [nextStep, subscribeStep, Option.some.injEq, Prod.mk.injEq] at taken
        obtain ⟨-, returned⟩ := taken
        split at returned <;> cases returned
    | late | notifying | rejected | removed | dropped | take | uncount | wake | completed =>
        rw [atPc] at taken
        cases taken
  · intro completed quiet
    have emptied := counts.emptied
    have word := counts.word
    have noneAnnounced : total Pc.announced state.locals = 0 := by
      refine total_eq_zero fun party => ?_
      cases party with
      | completer =>
          rw [completed]
          rfl
      | subscriber id => exact (quiet id).1
    have noneUnregistering : total Pc.unregistering state.locals = 0 := by
      refine total_eq_zero fun party => ?_
      cases party with
      | completer =>
          rw [completed]
          rfl
      | subscriber id => exact (quiet id).2
    rw [completed] at word emptied
    rw [noneAnnounced, noneUnregistering, emptied trivial] at word
    exact word

theorem new_reachable (capacity : Nat) :
    (program capacity).system.Reachable ⟨.new capacity, fun _ => .idle⟩ :=
  .initial ⟨rfl, fun _ => rfl⟩

/-- One waiter subscribes before the completion and one after; both are notified. -/
theorem completion_subscriptions_late : ∃ state, (program 1).system.Reachable state ∧
    state.shared.notified = [7, 3] ∧ Subscriptions 1 state := by
  have runs : ((scheduler 1).run ((List.replicate 2 (.subscriber 7, ())) ++
      List.replicate 4 (.completer, ()) ++ List.replicate 3 (.subscriber 3, ()))
      ⟨.new 1, fun _ => .idle⟩).map (fun state => state.shared.notified) = some [7, 3] := by
    decide
  obtain ⟨state, run, notified⟩ := Option.map_eq_some_iff.mp runs
  have reachable := (scheduler 1).run_reachable (new_reachable 1) run
  exact ⟨state, reachable, notified, completion_subscriptions reachable⟩

/-- A waiter that removed itself is counted until its drop takes it back. -/
theorem removed_counted : ∃ state, (program 1).system.Reachable state ∧
    state.shared.lifecycle = 2 ∧ state.shared.waiters = [] ∧
      total Pc.announced state.locals = 0 ∧ state.locals .completer = .idle := by
  have runs : ((scheduler 1).run (List.replicate 3 (.subscriber 7, ()))
      ⟨.new 1, fun _ => .idle⟩) = some ⟨⟨1, 2, [], []⟩, _⟩ := rfl
  refine ⟨_, (scheduler 1).run_reachable (new_reachable 1) runs, rfl, rfl, ?_, rfl⟩
  refine total_eq_zero fun party => ?_
  by_cases same : party = .subscriber 7
  · subst same
    rfl
  · simp [same]
    rfl

end VThread.Join

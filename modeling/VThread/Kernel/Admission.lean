import VThread.Kernel.Drive
import VThread.Lib.Transition

/-!
# Admission of remote starts

`receive` with its reads of the published depth apart from its locked section, so that
publishers move between them.  A drive keeps the ready queue as long as it likes; the
pressure counter then lets one start in per quota of calls.
-/

namespace VThread.Kernel.Admission

open VThread.Lib VThread.Carrier

/-- Subtraction panics below zero. -/
def difference (left right : Nat) : Checked Nat :=
  if right ≤ left then .ok (left - right) else .error "attempt to subtract with overflow"

/-- The limit that `receive_remote_tasks` gives to `drain_into`, unless it does not call it. -/
def refillLimit (capacity ready pressure : Nat) : Checked (Option Nat) :=
  let target := min remoteReadyTarget capacity
  if ready ≤ target / 2 then do
    let limit ← difference target ready
    pure (some limit)
  else if remoteAdmissionDispatchBound ≤ pressure then pure (some 1)
  else pure none

/-- A call of `receive`: the starts in the inbox when it began, those pushed while it ran, those
it took, and the depth it read last. -/
structure Call where
  found : Nat
  pushed : Nat
  taken : Nat
  left : Nat
  deriving DecidableEq, Repr

/-- A call found starts and took none. -/
def Call.quiet (call : Call) : Bool := 0 < call.found && call.taken == 0

/-- A call found no start and took none, and a push came before it read the depth. -/
def Call.overtaken (call : Call) : Bool :=
  call.found == 0 && call.taken == 0 && 0 < call.left

/-- Where a carrier is in `receive`. -/
inductive Phase where
  /-- Not in `receive`. -/
  | outside
  /-- The local starts have been received. -/
  | entered (found : Nat)
  /-- `drain_into` has read a depth and waits for the lock. -/
  | locking (found limit : Nat)
  /-- The loop over the drained batch. -/
  | starting (found taken : Nat) (incoming : List SpawnPacket)
  deriving DecidableEq

/-- The starts the loop has still to insert. -/
def Phase.incoming : Phase → List SpawnPacket
  | .starting _ _ incoming => incoming
  | _ => []

/-- The starts the running call found. -/
def Phase.found? : Phase → Option Nat
  | .outside => none
  | .entered found | .locking found _ | .starting found _ _ => some found

/-- The starts the running call has taken. -/
def Phase.taken : Phase → Nat
  | .starting _ taken _ => taken
  | _ => 0

/-- What became of the starts, the earliest first.  No step reads it. -/
structure History where
  accepted : List SpawnPacket
  admitted : List SpawnPacket
  discarded : List SpawnPacket
  /-- Starts accepted since the latest call began. -/
  pushed : Nat
  deriving DecidableEq

/-- The part of a carrier that `receive` decides by, with the calls it has returned from, the
latest first. -/
structure Receiver where
  inbox : Inbox
  ready : Nat
  admissionPressure : Nat
  remotePending : Bool
  phase : Phase
  calls : List Call
  history : History
  deriving DecidableEq

inductive Choice where
  | push (packet : SpawnPacket)
  | stop
  /-- An abort discards a queued start. -/
  | popScope (scope : Option Nat)
  /-- Dispatches, wakes and aborts leave the ready queue with some length. -/
  | drive (ready : Nat)
  | observeIdleWork
  /-- `receive` counts the call and receives some local starts. -/
  | enter (locals : Nat)
  | check
  | drain
  /-- A drained start gets a stack or is discarded. -/
  | start (granted : Bool)
  | finish
  deriving DecidableEq

/-- The next atomic step. -/
def step (choice : Choice) (state : Receiver) : Option Receiver :=
  match choice, state.phase with
  | .push packet, _ =>
      (state.inbox.push packet).map fun pushed =>
        { state with
          inbox := pushed.1
          history.accepted := state.history.accepted ++ [packet]
          history.pushed := state.history.pushed + 1 }
  | .stop, _ => some { state with inbox := state.inbox.stop }
  | .popScope scope, .outside =>
      let found := state.inbox.state.starts.find? fun packet => scope.all (packet.scope == ·)
      some { state with
        inbox := state.inbox.popScope scope
        history.discarded := state.history.discarded ++ found.toList }
  | .drive ready, .outside => some { state with ready }
  | .observeIdleWork, .outside =>
      some { state with
        remotePending := state.remotePending || state.inbox.pendingStarts != 0 }
  | .enter locals, .outside =>
      -- A release build wraps the counter.
      some { state with
        admissionPressure := (state.admissionPressure + state.remotePending.toNat) % 2 ^ 32
        ready := state.ready + locals
        phase := .entered state.inbox.state.starts.length
        history.pushed := 0 }
  | .check, .entered found =>
      match refillLimit state.inbox.capacity state.ready state.admissionPressure with
      | .error _ => none
      | .ok none => some { state with phase := .starting found 0 [] }
      | .ok (some limit) =>
          if limit = 0 ∨ state.inbox.pendingStarts = 0 then
            some { state with phase := .starting found 0 [] }
          else some { state with phase := .locking found limit }
  | .drain, .locking found limit =>
      let drained := state.inbox.state.starts.take limit
      some { state with
        inbox := state.inbox.drainInto limit
        admissionPressure := if drained.length ≠ 0 then 0 else state.admissionPressure
        phase := .starting found drained.length drained
        history.admitted := state.history.admitted ++ drained }
  | .start granted, .starting found taken (_ :: incoming) =>
      some { state with
        ready := state.ready + granted.toNat
        phase := .starting found taken incoming }
  | .finish, .starting found taken [] =>
      some { state with
        remotePending := state.inbox.pendingStarts != 0
        admissionPressure := if state.inbox.pendingStarts != 0 then state.admissionPressure else 0
        phase := .outside
        calls := ⟨found, state.history.pushed, taken, state.inbox.pendingStarts⟩ :: state.calls }
  | _, _ => none

/-- A carrier before its first drive. -/
def Receiver.new (capacity : Nat) : Receiver :=
  ⟨.new capacity, 0, 0, false, .outside, [], ⟨[], [], [], 0⟩⟩

/-- The runs of a carrier whose queue has some capacity. -/
def machine (capacity : Nat) : Machine Receiver Choice where
  initial := (· = .new capacity)
  next := step

/-! ## The refill limit -/

/-- The limit of the drive is the one of the source. -/
theorem refillLimit_world (world : World) :
    refillLimit world.config.carrierQueueCapacity world.ready.len world.admissionPressure =
      .ok world.refillLimit := by
  unfold refillLimit World.refillLimit
  by_cases window : world.ready.len ≤ min remoteReadyTarget world.config.carrierQueueCapacity / 2
  · have below : world.ready.len ≤ min remoteReadyTarget world.config.carrierQueueCapacity :=
      window.trans (Nat.div_le_self _ _)
    simp [window, difference, below]
  · simp only [window, if_false]
    split <;> rfl

/-- The limit is computed without underflow, is positive and within the target. -/
theorem refillLimit_spec {capacity : Nat} (positive : 0 < capacity) (ready pressure : Nat) :
    ∃ limit, refillLimit capacity ready pressure = .ok limit ∧
      (∀ count, limit = some count → 0 < count ∧ count ≤ min remoteReadyTarget capacity) ∧
      (limit = none → pressure < remoteAdmissionDispatchBound) := by
  have target : 0 < min remoteReadyTarget capacity := by
    simp [remoteReadyTarget, positive]
  unfold refillLimit
  by_cases window : ready ≤ min remoteReadyTarget capacity / 2
  · have below : ready ≤ min remoteReadyTarget capacity := window.trans (Nat.div_le_self _ _)
    refine ⟨some (min remoteReadyTarget capacity - ready), by simp [window, difference, below],
      ?_, by simp⟩
    rintro count ⟨⟩
    omega
  · by_cases due : remoteAdmissionDispatchBound ≤ pressure
    · refine ⟨some 1, by simp [window, due]; rfl, ?_, by simp⟩
      rintro count ⟨⟩
      exact ⟨Nat.one_pos, target⟩
    · exact ⟨none, by simp [window, due]; rfl, by simp, fun _ => Nat.lt_of_not_le due⟩

/-! ## The invariant -/

/-- The latest calls in a row that found starts and took none. -/
def idle (calls : List Call) : Nat := (calls.takeWhile Call.quiet).length

/-- The latest calls in a row that were overtaken by a push. -/
def late (calls : List Call) : Nat := (calls.takeWhile Call.overtaken).length

theorem idle_cons (call : Call) (calls : List Call) :
    idle (call :: calls) = if call.quiet then idle calls + 1 else 0 := by
  unfold idle
  rw [List.takeWhile_cons]
  split <;> rfl

theorem quiet_of_idle {call : Call} {calls : List Call} (positive : 0 < idle (call :: calls)) :
    call.taken = 0 ∧ 0 < call.found ∧ idle (call :: calls) = idle calls + 1 := by
  rw [idle_cons] at positive ⊢
  split at positive
  · rename_i silent
    rw [if_pos silent]
    simp only [Call.quiet, Bool.and_eq_true, decide_eq_true_eq, beq_iff_eq] at silent
    exact ⟨silent.2, silent.1, rfl⟩
  · exact absurd positive (Nat.lt_irrefl 0)

theorem late_cons (call : Call) (calls : List Call) :
    late (call :: calls) = if call.overtaken then late calls + 1 else 0 := by
  unfold late
  rw [List.takeWhile_cons]
  split <;> rfl

/-- What holds of the counter in each phase of a call. -/
def Counted (capacity : Nat) (state : Receiver) : Prop :=
  match state.phase with
  | .outside =>
      (0 < idle state.calls → state.remotePending = true ∧
        idle state.calls ≤ state.admissionPressure + 1 ∧
          state.admissionPressure < remoteAdmissionDispatchBound) ∧
      state.admissionPressure < remoteAdmissionDispatchBound + late state.calls ∧
      ∀ call ∈ state.calls.head?, 0 < call.taken ∨ call.left = 0 → state.admissionPressure = 0
  | .entered found =>
      idle state.calls ≤ state.admissionPressure ∧
      state.admissionPressure ≤ remoteAdmissionDispatchBound + late state.calls ∧
      (0 < found → 0 < state.inbox.state.starts.length)
  | .locking _ limit =>
      state.admissionPressure ≤ remoteAdmissionDispatchBound + late state.calls ∧
      0 < limit ∧ limit ≤ min remoteReadyTarget capacity ∧ 0 < state.inbox.state.starts.length
  | .starting found taken _ =>
      state.admissionPressure ≤ remoteAdmissionDispatchBound + late state.calls ∧
      taken ≤ min remoteReadyTarget capacity ∧ (0 < taken → state.admissionPressure = 0) ∧
      (taken = 0 → 0 < found → idle state.calls ≤ state.admissionPressure ∧
        state.admissionPressure < remoteAdmissionDispatchBound ∧
          0 < state.inbox.state.starts.length)

/-- The invariant of a carrier. -/
structure Regular (capacity : Nat) (state : Receiver) : Prop where
  capacity_eq : state.inbox.capacity = capacity
  depth : state.inbox.pendingStarts = state.inbox.state.starts.length
  within : ∀ call ∈ state.calls, call.taken ≤ min remoteReadyTarget capacity
  bounded : ∀ older, older <:+ state.calls → idle older ≤ remoteAdmissionDispatchBound
  counted : Counted capacity state

namespace Regular

variable {capacity : Nat} {state state' : Receiver}

theorem new (capacity : Nat) : Regular capacity (.new capacity) where
  capacity_eq := rfl
  depth := rfl
  within := by simp [Receiver.new]
  bounded older suffixed := by
    rw [List.suffix_nil.mp suffixed]
    exact Nat.zero_le _
  counted := by simp [Counted, Receiver.new, idle, late, remoteAdmissionDispatchBound]

/-- A push keeps what the owner knows of the queue: it only grows. -/
theorem push (regular : Regular capacity state) {inbox : Inbox} {history : History}
    (same : inbox.capacity = state.inbox.capacity)
    (depth : inbox.pendingStarts = inbox.state.starts.length)
    (grown : state.inbox.state.starts.length ≤ inbox.state.starts.length) :
    Regular capacity { state with inbox, history } where
  capacity_eq := same.trans regular.capacity_eq
  depth := depth
  within := regular.within
  bounded := regular.bounded
  counted := by
    have counted := regular.counted
    unfold Counted at counted ⊢
    dsimp only
    split at counted
    case h_1 phase => simpa only [phase] using counted
    case h_2 found phase =>
        exact ⟨counted.1, counted.2.1, fun positive => (counted.2.2 positive).trans_le grown⟩
    case h_3 found limit phase =>
        exact ⟨counted.1, counted.2.1, counted.2.2.1, counted.2.2.2.trans_le grown⟩
    case h_4 found taken incoming phase =>
        refine ⟨counted.1, counted.2.1, counted.2.2.1, fun none positive => ?_⟩
        obtain ⟨counts, below, queued⟩ := counted.2.2.2 none positive
        exact ⟨counts, below, queued.trans_le grown⟩

/-- Outside of `receive` the counter and the calls stay as they are. -/
theorem stay (regular : Regular capacity state) (outside : state.phase = .outside)
    (same : state'.inbox.capacity = state.inbox.capacity)
    (depth : state'.inbox.pendingStarts = state'.inbox.state.starts.length)
    (pressure : state'.admissionPressure = state.admissionPressure)
    (flag : state.remotePending = true → state'.remotePending = true)
    (phase : state'.phase = .outside) (calls : state'.calls = state.calls) :
    Regular capacity state' where
  capacity_eq := same.trans regular.capacity_eq
  depth := depth
  within := calls ▸ regular.within
  bounded := calls ▸ regular.bounded
  counted := by
    have counted := regular.counted
    simp only [Counted, outside] at counted
    simp only [Counted, phase, calls, pressure]
    exact ⟨fun positive => ⟨flag (counted.1 positive).1, (counted.1 positive).2⟩, counted.2⟩

/-- `receive` begins. -/
theorem enter (regular : Regular capacity state) (outside : state.phase = .outside)
    (locals : Nat) (history : History) :
    Regular capacity { state with
      admissionPressure := (state.admissionPressure + state.remotePending.toNat) % 2 ^ 32
      ready := state.ready + locals
      phase := .entered state.inbox.state.starts.length
      history } where
  capacity_eq := regular.capacity_eq
  depth := regular.depth
  within := regular.within
  bounded := regular.bounded
  counted := by
    have counted := regular.counted
    simp only [Counted, outside] at counted
    obtain ⟨idles, bound, -⟩ := counted
    simp only [Counted]
    have flag : state.remotePending.toNat ≤ 1 := Bool.toNat_le _
    have wrapped := Nat.mod_le (state.admissionPressure + state.remotePending.toNat) (2 ^ 32)
    refine ⟨?_, by omega, id⟩
    rcases Nat.eq_zero_or_pos (idle state.calls) with none | some
    · rw [none]
      exact Nat.zero_le _
    · -- A counter below the bound does not wrap.
      obtain ⟨set, counts, below⟩ := idles some
      unfold remoteAdmissionDispatchBound at below
      rw [set, Bool.toNat_true, Nat.mod_eq_of_lt (by omega)]
      exact counts

/-- `drain_into` is not called, or it reads no start. -/
theorem pass (regular : Regular capacity state) {found : Nat}
    (entered : state.phase = .entered found)
    (reason : state.admissionPressure < remoteAdmissionDispatchBound ∨
      state.inbox.pendingStarts = 0) :
    Regular capacity { state with phase := .starting found 0 [] } where
  capacity_eq := regular.capacity_eq
  depth := regular.depth
  within := regular.within
  bounded := regular.bounded
  counted := by
    have counted := regular.counted
    simp only [Counted, entered] at counted
    obtain ⟨counts, bound, queued⟩ := counted
    refine ⟨bound, Nat.zero_le _, fun taken => absurd taken (Nat.lt_irrefl 0),
      fun _ positive => ⟨counts, ?_, queued positive⟩⟩
    rcases reason with below | empty
    · exact below
    · have queued := queued positive
      rw [← regular.depth, empty] at queued
      exact absurd queued (Nat.lt_irrefl 0)

/-- `drain_into` reads a depth. -/
theorem lock (regular : Regular capacity state) {found limit : Nat}
    (entered : state.phase = .entered found) (positive : 0 < limit)
    (target : limit ≤ min remoteReadyTarget capacity) (queued : state.inbox.pendingStarts ≠ 0) :
    Regular capacity { state with phase := .locking found limit } where
  capacity_eq := regular.capacity_eq
  depth := regular.depth
  within := regular.within
  bounded := regular.bounded
  counted := by
    have counted := regular.counted
    simp only [Counted, entered] at counted
    exact ⟨counted.2.1, positive, target, regular.depth ▸ Nat.pos_of_ne_zero queued⟩

/-- The locked section of `drain_into` takes a start. -/
theorem drain (regular : Regular capacity state) {found limit : Nat}
    (locking : state.phase = .locking found limit) (history : History) :
    Regular capacity { state with
      inbox := state.inbox.drainInto limit
      admissionPressure :=
        if (state.inbox.state.starts.take limit).length ≠ 0 then 0 else state.admissionPressure
      phase := .starting found (state.inbox.state.starts.take limit).length
        (state.inbox.state.starts.take limit)
      history } where
  capacity_eq := regular.capacity_eq
  depth := rfl
  within := regular.within
  bounded := regular.bounded
  counted := by
    have counted := regular.counted
    simp only [Counted, locking] at counted
    obtain ⟨-, positive, target, queued⟩ := counted
    have length : (state.inbox.state.starts.take limit).length =
        min limit state.inbox.state.starts.length := List.length_take
    have taken : (state.inbox.state.starts.take limit).length ≠ 0 := by omega
    simp only [Counted, ne_eq, taken, not_false_iff, if_true]
    exact ⟨Nat.zero_le _, by omega, fun _ => trivial, fun none => none.elim⟩

/-- A drained start is inserted or discarded. -/
theorem start (regular : Regular capacity state) {found taken : Nat} {packet : SpawnPacket}
    {incoming : List SpawnPacket}
    (starting : state.phase = .starting found taken (packet :: incoming))
    (ready : Nat) :
    Regular capacity { state with ready, phase := .starting found taken incoming } where
  capacity_eq := regular.capacity_eq
  depth := regular.depth
  within := regular.within
  bounded := regular.bounded
  counted := by
    have counted := regular.counted
    simp only [Counted, starting] at counted
    exact counted

/-- `receive` returns. -/
theorem finish (regular : Regular capacity state) {found taken : Nat} {incoming : List SpawnPacket}
    (starting : state.phase = .starting found taken incoming) :
    Regular capacity { state with
      remotePending := state.inbox.pendingStarts != 0
      admissionPressure := if state.inbox.pendingStarts != 0 then state.admissionPressure else 0
      phase := .outside
      calls :=
        ⟨found, state.history.pushed, taken, state.inbox.pendingStarts⟩ :: state.calls } := by
  have counted := regular.counted
  simp only [Counted, starting] at counted
  obtain ⟨bound, target, reset, quiet⟩ := counted
  have depth := regular.depth
  refine ⟨regular.capacity_eq, depth, ?_, ?_, ?_, ?_, ?_⟩
  · intro call member
    rcases List.mem_cons.mp member with rfl | member
    · exact target
    · exact regular.within call member
  · intro older suffixed
    rcases List.suffix_cons_iff.mp suffixed with rfl | suffixed
    · -- A quiet call was made with the counter below the bound.
      by_contra above
      obtain ⟨none, positive, counts⟩ :=
        quiet_of_idle (Nat.zero_lt_of_lt (Nat.lt_of_not_le above))
      obtain ⟨below, bounded, -⟩ := quiet none positive
      omega
    · exact regular.bounded older suffixed
  · intro some
    obtain ⟨none, positive, counts⟩ := quiet_of_idle some
    obtain ⟨below, bounded, queued⟩ := quiet none positive
    have left : (state.inbox.pendingStarts != 0) = true := by
      rw [bne_iff_ne, depth]
      exact queued.ne'
    simp only [left, if_true, counts]
    exact ⟨trivial, Nat.succ_le_succ below, bounded⟩
  · dsimp only
    split
    · rename_i left
      rw [late_cons]
      rcases Nat.eq_zero_or_pos taken with none | some
      · rcases Nat.eq_zero_or_pos found with missing | positive
        · have waiting := Nat.pos_of_ne_zero (bne_iff_ne.mp left)
          rw [if_pos (by simpa [Call.overtaken, missing, none] using waiting)]
          omega
        · exact (quiet none positive).2.1.trans_le (Nat.le_add_right _ _)
      · rw [reset some]
        exact Nat.add_pos_left (by decide) _
    · exact Nat.add_pos_left (by decide) _
  · rintro call ⟨⟩ reason
    dsimp only at reason ⊢
    rcases reason with some | none
    · rw [reset some, ite_self]
    · simp [none]

/-- Every step keeps the invariant. -/
theorem step (positive : 0 < capacity) (regular : Regular capacity state) {choice : Choice}
    (taken : Admission.step choice state = some state') : Regular capacity state' := by
  unfold Admission.step at taken
  split at taken
  case h_1 =>
    obtain ⟨pushed, accepted, rfl⟩ := Option.map_eq_some_iff.mp taken
    unfold Inbox.push at accepted
    split at accepted
    · cases accepted
    · cases accepted
      exact regular.push rfl rfl (by simp [Inbox.setStarts])
  case h_2 phase =>
    cases taken
    exact regular.push rfl regular.depth le_rfl
  case h_3 scope outside =>
    cases taken
    unfold Inbox.popScope
    split
    · exact regular.stay outside rfl regular.depth rfl id outside rfl
    · exact regular.stay outside rfl rfl rfl id outside rfl
  case h_4 ready outside =>
    cases taken
    exact regular.stay outside rfl regular.depth rfl id outside rfl
  case h_5 outside =>
    cases taken
    exact regular.stay outside rfl regular.depth rfl (fun set => by simp [set]) outside rfl
  case h_6 locals outside =>
    cases taken
    exact regular.enter outside locals _
  case h_7 found entered =>
    obtain ⟨limit, computed, within, refused⟩ :=
      refillLimit_spec positive state.ready state.admissionPressure
    rw [regular.capacity_eq, computed] at taken
    cases limit with
    | none =>
        cases taken
        exact regular.pass entered (.inl (refused rfl))
    | some limit =>
        obtain ⟨some, target⟩ := within limit rfl
        dsimp only at taken
        split at taken
        · rename_i empty
          cases taken
          exact regular.pass entered (.inr (empty.resolve_left some.ne'))
        · rename_i queued
          cases taken
          exact regular.lock entered some target fun empty => queued (.inr empty)
  case h_8 found limit locking =>
    cases taken
    exact regular.drain locking _
  case h_9 granted found taken' packet incoming starting =>
    cases taken
    exact regular.start starting _
  case h_10 found taken' starting =>
    cases taken
    exact regular.finish starting
  case h_11 => cases taken

/-- The invariant holds in every reachable state. -/
theorem reachable (positive : 0 < capacity)
    (reachable : (machine capacity).system.Reachable state) : Regular capacity state := by
  apply reachable.induct
  · rintro _ rfl
    exact .new capacity
  · rintro before after - regular ⟨choice, taken⟩
    exact regular.step positive taken

end Regular

/-! ## Conservation -/

/-- An abort removes the first start of its scope, if there is one. -/
theorem popScope_spec (inbox : Inbox) (scope : Option Nat) :
    (inbox.state.starts.find? (fun packet => scope.all (packet.scope == ·)) = none ∧
      inbox.popScope scope = inbox) ∨
    ∃ before packet after, inbox.state.starts = before ++ packet :: after ∧
      inbox.state.starts.find? (fun packet => scope.all (packet.scope == ·)) = some packet ∧
      (inbox.popScope scope).state.starts = before ++ after := by
  cases found : inbox.state.starts.find? (fun packet => scope.all (packet.scope == ·)) with
  | none =>
      have missing := List.findIdx?_eq_none_iff.mpr fun packet member =>
        Bool.eq_false_of_not_eq_true (List.find?_eq_none.mp found packet member)
      exact .inl ⟨rfl, by rw [Inbox.popScope, missing]⟩
  | some packet =>
      obtain ⟨matched, before, after, same, rejected⟩ := List.find?_eq_some_iff_append.mp found
      have missing : before.findIdx? (fun packet => scope.all (packet.scope == ·)) = none :=
        List.findIdx?_eq_none_iff.mpr fun packet member => by simpa using rejected packet member
      have index : inbox.state.starts.findIdx? (fun packet => scope.all (packet.scope == ·)) =
          some before.length := by
        rw [same, List.findIdx?_append, missing, List.findIdx?_cons, if_pos matched]
        simp
      refine .inr ⟨before, packet, after, same, rfl, ?_⟩
      rw [Inbox.popScope, index]
      simp [Inbox.setStarts, same, List.eraseIdx_append_of_length_le]

/-- Where the accepted starts are, and what the calls account for. -/
structure Accounts (state : Receiver) : Prop where
  kept : state.history.accepted.Perm
    (state.history.admitted ++ state.history.discarded ++ state.inbox.state.starts)
  ordered : (state.history.admitted ++ state.inbox.state.starts).Sublist state.history.accepted
  counted : state.history.admitted.length = state.phase.taken + (state.calls.map Call.taken).sum
  incoming : state.phase.incoming <:+ state.history.admitted
  balanced : ∀ call ∈ state.calls, call.found + call.pushed = call.taken + call.left
  running : ∀ found ∈ state.phase.found?,
    found + state.history.pushed = state.phase.taken + state.inbox.state.starts.length

namespace Accounts

variable {state state' : Receiver}

theorem new (capacity : Nat) : Accounts (.new capacity) where
  kept := .refl _
  ordered := .refl _
  counted := rfl
  incoming := List.suffix_rfl
  balanced := by simp [Receiver.new]
  running := by simp [Receiver.new, Phase.found?]

theorem push (accounts : Accounts state) (packet : SpawnPacket) {inbox : Inbox}
    (starts : inbox.state.starts = state.inbox.state.starts ++ [packet]) :
    Accounts { state with
      inbox
      history.accepted := state.history.accepted ++ [packet]
      history.pushed := state.history.pushed + 1 } where
  kept := by
    dsimp only
    rw [starts, ← List.append_assoc]
    exact accounts.kept.append_right _
  ordered := by
    dsimp only
    rw [starts, ← List.append_assoc]
    exact accounts.ordered.append_right _
  counted := accounts.counted
  incoming := accounts.incoming
  balanced := accounts.balanced
  running found member := by
    have running := accounts.running found member
    simp only [starts, List.length_append, List.length_singleton]
    omega

/-- Outside of `receive` an abort discards the start it removes. -/
theorem popScope (accounts : Accounts state) (outside : state.phase = .outside)
    (scope : Option Nat) :
    Accounts { state with
      inbox := state.inbox.popScope scope
      history.discarded := state.history.discarded ++ (state.inbox.state.starts.find?
        fun packet => scope.all (packet.scope == ·)).toList } := by
  rcases popScope_spec state.inbox scope with
    ⟨none, same⟩ | ⟨before, packet, after, starts, found, left⟩
  · rw [none, same, Option.toList_none, List.append_nil]
    exact accounts
  · have kept := accounts.kept
    have ordered := accounts.ordered
    rw [starts] at kept ordered
    refine ⟨?_, ?_, accounts.counted, accounts.incoming, accounts.balanced, ?_⟩
    · dsimp only
      rw [found, left, Option.toList_some]
      refine kept.trans ?_
      simp only [List.append_assoc, List.singleton_append]
      exact .append_left _ (.append_left _ List.perm_middle)
    · dsimp only
      rw [left]
      exact .trans (.append_left (.append_left (List.sublist_cons_self ..) _) _) ordered
    · simp [outside, Phase.found?]

/-- The locked section of `drain_into` moves the oldest starts. -/
theorem drain (accounts : Accounts state) {found limit : Nat}
    (locking : state.phase = .locking found limit) (pressure : Nat) :
    Accounts { state with
      inbox := state.inbox.drainInto limit
      admissionPressure := pressure
      phase := .starting found (state.inbox.state.starts.take limit).length
        (state.inbox.state.starts.take limit)
      history.admitted := state.history.admitted ++ state.inbox.state.starts.take limit } := by
  have left : (state.inbox.drainInto limit).state.starts = state.inbox.state.starts.drop limit := by
    simp only [Inbox.drainInto, Inbox.setStarts, Nat.min_comm _ limit, ← List.drop_eq_drop_min]
  have counted := accounts.counted
  have running := accounts.running
  rw [locking] at counted running
  refine ⟨?_, ?_, ?_, List.suffix_append .., accounts.balanced, ?_⟩
  · dsimp only
    rw [left]
    refine accounts.kept.trans ?_
    nth_rewrite 1 [← List.take_append_drop limit state.inbox.state.starts]
    simp only [← List.append_assoc]
    refine .append_right _ ?_
    simp only [List.append_assoc]
    exact .append_left _ List.perm_append_comm
  · dsimp only
    rw [left, List.append_assoc, List.take_append_drop]
    exact accounts.ordered
  · dsimp only [Phase.taken] at counted ⊢
    rw [List.length_append]
    omega
  · rintro _ ⟨⟩
    have running := running found rfl
    dsimp only [Phase.taken] at running ⊢
    rw [left, List.length_take, List.length_drop]
    omega

/-- Steps that move no start. -/
theorem frame (accounts : Accounts state) (history : state'.history = state.history)
    (starts : state'.inbox.state.starts = state.inbox.state.starts)
    (calls : state'.calls = state.calls) (taken : state'.phase.taken = state.phase.taken)
    (incoming : state'.phase.incoming <:+ state.phase.incoming)
    (found : ∀ found ∈ state'.phase.found?, found ∈ state.phase.found?) : Accounts state' where
  kept := by
    rw [history, starts]
    exact accounts.kept
  ordered := by
    rw [history, starts]
    exact accounts.ordered
  counted := by
    rw [history, taken, calls]
    exact accounts.counted
  incoming := by
    rw [history]
    exact incoming.trans accounts.incoming
  balanced := by
    rw [calls]
    exact accounts.balanced
  running count member := by
    rw [history, taken, starts]
    exact accounts.running count (found count member)

/-- Every step keeps the accounts. -/
theorem step (depth : state.inbox.pendingStarts = state.inbox.state.starts.length)
    (accounts : Accounts state) {choice : Choice}
    (taken : Admission.step choice state = some state') : Accounts state' := by
  unfold Admission.step at taken
  split at taken
  case h_1 packet =>
    obtain ⟨pushed, accepted, rfl⟩ := Option.map_eq_some_iff.mp taken
    unfold Inbox.push at accepted
    split at accepted
    · cases accepted
    · cases accepted
      exact accounts.push packet rfl
  case h_2 phase =>
    cases taken
    exact accounts.frame rfl rfl rfl rfl List.suffix_rfl fun _ => id
  case h_3 scope outside =>
    cases taken
    exact accounts.popScope outside scope
  case h_4 ready outside =>
    cases taken
    exact accounts.frame rfl rfl rfl rfl List.suffix_rfl fun _ => id
  case h_5 outside =>
    cases taken
    exact accounts.frame rfl rfl rfl rfl List.suffix_rfl fun _ => id
  case h_6 locals outside =>
    cases taken
    have counted := accounts.counted
    rw [outside] at counted
    refine ⟨accounts.kept, accounts.ordered, counted, List.nil_suffix, accounts.balanced, ?_⟩
    rintro _ ⟨⟩
    exact Nat.add_comm _ _
  case h_7 found entered =>
    split at taken
    · cases taken
    · cases taken
      exact accounts.frame rfl rfl rfl (by rw [entered]; rfl) List.nil_suffix
        (by rw [entered]; exact fun _ => id)
    · split at taken <;> cases taken <;>
        exact accounts.frame rfl rfl rfl (by rw [entered]; rfl) List.nil_suffix
          (by rw [entered]; exact fun _ => id)
  case h_8 found limit locking =>
    cases taken
    exact accounts.drain locking _
  case h_9 granted found taken' packet incoming starting =>
    cases taken
    refine accounts.frame rfl rfl rfl ?_ ?_ ?_ <;> rw [starting]
    · rfl
    · exact List.suffix_cons ..
    · exact fun _ => id
  case h_10 found taken' starting =>
    cases taken
    have counted := accounts.counted
    have running := accounts.running
    rw [starting] at counted running
    refine ⟨accounts.kept, accounts.ordered, ?_, List.nil_suffix, ?_, by simp [Phase.found?]⟩
    · simpa [Phase.taken] using counted
    · intro call member
      rcases List.mem_cons.mp member with rfl | member
      · rw [depth]
        exact running found rfl
      · exact accounts.balanced call member
  case h_11 => cases taken

/-- The accounts are right in every reachable state. -/
theorem reachable {capacity : Nat} (positive : 0 < capacity)
    (reachable : (machine capacity).system.Reachable state) : Accounts state := by
  apply reachable.induct
  · rintro _ rfl
    exact .new capacity
  · rintro before after reachable accounts ⟨choice, taken⟩
    exact accounts.step (Regular.reachable positive reachable).depth taken

end Accounts

/-! ## Bounded admission -/

/-- Calls that all found starts and took none are no more than the bound. -/
theorem idle_infix {calls newer window older : List Call} (split : calls = newer ++ window ++ older)
    (bounded : ∀ older, older <:+ calls → idle older ≤ remoteAdmissionDispatchBound)
    (quiet : ∀ call ∈ window, call.quiet = true) :
    window.length ≤ remoteAdmissionDispatchBound := by
  have suffixed : window ++ older <:+ calls := ⟨newer, by rw [split, List.append_assoc]⟩
  have counts := bounded _ suffixed
  unfold idle at counts
  rw [List.takeWhile_append_of_pos quiet, List.length_append] at counts
  exact (Nat.le_add_right _ _).trans counts

/-- What a carrier promises its remote starts. -/
structure Admits (capacity : Nat) (state : Receiver) : Prop where
  /-- Enough calls in a row that find starts take one. -/
  served : ∀ newer window older, state.calls = newer ++ window ++ older →
    window.length = remoteAdmissionDispatchBound + 1 → (∀ call ∈ window, 0 < call.found) →
      ∃ call ∈ window, 0 < call.taken
  within : ∀ call ∈ state.calls, call.taken ≤ min remoteReadyTarget capacity
  /-- The counter passes the bound only by the calls in a row that found no start and were
  overtaken by a push. -/
  bounded : state.admissionPressure ≤ remoteAdmissionDispatchBound + late state.calls
  reset : state.phase = .outside → ∀ call ∈ state.calls.head?,
    0 < call.taken ∨ call.left = 0 → state.admissionPressure = 0
  /-- Each start is admitted or discarded once, or queued, and is admitted in its turn. -/
  accounts : Accounts state

theorem late_eq_zero {calls : List Call} (found : ∀ call ∈ calls, 0 < call.found) :
    late calls = 0 := by
  cases calls with
  | nil => rfl
  | cons call calls =>
      rw [late_cons, if_neg]
      have positive := (found call List.mem_cons_self).ne'
      simp [Call.overtaken, positive]

/-- Remote starts are admitted in their turn and within a bounded number of calls, however long
the ready queue is, by a counter that stays within its bound when every call finds starts. -/
theorem remote_admission_bounded {capacity : Nat} (positive : 0 < capacity) {state : Receiver}
    (reachable : (machine capacity).system.Reachable state) :
    Admits capacity state ∧
      ((∀ call ∈ state.calls, 0 < call.found) →
        state.admissionPressure ≤ remoteAdmissionDispatchBound) ∧
      ∀ ready pressure, ∃ limit, refillLimit capacity ready pressure = .ok limit ∧
        ∀ count ∈ limit, count ≤ min remoteReadyTarget capacity := by
  have regular := Regular.reachable positive reachable
  have counted := regular.counted
  have bounded : state.admissionPressure ≤ remoteAdmissionDispatchBound + late state.calls := by
    unfold Counted at counted
    split at counted
    case h_1 => exact counted.2.1.le
    case h_2 => exact counted.2.1
    case h_3 => exact counted.1
    case h_4 => exact counted.1
  refine ⟨⟨?_, regular.within, bounded, ?_, .reachable positive reachable⟩, ?_, ?_⟩
  · intro newer window older split length found
    by_contra none
    have quiet : ∀ call ∈ window, call.quiet = true := by
      intro call member
      have taken : call.taken = 0 :=
        Nat.eq_zero_of_not_pos fun taken => none ⟨call, member, taken⟩
      simp [Call.quiet, found call member, taken]
    have few := idle_infix split regular.bounded quiet
    omega
  · intro outside
    simp only [Counted, outside] at counted
    exact counted.2.2
  · intro found
    rw [late_eq_zero found] at bounded
    exact bounded
  · intro ready pressure
    obtain ⟨limit, computed, within, -⟩ := refillLimit_spec positive ready pressure
    exact ⟨limit, computed, fun count member => (within count member).2⟩

/-- One call takes a start and leaves one, the next finds the window full, and an abort discards
the start that was left. -/
def admittedOne : Receiver where
  inbox := (Inbox.new 2).setStarts [⟨2, 1⟩]
  ready := 2
  admissionPressure := 1
  remotePending := true
  phase := .outside
  calls := [⟨2, 0, 0, 2⟩, ⟨2, 1, 1, 2⟩]
  history := ⟨[⟨0, 0⟩, ⟨1, 1⟩, ⟨2, 1⟩], [⟨0, 0⟩], [⟨1, 1⟩], 0⟩

theorem remote_admission_bounded_one :
    (machine 2).system.Reachable admittedOne ∧ Admits 2 admittedOne := by
  have reached : ((machine 2).guarded fun _ _ => true = true).Reachable admittedOne :=
    @Machine.run_reachable _ _ _ (fun _ _ => true)
      [.push ⟨0, 0⟩, .push ⟨1, 1⟩, .drive 1, .enter 0, .check, .drain, .push ⟨2, 1⟩, .start true,
        .finish, .enter 0, .check, .finish, .popScope (some 1)]
      _ _ (.initial rfl) (by decide)
  have reachable := Machine.guarded_reachable reached
  exact ⟨reachable, (remote_admission_bounded Nat.two_pos reachable).1⟩

end VThread.Kernel.Admission

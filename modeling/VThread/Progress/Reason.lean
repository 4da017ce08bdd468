import VThread.Lib.Checked

/-!
# Suspension reasons

The reasons for which a task returns to its carrier, and their compact encoding as a code
and a task word.
-/

namespace VThread.Progress

/-- `TaskId`. -/
structure TaskId where
  get : Nat
  nonzero : get ≠ 0
  deriving DecidableEq

/-- `TaskId::new`. -/
def TaskId.new (value : Nat) : Checked TaskId :=
  if nonzero : value ≠ 0 then .ok ⟨value, nonzero⟩
  else .error "task identity zero is reserved"

theorem TaskId.new_of_ne {value : Nat} (nonzero : value ≠ 0) :
    TaskId.new value = .ok ⟨value, nonzero⟩ :=
  dif_pos nonzero

inductive SuspensionReason where
  | yieldNow
  | join (task : TaskId)
  | scopeDrain
  | park
  | mutex
  | condvar
  | semaphore
  | notify
  | channelSend
  | channelRecv
  | ioRead
  | ioWrite
  | ioAccept
  | ioConnect
  | blocking
  | dns
  | fileIo
  deriving DecidableEq

inductive WakeReason where
  | ready
  | timedOut
  | cancelled
  | closed
  deriving DecidableEq

def recordCode : Nat := 0

def readyCode : Nat := 1

/-- The code of `Join`, the only one with a task word. -/
def joinCode : Nat := 3

def encodeReason : SuspensionReason → Nat × Nat
  | .yieldNow => (2, 0)
  | .join task => (joinCode, task.get)
  | .scopeDrain => (4, 0)
  | .park => (5, 0)
  | .mutex => (6, 0)
  | .condvar => (7, 0)
  | .semaphore => (8, 0)
  | .notify => (9, 0)
  | .channelSend => (10, 0)
  | .channelRecv => (11, 0)
  | .ioRead => (12, 0)
  | .ioWrite => (13, 0)
  | .ioAccept => (14, 0)
  | .ioConnect => (15, 0)
  | .blocking => (16, 0)
  | .dns => (17, 0)
  | .fileIo => (18, 0)

def decodeReason (code task : Nat) : Checked (Option SuspensionReason) :=
  match code with
  | 2 => pure (some .yieldNow)
  | 3 => do
      let task ← TaskId.new task
      pure (some (.join task))
  | 4 => pure (some .scopeDrain)
  | 5 => pure (some .park)
  | 6 => pure (some .mutex)
  | 7 => pure (some .condvar)
  | 8 => pure (some .semaphore)
  | 9 => pure (some .notify)
  | 10 => pure (some .channelSend)
  | 11 => pure (some .channelRecv)
  | 12 => pure (some .ioRead)
  | 13 => pure (some .ioWrite)
  | 14 => pure (some .ioAccept)
  | 15 => pure (some .ioConnect)
  | 16 => pure (some .blocking)
  | 17 => pure (some .dns)
  | 18 => pure (some .fileIo)
  | _ => pure none

def encodeWake : WakeReason → Nat
  | .ready => 1
  | .timedOut => 2
  | .cancelled => 3
  | .closed => 4

/-! ## Decoding what was encoded -/

theorem decode_join {task : Nat} (nonzero : task ≠ 0) :
    decodeReason joinCode task = .ok (some (.join ⟨task, nonzero⟩)) := by
  simp only [decodeReason, joinCode, TaskId.new_of_ne nonzero]
  rfl

/-- A reason is read back from its own two words. -/
theorem decode_encode (reason : SuspensionReason) :
    decodeReason (encodeReason reason).1 (encodeReason reason).2 = .ok (some reason) := by
  cases reason with
  | join task => exact decode_join task.nonzero
  | _ => rfl

/-- A code is read back with any task word, unless it is the one of `Join`. -/
theorem decode_code {reason : SuspensionReason} (other : (encodeReason reason).1 ≠ joinCode)
    (task : Nat) : decodeReason (encodeReason reason).1 task = .ok (some reason) := by
  cases reason with
  | join task => exact (other rfl).elim
  | _ => rfl

/-- Only `Join` has a task word. -/
theorem word_eq_zero_iff {reason : SuspensionReason} :
    (encodeReason reason).2 = 0 ↔ (encodeReason reason).1 ≠ joinCode := by
  cases reason with
  | join task => exact iff_of_false task.nonzero fun other => other rfl
  | _ => exact iff_of_true rfl (by decide)

theorem join_of_word {reason : SuspensionReason} (nonzero : (encodeReason reason).2 ≠ 0) :
    reason = .join ⟨(encodeReason reason).2, nonzero⟩ := by
  cases reason with
  | join task => rfl
  | _ => exact (nonzero rfl).elim

/-- The code of a reason is none of the two reserved ones. -/
theorem code_reserved (reason : SuspensionReason) :
    (encodeReason reason).1 ≠ recordCode ∧ (encodeReason reason).1 ≠ readyCode := by
  cases reason <;> exact ⟨nofun, nofun⟩

end VThread.Progress

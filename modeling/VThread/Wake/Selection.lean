import Mathlib.Data.Nat.Bitwise
import VThread.Lib.Checked
import VThread.Wait.Cell

/-!
# Encoded notices

The words in which a wake queue keeps a notice: the task key is the slot, and the
generation shares a word with the cause.
-/

namespace VThread.Wake

open VThread.Lib VThread.Wait

/-- `TaskKey`. -/
structure TaskKey where
  encoded : Nat
  nonzero : encoded ≠ 0
  deriving Repr

instance : DecidableEq TaskKey := fun left right =>
  if same : left.encoded = right.encoded then
    .isTrue (by cases left; cases right; cases same; rfl)
  else .isFalse fun equal => same (congrArg TaskKey.encoded equal)

/-- `WakeNotice`, with task identities and keys as numbers. -/
abbrev Notice : Type := WakeNotice Nat TaskKey

def causeCode : WakeCause → Nat
  | .ready => 1
  | .timedOut => 2
  | .cancelled => 3
  | .inheritedCancelled => 4
  | .closed => 5

/-- The greatest generation that can be queued. -/
def maxQueued : Nat := (2 ^ 64 - 1) >>> 3

def encodeSelection (generation : Nat) (cause : WakeCause) : Checked Nat := do
  ensure (generation ≤ maxQueued) "wake generation exceeds packed representation"
  pure ((generation <<< 3) ||| causeCode cause)

def decodeSelection (selection : Nat) : Checked (Nat × WakeCause) :=
  match selection &&& 0x07 with
  | 1 => pure (selection >>> 3, .ready)
  | 2 => pure (selection >>> 3, .timedOut)
  | 3 => pure (selection >>> 3, .cancelled)
  | 4 => pure (selection >>> 3, .inheritedCancelled)
  | 5 => pure (selection >>> 3, .closed)
  | _ => .error "invalid queued wake cause"

theorem causeCode_lt (cause : WakeCause) : causeCode cause < 2 ^ 3 := by
  cases cause <;> decide

theorem encodeSelection_eq {generation : Nat} (bound : generation ≤ maxQueued)
    (cause : WakeCause) :
    encodeSelection generation cause = .ok (generation * 8 + causeCode cause) := by
  have sum : (generation <<< 3) ||| causeCode cause = generation * 8 + causeCode cause := by
    rw [← Nat.shiftLeft_add_eq_or_of_lt (causeCode_lt cause), Nat.shiftLeft_eq]
  rw [encodeSelection, sum, ensure_of bound, ok_bind]
  rfl

/-- A queued selection fits its word. -/
theorem encodeSelection_lt {generation : Nat} (bound : generation ≤ maxQueued)
    (cause : WakeCause) : generation * 8 + causeCode cause < 2 ^ 64 := by
  have code := causeCode_lt cause
  have limit : maxQueued = 2 ^ 61 - 1 := by decide
  omega

theorem decodeSelection_encode (generation : Nat) (cause : WakeCause) :
    decodeSelection (generation * 8 + causeCode cause) = .ok (generation, cause) := by
  have code := causeCode_lt cause
  have low : (generation * 8 + causeCode cause) &&& 0x07 = causeCode cause := by
    rw [show (0x07 : Nat) = 2 ^ 3 - 1 from rfl, Nat.and_two_pow_sub_one_eq_mod]
    omega
  have high : (generation * 8 + causeCode cause) >>> 3 = generation := by
    rw [Nat.shiftRight_eq_div_pow]
    omega
  rw [decodeSelection, low, high]
  cases cause <;> rfl

/-! ## The head word -/

/-- The head of a queue: the newest node, and whether the consumer sleeps. -/
structure Head where
  index : Nat
  sleeping : Bool
  deriving DecidableEq, Repr

namespace Head

/-- `SLEEPING`. -/
def sleepingBit : Nat := 1 <<< 63

/-- `INDEX_MASK`. -/
def indexMask : Nat := 2 ^ 64 - 1 - sleepingBit

/-- The word of a head whose index lies below `SLEEPING`. -/
def encode (head : Head) : Nat := head.index ||| (if head.sleeping then sleepingBit else 0)

variable {head : Head}

theorem encode_eq (bound : head.index < 2 ^ 63) :
    head.encode = head.index + (if head.sleeping then 2 ^ 63 else 0) := by
  cases sleeping : head.sleeping with
  | false => simp [encode, sleeping]
  | true =>
      have sum : (1 <<< 63) ||| head.index = 1 <<< 63 + head.index :=
        (Nat.shiftLeft_add_eq_or_of_lt bound 1).symm
      rw [encode, sleeping, if_pos rfl, if_pos rfl, Nat.or_comm, sleepingBit, sum, Nat.add_comm,
        Nat.one_shiftLeft]

theorem encode_and_indexMask (bound : head.index < 2 ^ 63) :
    head.encode &&& indexMask = head.index := by
  have mask : indexMask = 2 ^ 63 - 1 := by decide
  rw [mask, Nat.and_two_pow_sub_one_eq_mod, encode_eq bound]
  cases head.sleeping
  · exact Nat.mod_eq_of_lt bound
  · rw [if_pos rfl, Nat.add_mod_right]
    exact Nat.mod_eq_of_lt bound

theorem encode_and_sleepingBit (bound : head.index < 2 ^ 63) :
    head.encode &&& sleepingBit ≠ 0 ↔ head.sleeping = true := by
  have bit : sleepingBit = 2 ^ 63 := by decide
  rw [bit, Nat.and_two_pow, Nat.testBit_eq_decide_div_mod_eq, encode_eq bound]
  have below : head.index / 2 ^ 63 = 0 := Nat.div_eq_of_lt bound
  cases head.sleeping
  · rw [if_neg Bool.false_ne_true, Nat.add_zero, below]
    decide
  · rw [if_pos rfl, Nat.add_div_right _ (Nat.two_pow_pos 63), below]
    decide

/-- Two heads have the same word only if they are the same. -/
theorem encode_injective {other : Head} (bound : head.index < 2 ^ 63)
    (otherBound : other.index < 2 ^ 63) (same : head.encode = other.encode) : head = other := by
  have index := encode_and_indexMask bound
  have sleeping := encode_and_sleepingBit bound
  rw [same, encode_and_indexMask otherBound] at index
  rw [same, encode_and_sleepingBit otherBound, Bool.eq_iff_iff.symm] at sleeping
  cases head
  cases other
  exact congrArg₂ Head.mk index.symm sleeping.symm

end Head

end VThread.Wake

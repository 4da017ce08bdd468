import Mathlib.Data.Nat.Bitwise
import VThread.Wait.Cell

/-!
# The wait slot of a cancellation token

One 64-bit word tells which wait is subscribed to a token: nothing, a generation of the
primary cell, a generation of the resident cell, or an epoch of the fallback table.
-/

namespace VThread.Inherited

open VThread.Wait

/-- The word of a slot. -/
abbrev Active := BitVec 64

namespace Active

/-- `WaitSlot::FALLBACK`. -/
def fallback : Active := 1 <<< 63

/-- `WaitSlot::RESIDENT`. -/
def resident : Active := 1 <<< 62

/-- `WaitSlot::KIND_MASK`. -/
def kindMask : Active := fallback ||| resident

/-- The kind of a word. -/
def kind (active : Active) : Active := active &&& kindMask

/-- The generation a word of the primary or the resident cell holds. -/
def generation (active : Active) : Nat := (active &&& ~~~kindMask).toNat

end Active

/-- `WaitSlot`; a cell is named by its identity. -/
structure WaitSlot where
  active : Active
  primary : Option Nat
  resident : Option Nat
  deriving DecidableEq

/-- `FallbackWait`. -/
structure FallbackWait where
  token : Option ParkToken
  registration : Option Nat
  deriving DecidableEq

def WaitSlot.new : WaitSlot := ⟨0#64, none, none⟩

/-- `claim`. -/
def WaitSlot.claim (slot : WaitSlot) (active : Active) : Option WaitSlot :=
  if slot.active = 0#64 then some { slot with active } else none

/-! ## Kinds -/

namespace Active

/-- A value below the kind bits. -/
def Low (value : Active) : Prop := value &&& kindMask = 0#64

theorem low_of_lt {value : Nat} (below : value < 2 ^ 62) : Low (BitVec.ofNat 64 value) := by
  apply BitVec.eq_of_getLsbD_eq
  intro index bound
  have masked : ∀ index < 62, kindMask.getLsbD index = false := by decide
  rw [BitVec.getLsbD_and, BitVec.getLsbD_ofNat, BitVec.getLsbD_zero]
  by_cases low : index < 62
  · rw [masked index low, Bool.and_false]
  · have high : value.testBit index = false :=
      Nat.testBit_lt_two_pow (below.trans_le (Nat.pow_le_pow_right (by decide) (by omega)))
    rw [high, Bool.and_false, Bool.false_and]

theorem Low.and_not {value : Active} (low : value.Low) : value &&& ~~~kindMask = value := by
  apply BitVec.eq_of_getLsbD_eq
  intro index bound
  have bit := congrArg (fun word => BitVec.getLsbD word index) low
  simp only [BitVec.getLsbD_and, BitVec.getLsbD_zero] at bit
  rw [BitVec.getLsbD_and, BitVec.getLsbD_not]
  cases set : value.getLsbD index with
  | false => rfl
  | true =>
      rw [set, Bool.true_and] at bit
      rw [bit]
      simp [bound]

/-- A kind bit over a low value. -/
theorem Low.kind_or {value bit : Active} (low : value.Low) (isBit : bit &&& kindMask = bit) :
    (bit ||| value).kind = bit := by
  rw [kind, BitVec.and_comm, BitVec.and_or_distrib_left, BitVec.and_comm, isBit,
    BitVec.and_comm kindMask value, low, BitVec.or_zero]

theorem Low.kind {value : Active} (low : value.Low) : value.kind = 0#64 := low

theorem Low.generation_or {value bit : Active} (low : value.Low)
    (isBit : bit &&& kindMask = bit) : (bit ||| value).generation = value.toNat := by
  have cleared : bit &&& ~~~kindMask = 0#64 := by
    have none : kindMask &&& ~~~kindMask = 0#64 := by decide
    rw [← isBit, BitVec.and_assoc, none, BitVec.and_zero]
  rw [generation, BitVec.and_comm, BitVec.and_or_distrib_left, BitVec.and_comm, cleared,
    BitVec.and_comm (~~~kindMask) value, low.and_not, BitVec.zero_or]

theorem Low.generation {value : Active} (low : value.Low) : value.generation = value.toNat := by
  rw [Active.generation, low.and_not]

theorem fallback_and_mask : fallback &&& kindMask = fallback := by decide

theorem resident_and_mask : resident &&& kindMask = resident := by decide

theorem toNat_ofNat_of_lt {value : Nat} (below : value < 2 ^ 62) :
    (BitVec.ofNat 64 value).toNat = value := by
  rw [BitVec.toNat_ofNat]
  exact Nat.mod_eq_of_lt (by omega)

end Active

end VThread.Inherited

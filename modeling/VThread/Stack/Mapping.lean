import Mathlib.Algebra.Order.Group.Nat
import VThread.Lib.Checked
import VThread.Lib.Word

/-!
# Mapped stacks

A stack is one private mapping whose lowest page is a guard.  The kernel is a parameter: what it
reports as its page size, where it maps, and whether it enables a range.
-/

namespace VThread.Stack.Mapping

open VThread.Lib

/-- `io::Error`: of a kind with a message, or the last error of the system. -/
inductive Failure where
  | invalidInput (message : String)
  | other (message : String)
  | lastOsError
  deriving DecidableEq

/-- `usize::checked_add`. -/
def checkedAdd (left right : UInt64) : Option UInt64 :=
  if left.toNat + right.toNat < 2 ^ 64 then some (left + right) else none

def okOrElse {α : Type} (value : Option α) (failure : Failure) : Except Failure α :=
  match value with
  | some value => .ok value
  | none => .error failure

/-- What `sysconf` reports, where `mmap` maps, unless it fails, and whether `mprotect` enables. -/
structure Kernel where
  sysconf : Int
  mmap : UInt64 → Option UInt64
  mprotect : UInt64 → UInt64 → Bool

namespace Kernel

def pageSize (kernel : Kernel) : Except Failure UInt64 :=
  if 0 ≤ kernel.sysconf ∧ kernel.sysconf < 2 ^ 64 ∧ kernel.sysconf.toNat.isPowerOfTwo then
    .ok (UInt64.ofNat kernel.sysconf.toNat)
  else .error (.other "kernel reported an unusable page size")

def reserve (kernel : Kernel) (len : UInt64) : Except Failure UInt64 :=
  match kernel.mmap len with
  | none => .error .lastOsError
  | some mapping =>
      if mapping = 0 then .error (.other "mmap returned a null mapping") else .ok mapping

def enable (kernel : Kernel) (start len : UInt64) : Except Failure Unit :=
  if kernel.mprotect start len then .ok () else .error .lastOsError

end Kernel

/-- `MappedStack`, but for its identity. -/
structure MappedStack where
  mapping : UInt64
  mappingLen : UInt64
  guardLen : UInt64
  base : UInt64
  deriving DecidableEq

namespace MappedStack

def limit (stack : MappedStack) : UInt64 := stack.mapping

def usableLen (stack : MappedStack) : UInt64 := stack.mappingLen - stack.guardLen

def usableStart (stack : MappedStack) : UInt64 := stack.mapping + stack.guardLen

def overflow : Failure := .invalidInput "stack mapping size overflows the address space"

def new (kernel : Kernel) (usable : UInt64) : Except Failure MappedStack := do
  if usable = 0 then
    throw (.invalidInput "stack capacity must be positive")
  let page ← kernel.pageSize
  let rounded ← okOrElse (checkedAdd usable (page - 1)) overflow
  let usableLen := rounded &&& ~~~(page - 1)
  let mappingLen ← okOrElse (checkedAdd usableLen page) overflow
  let mapping ← kernel.reserve mappingLen
  let base ← okOrElse (checkedAdd mapping mappingLen) overflow
  if base = 0 then
    throw overflow
  let stack : MappedStack := ⟨mapping, mappingLen, page, base⟩
  kernel.enable stack.usableStart usableLen
  return stack

end MappedStack

/-! ## What a mapped stack is -/

/-- Pages have at least 4096 bytes on both targets, and mappings begin at one. -/
structure Kernel.Documented (kernel : Kernel) : Prop where
  page : 4096 ≤ kernel.sysconf
  aligned : ∀ len mapping, kernel.mmap len = some mapping →
    kernel.sysconf.toNat ∣ mapping.toNat

/-- A stack of whole pages: one guards, and at least one is usable. -/
structure MappedStack.Mapped (stack : MappedStack) : Prop where
  page : ∃ bits, 12 ≤ bits ∧ stack.guardLen.toNat = 2 ^ bits
  limitAligned : stack.guardLen.toNat ∣ stack.limit.toNat
  baseAligned : stack.guardLen.toNat ∣ stack.base.toNat
  span : stack.limit.toNat + stack.mappingLen.toNat = stack.base.toNat
  room : 2 * stack.guardLen.toNat ≤ stack.mappingLen.toNat

theorem checkedAdd_eq_ok {left right sum : UInt64} {failure : Failure}
    (added : okOrElse (checkedAdd left right) failure = .ok sum) :
    sum.toNat = left.toNat + right.toNat := by
  rw [checkedAdd] at added
  split at added
  · rename_i fits
    cases added
    exact Word.toNat_add_of_lt fits
  · cases added

theorem Kernel.pageSize_eq_ok {kernel : Kernel} {page : UInt64}
    (reported : kernel.pageSize = .ok page) :
    page.toNat = kernel.sysconf.toNat ∧ page.toNat.isPowerOfTwo := by
  rw [Kernel.pageSize] at reported
  split at reported
  · rename_i usable
    obtain ⟨positive, bounded, power⟩ := usable
    cases reported
    have same : (UInt64.ofNat kernel.sysconf.toNat).toNat = kernel.sysconf.toNat := by
      rw [UInt64.toNat_ofNat', Nat.mod_eq_of_lt]
      omega
    refine ⟨same, ?_⟩
    rw [same]
    exact power
  · cases reported

theorem Kernel.reserve_eq_ok {kernel : Kernel} {len mapping : UInt64}
    (reserved : kernel.reserve len = .ok mapping) : kernel.mmap len = some mapping := by
  rw [Kernel.reserve] at reserved
  split at reserved
  · cases reserved
  · rename_i found
    split at reserved
    · cases reserved
    · cases reserved
      exact found

theorem bind_eq_ok {α β : Type} {first : Except Failure α} {next : α → Except Failure β}
    {result : β} :
    (first >>= next) = .ok result ↔ ∃ value, first = .ok value ∧ next value = .ok result := by
  cases first with
  | error | ok => simp [bind, Except.bind]

/-- The steps of `new` that succeeded. -/
theorem MappedStack.new_eq_ok {kernel : Kernel} {usable : UInt64} {stack : MappedStack}
    (mapped : MappedStack.new kernel usable = .ok stack) :
    ∃ rounded usableLen, usable ≠ 0 ∧ kernel.pageSize = .ok stack.guardLen ∧
      okOrElse (checkedAdd usable (stack.guardLen - 1)) overflow = .ok rounded ∧
      usableLen = rounded &&& ~~~(stack.guardLen - 1) ∧
      okOrElse (checkedAdd usableLen stack.guardLen) overflow = .ok stack.mappingLen ∧
      kernel.reserve stack.mappingLen = .ok stack.mapping ∧
      okOrElse (checkedAdd stack.mapping stack.mappingLen) overflow = .ok stack.base := by
  rw [MappedStack.new] at mapped
  by_cases empty : usable = 0
  · simp [empty, throw, throwThe, MonadExceptOf.throw, bind, Except.bind] at mapped
  rw [if_neg empty] at mapped
  obtain ⟨page, sized, mapped⟩ := bind_eq_ok.mp mapped
  obtain ⟨rounded, rounds, mapped⟩ := bind_eq_ok.mp mapped
  obtain ⟨mappingLen, sums, mapped⟩ := bind_eq_ok.mp mapped
  obtain ⟨mapping, reserved, mapped⟩ := bind_eq_ok.mp mapped
  obtain ⟨base, based, mapped⟩ := bind_eq_ok.mp mapped
  by_cases null : base = 0
  · simp [null, throw, throwThe, MonadExceptOf.throw, bind, Except.bind] at mapped
  rw [if_neg null] at mapped
  obtain ⟨-, -, mapped⟩ := bind_eq_ok.mp mapped
  cases mapped
  exact ⟨rounded, _, empty, sized, rounds, rfl, sums, reserved, based⟩

/-- What `new` maps is a mapped stack. -/
theorem MappedStack.new_mapped {kernel : Kernel} {usable : UInt64} {stack : MappedStack}
    (documented : kernel.Documented) (mapped : MappedStack.new kernel usable = .ok stack) :
    stack.Mapped := by
  obtain ⟨rounded, usableLen, positive, sized, rounds, rfl, sums, reserved, based⟩ :=
    new_eq_ok mapped
  obtain ⟨page, bits, power⟩ := Kernel.pageSize_eq_ok sized
  have large : 2 ^ 12 ≤ stack.guardLen.toNat := by
    have := documented.page
    omega
  have exponent : 12 ≤ bits := by
    rw [power] at large
    exact (Nat.pow_le_pow_iff_right (by decide)).mp large
  have begins : stack.guardLen.toNat ∣ stack.mapping.toNat :=
    page ▸ documented.aligned _ _ (Kernel.reserve_eq_ok reserved)
  have sum := checkedAdd_eq_ok sums
  have rounding := checkedAdd_eq_ok rounds
  have ends := checkedAdd_eq_ok based
  rw [Word.toNat_mask power] at rounding
  rw [Word.toNat_and_not_mask power, ← power] at sum
  have nonempty : usable.toNat ≠ 0 := fun zero => positive (UInt64.toNat_inj.mp zero)
  have usablePage : 1 ≤ rounded.toNat / stack.guardLen.toNat := by
    rw [Nat.one_le_div_iff (by omega), rounding, power]
    omega
  constructor
  case page => exact ⟨bits, exponent, power⟩
  case limitAligned => exact begins
  case baseAligned =>
    rw [ends, sum]
    exact Nat.dvd_add begins (Nat.dvd_add (Nat.dvd_mul_left _ _) (Nat.dvd_refl _))
  case span => exact ends.symm
  case room =>
    rw [sum]
    have := Nat.mul_le_mul_right stack.guardLen.toNat usablePage
    omega

end VThread.Stack.Mapping

import Mathlib.Data.Nat.Bitwise

/-!
# Masks and steps of 64-bit words

What masking a word with a power of two less one, or with its complement, leaves of it, and when
sums and differences of words are those of the numbers.
-/

namespace VThread.Lib.Word

variable {word other alignment : UInt64} {bits : Nat}

theorem toNat_add_of_lt (fits : word.toNat + other.toNat < 2 ^ 64) :
    (word + other).toNat = word.toNat + other.toNat := by
  rw [UInt64.toNat_add, Nat.mod_eq_of_lt fits]

theorem toNat_sub_of_le (fits : other.toNat ≤ word.toNat) :
    (word - other).toNat = word.toNat - other.toNat :=
  UInt64.toNat_sub_of_le word other (UInt64.le_iff_toNat_le.mpr fits)

/-- A power of two less one is the mask of the bits below it. -/
theorem toNat_mask (power : alignment.toNat = 2 ^ bits) :
    (alignment - 1).toNat = 2 ^ bits - 1 := by
  have positive : (1 : UInt64).toNat ≤ alignment.toNat := by
    rw [power]
    exact Nat.one_le_two_pow
  rw [toNat_sub_of_le positive, power]
  rfl

theorem toNat_and_mask (power : alignment.toNat = 2 ^ bits) :
    (word &&& (alignment - 1)).toNat = word.toNat % 2 ^ bits := by
  rw [UInt64.toNat_and, toNat_mask power, Nat.and_two_pow_sub_one_eq_mod]

theorem testBit_toNat_of_le {index : Nat} (outside : 64 ≤ index) :
    word.toNat.testBit index = false :=
  Nat.testBit_lt_two_pow (word.toNat_lt.trans_le (Nat.pow_le_pow_right (by decide) outside))

/-- The complement of that mask clears those bits and keeps the others. -/
theorem toNat_and_not_mask (power : alignment.toNat = 2 ^ bits) :
    (word &&& ~~~(alignment - 1)).toNat = word.toNat / 2 ^ bits * 2 ^ bits := by
  have complement : (~~~(alignment - 1)).toNat = 2 ^ 64 - (2 ^ bits - 1 + 1) := by
    rw [UInt64.toNat_not, toNat_mask power, UInt64.size]
    omega
  have below : 2 ^ bits - 1 < 2 ^ 64 := by
    have := alignment.toNat_lt
    omega
  apply Nat.eq_of_testBit_eq
  intro index
  rw [UInt64.toNat_and, complement, Nat.testBit_and, Nat.testBit_two_pow_sub_succ below,
    Nat.testBit_two_pow_sub_one, Nat.testBit_mul_two_pow, Nat.testBit_div_two_pow]
  by_cases low : index < bits
  · simp [low, Nat.not_le.mpr low]
  · have high : bits ≤ index := Nat.not_lt.mp low
    have same : bits + (index - bits) = index := by omega
    by_cases inside : index < 64
    · simp [inside, low, high]
    · simp [testBit_toNat_of_le (Nat.not_lt.mp inside), high]

end VThread.Lib.Word

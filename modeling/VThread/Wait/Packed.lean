import Mathlib.Data.Nat.Bitwise
import VThread.Wait.Word

/-!
# The packed wait word

One 64-bit word holds the phase (bits 0 to 3), permit, closed, resource (6 and 7),
fallback and generation (9 to 63) of a wait.  Every operation on the packed word is the
operation on the record, and equal words are equal records, so a compare-exchange on
the atomic compares all fields.
-/

namespace VThread.Wait

/-- The packed word. -/
abbrev Raw := BitVec 64

def Phase.code : Phase → BitVec 4
  | .idle => 0
  | .binding => 1
  | .active => 2
  | .claim .ready => 3
  | .selected .ready => 4
  | .claim .timedOut => 5
  | .selected .timedOut => 6
  | .claim .cancelled => 7
  | .selected .cancelled => 8
  | .claim .inheritedCancelled => 9
  | .selected .inheritedCancelled => 10
  | .claim .closed => 11
  | .selected .closed => 12

def resourceCode : Option ResourceSelection → BitVec 2
  | none => 0
  | some .permit => 1
  | some .broadcast => 2

namespace Raw

def phaseMask : Raw := 0x0f

def permitBit : Raw := 1 <<< 4

def closedBit : Raw := 1 <<< 5

def resourceShift : Nat := 6

def resourceMask : Raw := 0x03 <<< resourceShift

def fallbackBit : Raw := 1 <<< 8

def withPhase (raw : Raw) (phase : Phase) : Raw := (raw &&& ~~~phaseMask) ||| phase.code.setWidth 64

def withGeneration (raw : Raw) (generation : Nat) : Raw :=
  (raw &&& ((1 <<< generationShift) - 1)) ||| (BitVec.ofNat 64 generation <<< generationShift)

/-- `with_permit`, `with_closed` and `with_fallback_hub`. -/
def withFlag (bit : Raw) (raw : Raw) (flag : Bool) : Raw :=
  if flag then raw ||| bit else raw &&& ~~~bit

def withPermit : Raw → Bool → Raw := withFlag permitBit

def withClosed : Raw → Bool → Raw := withFlag closedBit

def withFallbackHub : Raw → Bool → Raw := withFlag fallbackBit

def withResource (raw : Raw) (resource : Option ResourceSelection) : Raw :=
  (raw &&& ~~~resourceMask) ||| ((resourceCode resource).setWidth 64 <<< resourceShift)

/-- `phase`. -/
def phase (raw : Raw) : Checked Phase :=
  match (raw &&& phaseMask).toNat with
  | 0 => pure .idle
  | 1 => pure .binding
  | 2 => pure .active
  | 3 => pure (.claim .ready)
  | 4 => pure (.selected .ready)
  | 5 => pure (.claim .timedOut)
  | 6 => pure (.selected .timedOut)
  | 7 => pure (.claim .cancelled)
  | 8 => pure (.selected .cancelled)
  | 9 => pure (.claim .inheritedCancelled)
  | 10 => pure (.selected .inheritedCancelled)
  | 11 => pure (.claim .closed)
  | 12 => pure (.selected .closed)
  | _ => .error "invalid wait phase"

def resource (raw : Raw) : Checked (Option ResourceSelection) :=
  match ((raw &&& resourceMask) >>> resourceShift).toNat with
  | 0 => pure none
  | 1 => pure (some .permit)
  | 2 => pure (some .broadcast)
  | _ => .error "invalid wait resource"

def generation (raw : Raw) : Nat := (raw >>> generationShift).toNat

def hasPermit (raw : Raw) : Bool := raw &&& permitBit != 0

def isClosed (raw : Raw) : Bool := raw &&& closedBit != 0

def usesFallbackHub (raw : Raw) : Bool := raw &&& fallbackBit != 0

def needsRecycle (raw : Raw) : Bool := raw &&& (permitBit ||| resourceMask) != 0

end Raw

namespace WaitWord

/-- The packed form of a word. -/
def encode (word : WaitWord) : Raw :=
  BitVec.ofNat 55 word.generation ++ BitVec.ofBool word.fallbackHub ++
    resourceCode word.resource ++ BitVec.ofBool word.closed ++ BitVec.ofBool word.permit ++
    word.phase.code

theorem getLsbD_encode (word : WaitWord) (index : Nat) :
    word.encode.getLsbD index =
      if index < 4 then word.phase.code.getLsbD index
      else if index = 4 then word.permit
      else if index = 5 then word.closed
      else if index < 8 then (resourceCode word.resource).getLsbD (index - 6)
      else if index = 8 then word.fallbackHub
      else (BitVec.ofNat 55 word.generation).getLsbD (index - 9) := by
  simp only [encode, BitVec.getLsbD_append, BitVec.getLsbD_ofBool]
  by_cases inPhase : index < 4
  · simp [inPhase]
  by_cases isPermit : index = 4
  · simp [isPermit]
  by_cases isClosed : index = 5
  · simp [isClosed]
  have notPermit : ¬ index - 4 < 1 := by omega
  have notClosed : ¬ index - 4 - 1 < 1 := by omega
  by_cases inResource : index < 8
  · have below : index - 4 - 1 - 1 < 2 := by omega
    rw [if_neg inPhase, if_neg isPermit, if_neg isClosed, if_pos inResource, if_neg inPhase,
      if_neg notPermit, if_neg notClosed, if_pos below]
    congr 1
  have notResource : ¬ index - 4 - 1 - 1 < 2 := by omega
  by_cases isFallback : index = 8
  · simp [isFallback]
  have notFallback : ¬ index - 4 - 1 - 1 - 2 < 1 := by omega
  have shift : index - 4 - 1 - 1 - 2 - 1 = index - 9 := by omega
  simp only [inPhase, isPermit, isClosed, notPermit, notClosed, inResource, notResource,
    isFallback, notFallback, if_false, shift]

/-- A mask is known once its 64 bits are. -/
theorem getLsbD_mask (mask : Raw) (set : Nat → Bool)
    (bits : ∀ index : Fin 64, mask.getLsbD index = set index) {index : Nat}
    (bound : index < 64) : mask.getLsbD index = set index :=
  bits ⟨index, bound⟩

/-! ## Writes -/

theorem encode_withPhase (word : WaitWord) (phase : Phase) :
    (word.withPhase phase).encode = Raw.withPhase word.encode phase := by
  apply BitVec.eq_of_getLsbD_eq
  intro index bound
  have mask := getLsbD_mask Raw.phaseMask (fun index => decide (index < 4)) (by decide) bound
  simp only [Raw.withPhase, BitVec.getLsbD_or, BitVec.getLsbD_and, BitVec.getLsbD_not, mask,
    getLsbD_encode, withPhase, BitVec.getLsbD_setWidth, bound]
  by_cases inPhase : index < 4
  · simp [inPhase]
  · simp [inPhase, BitVec.getLsbD_of_ge phase.code index (by omega)]

theorem encode_withPermit (word : WaitWord) (permit : Bool) :
    (word.withPermit permit).encode = Raw.withPermit word.encode permit := by
  apply BitVec.eq_of_getLsbD_eq
  intro index bound
  have mask := getLsbD_mask Raw.permitBit (fun index => decide (index = 4)) (by decide) bound
  simp only [Raw.withPermit, Raw.withFlag, apply_ite (fun raw : Raw => raw.getLsbD index),
    BitVec.getLsbD_or, BitVec.getLsbD_and, BitVec.getLsbD_not, mask, getLsbD_encode,
    withPermit, bound]
  by_cases isPermit : index = 4
  · simp [isPermit]
  · simp [isPermit]

theorem encode_withClosed (word : WaitWord) (closed : Bool) :
    (word.withClosed closed).encode = Raw.withClosed word.encode closed := by
  apply BitVec.eq_of_getLsbD_eq
  intro index bound
  have mask := getLsbD_mask Raw.closedBit (fun index => decide (index = 5)) (by decide) bound
  simp only [Raw.withClosed, Raw.withFlag, apply_ite (fun raw : Raw => raw.getLsbD index),
    BitVec.getLsbD_or, BitVec.getLsbD_and, BitVec.getLsbD_not, mask, getLsbD_encode,
    withClosed, bound]
  by_cases isClosed : index = 5
  · simp [isClosed]
  · simp [isClosed]

theorem encode_withFallbackHub (word : WaitWord) (fallback : Bool) :
    (word.withFallbackHub fallback).encode = Raw.withFallbackHub word.encode fallback := by
  apply BitVec.eq_of_getLsbD_eq
  intro index bound
  have mask := getLsbD_mask Raw.fallbackBit (fun index => decide (index = 8)) (by decide) bound
  simp only [Raw.withFallbackHub, Raw.withFlag, apply_ite (fun raw : Raw => raw.getLsbD index),
    BitVec.getLsbD_or, BitVec.getLsbD_and, BitVec.getLsbD_not, mask, getLsbD_encode,
    withFallbackHub, bound]
  by_cases isFallback : index = 8
  · simp [isFallback]
  · simp [isFallback]

theorem encode_withResource (word : WaitWord) (resource : Option ResourceSelection) :
    (word.withResource resource).encode = Raw.withResource word.encode resource := by
  apply BitVec.eq_of_getLsbD_eq
  intro index bound
  have mask := getLsbD_mask Raw.resourceMask (fun index => decide (6 ≤ index ∧ index < 8))
    (by decide) bound
  simp only [Raw.withResource, BitVec.getLsbD_or, BitVec.getLsbD_and, BitVec.getLsbD_not, mask,
    getLsbD_encode, withResource, BitVec.getLsbD_shiftLeft, BitVec.getLsbD_setWidth, bound,
    Raw.resourceShift]
  by_cases below : index < 6
  · have notInField : ¬ (6 ≤ index ∧ index < 8) := by omega
    have notResource : ¬ (¬ index < 4 ∧ index ≠ 4 ∧ index ≠ 5) := by omega
    simp only [notInField, below, decide_true, decide_false, Bool.not_true, Bool.not_false,
      Bool.and_false, Bool.false_and, Bool.or_false, Bool.and_true]
    by_cases inPhase : index < 4
    · simp [inPhase]
    · by_cases isPermit : index = 4
      · simp [isPermit]
      · have isClosed : index = 5 := by omega
        simp [isClosed]
  · have notPhase : ¬ index < 4 := by omega
    have notPermit : index ≠ 4 := by omega
    have notClosed : index ≠ 5 := by omega
    by_cases inResource : index < 8
    · have inField : 6 ≤ index := by omega
      have bound' : index - 6 < 64 := by omega
      simp [notPhase, notPermit, notClosed, inResource, inField, below, bound']
    · simp [notPhase, notPermit, notClosed, inResource, below,
        BitVec.getLsbD_of_ge (resourceCode resource) (index - 6) (by omega)]

theorem encode_withGeneration (word : WaitWord) (generation : Nat) :
    (word.withGeneration generation).encode = Raw.withGeneration word.encode generation := by
  apply BitVec.eq_of_getLsbD_eq
  intro index inWord
  have mask := getLsbD_mask ((1 <<< generationShift : Raw) - 1)
    (fun index => decide (index < 9)) (by decide) inWord
  simp only [Raw.withGeneration, BitVec.getLsbD_or, BitVec.getLsbD_and, mask, getLsbD_encode,
    withGeneration, BitVec.getLsbD_shiftLeft, BitVec.getLsbD_ofNat, inWord]
  by_cases below : index < 9
  · have shifted : index < generationShift := below
    simp only [below, shifted, decide_true, Bool.not_true, Bool.and_false, Bool.false_and,
      Bool.or_false, Bool.and_true]
    by_cases inPhase : index < 4
    · simp [inPhase]
    · by_cases isPermit : index = 4
      · simp [isPermit]
      · by_cases isClosed : index = 5
        · simp [isClosed]
        · by_cases inResource : index < 8
          · simp [inPhase, isPermit, isClosed, inResource]
          · have isFallback : index = 8 := by omega
            simp [isFallback]
  · have notPhase : ¬ index < 4 := by omega
    have notPermit : index ≠ 4 := by omega
    have notClosed : index ≠ 5 := by omega
    have notResource : ¬ index < 8 := by omega
    have notFallback : index ≠ 8 := by omega
    have shifted : ¬ index < generationShift := below
    have inGeneration : index - 9 < 55 := by omega
    have inSixtyFour : index - generationShift < 64 := by omega
    simp [notPhase, notPermit, notClosed, notResource, notFallback, below, shifted,
      inGeneration, inSixtyFour]
    rfl

/-! ## Reads -/

theorem phase_encode (word : WaitWord) : word.encode.phase = .ok word.phase := by
  have field : word.encode &&& Raw.phaseMask = word.phase.code.setWidth 64 := by
    apply BitVec.eq_of_getLsbD_eq
    intro index bound
    have mask := getLsbD_mask Raw.phaseMask (fun index => decide (index < 4)) (by decide) bound
    simp only [BitVec.getLsbD_and, mask, getLsbD_encode, BitVec.getLsbD_setWidth, bound]
    by_cases inPhase : index < 4
    · simp [inPhase]
    · simp [inPhase, BitVec.getLsbD_of_ge word.phase.code index (by omega)]
  rw [Raw.phase, field]
  cases word.phase with
  | idle => rfl
  | binding => rfl
  | active => rfl
  | claim cause => cases cause <;> rfl
  | selected cause => cases cause <;> rfl

theorem and_resourceMask_encode (word : WaitWord) : word.encode &&& Raw.resourceMask =
    (resourceCode word.resource).setWidth 64 <<< Raw.resourceShift := by
  apply BitVec.eq_of_getLsbD_eq
  intro index bound
  have mask := getLsbD_mask Raw.resourceMask (fun index => decide (6 ≤ index ∧ index < 8))
    (by decide) bound
  rw [BitVec.getLsbD_and, getLsbD_encode, mask, BitVec.getLsbD_shiftLeft,
    BitVec.getLsbD_setWidth, Raw.resourceShift]
  by_cases below : index < 6
  · have outside : ¬ (6 ≤ index ∧ index < 8) := by omega
    simp [below, outside]
  · have notPhase : ¬ index < 4 := by omega
    have notPermit : index ≠ 4 := by omega
    have notClosed : index ≠ 5 := by omega
    by_cases inResource : index < 8
    · have inField : 6 ≤ index := by omega
      have bound' : index - 6 < 64 := by omega
      simp [notPhase, notPermit, notClosed, inResource, inField, below, bound, bound']
    · have empty := BitVec.getLsbD_of_ge (resourceCode word.resource) (index - 6) (by omega)
      simp [inResource, empty]

theorem resource_encode (word : WaitWord) : word.encode.resource = .ok word.resource := by
  rw [Raw.resource, and_resourceMask_encode]
  cases word.resource with
  | none => rfl
  | some resource => cases resource <;> rfl

theorem generation_encode {word : WaitWord} (bound : word.generation ≤ maxGeneration) :
    word.encode.generation = word.generation := by
  have field : word.encode >>> generationShift =
      (BitVec.ofNat 55 word.generation).setWidth 64 := by
    apply BitVec.eq_of_getLsbD_eq
    intro index inWord
    have notPhase : ¬ 9 + index < 4 := by omega
    have notPermit : 9 + index ≠ 4 := by omega
    have notClosed : 9 + index ≠ 5 := by omega
    have notResource : ¬ 9 + index < 8 := by omega
    have notFallback : 9 + index ≠ 8 := by omega
    rw [BitVec.getLsbD_ushiftRight, getLsbD_encode, BitVec.getLsbD_setWidth, generationShift]
    simp only [notPhase, notPermit, notClosed, notResource, notFallback, if_false, inWord,
      decide_true, Bool.true_and, Nat.add_sub_cancel_left]
  have maxEq : maxGeneration = 2 ^ 55 - 1 := by decide
  rw [Raw.generation, field, BitVec.toNat_setWidth, BitVec.toNat_ofNat,
    Nat.mod_eq_of_lt (by omega), Nat.mod_eq_of_lt (by omega)]

/-- A flag test reads one bit. -/
theorem and_flag_ne_zero {flag : Raw} {position : Nat} (inWord : position < 64)
    (single : ∀ index : Fin 64, flag.getLsbD index = decide (index.val = position)) (raw : Raw) :
    (raw &&& flag != 0) = raw.getLsbD position := by
  have mask : ∀ index, index < 64 → flag.getLsbD index = decide (index = position) :=
    fun index bound => getLsbD_mask flag (fun index => decide (index = position)) single bound
  cases isSet : raw.getLsbD position with
  | true =>
      rw [bne_iff_ne]
      intro isZero
      have bit : (raw &&& flag).getLsbD position = true := by
        rw [BitVec.getLsbD_and, isSet, mask position inWord]
        simp
      rw [isZero] at bit
      simp at bit
  | false =>
      rw [bne_eq_false_iff_eq]
      apply BitVec.eq_of_getLsbD_eq
      intro index bound
      rw [BitVec.getLsbD_and, mask index bound]
      by_cases equal : index = position
      · simp [equal, isSet]
      · simp [equal]

theorem hasPermit_encode (word : WaitWord) : word.encode.hasPermit = word.permit := by
  rw [Raw.hasPermit, and_flag_ne_zero (by decide : 4 < 64) (by decide), getLsbD_encode]
  simp

theorem isClosed_encode (word : WaitWord) : word.encode.isClosed = word.closed := by
  rw [Raw.isClosed, and_flag_ne_zero (by decide : 5 < 64) (by decide), getLsbD_encode]
  simp

theorem usesFallbackHub_encode (word : WaitWord) :
    word.encode.usesFallbackHub = word.fallbackHub := by
  rw [Raw.usesFallbackHub, and_flag_ne_zero (by decide : 8 < 64) (by decide), getLsbD_encode]
  simp

theorem needsRecycle_encode (word : WaitWord) :
    word.encode.needsRecycle = word.needsRecycle := by
  have split : word.encode &&& (Raw.permitBit ||| Raw.resourceMask) =
      (word.encode &&& Raw.permitBit) ||| (word.encode &&& Raw.resourceMask) := by
    apply BitVec.eq_of_getLsbD_eq
    intro index _
    simp only [BitVec.getLsbD_and, BitVec.getLsbD_or, Bool.and_or_distrib_left]
  have permit := hasPermit_encode word
  rw [Raw.needsRecycle, split, needsRecycle, and_resourceMask_encode]
  cases isSet : word.permit with
  | true =>
      have nonzero : word.encode &&& Raw.permitBit ≠ 0 := by
        rw [isSet] at permit
        exact bne_iff_ne.1 permit
      simp only [Bool.true_or, bne_iff_ne, ne_eq]
      exact fun isZero => nonzero (BitVec.or_eq_zero_iff.1 isZero).1
  | false =>
      have zero : word.encode &&& Raw.permitBit = 0 := by
        rw [isSet] at permit
        exact bne_eq_false_iff_eq.1 permit
      rw [zero]
      cases word.resource with
      | none => rfl
      | some resource => cases resource <;> rfl

/-- Equal packed words are equal words, so a compare-exchange compares all fields. -/
theorem encode_injective {left right : WaitWord} (leftBound : left.generation ≤ maxGeneration)
    (rightBound : right.generation ≤ maxGeneration) (same : left.encode = right.encode) :
    left = right := by
  have phase : left.phase = right.phase := by
    have reads := phase_encode left
    rw [same, phase_encode right] at reads
    exact (Except.ok.inj reads).symm
  have resource : left.resource = right.resource := by
    have reads := resource_encode left
    rw [same, resource_encode right] at reads
    exact (Except.ok.inj reads).symm
  have permit : left.permit = right.permit := by
    rw [← hasPermit_encode left, same, hasPermit_encode right]
  have closed : left.closed = right.closed := by
    rw [← isClosed_encode left, same, isClosed_encode right]
  have fallback : left.fallbackHub = right.fallbackHub := by
    rw [← usesFallbackHub_encode left, same, usesFallbackHub_encode right]
  have generation : left.generation = right.generation := by
    rw [← generation_encode leftBound, same, generation_encode rightBound]
  cases left
  cases right
  simp_all

end WaitWord

end VThread.Wait

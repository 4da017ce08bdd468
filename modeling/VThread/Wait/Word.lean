import Mathlib.Algebra.Group.Nat.Defs
import Mathlib.Logic.Basic
import VThread.Lib.Checked

/-!
# Wait words

The state of one reusable wait generation, as a record.  `Packed` gives its encoding in
one atomic word.
-/

namespace VThread.Wait

/-- Why a wait was woken. -/
inductive WakeCause where
  | ready
  | timedOut
  | cancelled
  | inheritedCancelled
  | closed
  deriving DecidableEq, Repr

/-- A resource handed over together with a wake. -/
inductive ResourceSelection where
  | permit
  | broadcast
  deriving DecidableEq, Repr

/-- Phases of a wait; the source has one `Claim` and one `Selected` phase per cause. -/
inductive Phase where
  | idle
  | binding
  | active
  | claim (cause : WakeCause)
  | selected (cause : WakeCause)
  deriving DecidableEq, Repr

def generationShift : Nat := 9

/-- `MAX_GENERATION`. -/
def maxGeneration : Nat := (2 ^ 64 - 1) >>> generationShift

structure WaitWord where
  phase : Phase
  permit : Bool
  closed : Bool
  resource : Option ResourceSelection
  fallbackHub : Bool
  generation : Nat
  deriving DecidableEq, Repr

namespace WaitWord

def initial : WaitWord := ⟨.idle, false, false, none, false, 0⟩

def needsRecycle (word : WaitWord) : Bool := word.permit || word.resource.isSome

def selectedCause (word : WaitWord) : Option WakeCause :=
  match word.phase with
  | .selected cause => some cause
  | _ => none

def isClaimed (word : WaitWord) : Bool :=
  match word.phase with
  | .claim _ => true
  | _ => false

def withPhase (word : WaitWord) (phase : Phase) : WaitWord := { word with phase }

def withGeneration (word : WaitWord) (generation : Nat) : WaitWord := { word with generation }

def withPermit (word : WaitWord) (permit : Bool) : WaitWord := { word with permit }

def withClosed (word : WaitWord) (closed : Bool) : WaitWord := { word with closed }

def withFallbackHub (word : WaitWord) (fallbackHub : Bool) : WaitWord :=
  { word with fallbackHub }

def withResource (word : WaitWord) (resource : Option ResourceSelection) : WaitWord :=
  { word with resource }

def claimed (word : WaitWord) (cause : WakeCause) : WaitWord := word.withPhase (.claim cause)

def publishClaim (word : WaitWord) : Checked WaitWord :=
  match word.phase with
  | .claim cause => pure (word.withPhase (.selected cause))
  | _ => .error "only a claimed wait can be published"

def retire (word : WaitWord) : WaitWord := (word.withPhase .idle).withFallbackHub false

/-- Candidate for a resource offer. -/
def resourceOffer (word : WaitWord) (selection : ResourceSelection) : Option WaitWord :=
  if word.closed ∨ ¬ (word.phase = .idle ∨ word.phase = .active) ∨ word.permit ∨
      word.resource.isSome then none
  else
    let offered := word.withResource (some selection)
    some (if word.phase = .active then offered.claimed .ready else offered.withPermit true)

/-- Candidate for a consumption; never modifies a write-exclusive publication. -/
def resourceTake (word : WaitWord) : Option (WaitWord × ResourceSelection) :=
  if word.phase = .binding ∨ word.isClaimed then none
  else word.resource.map fun resource => (word.withResource none, resource)

/-! ## Claimed words -/

theorem isClaimed_iff {word : WaitWord} :
    word.isClaimed = true ↔ ∃ cause, word.phase = .claim cause := by
  cases phase : word.phase <;> simp [isClaimed, phase]

theorem isClaimed_eq_false {word : WaitWord} (other : ∀ cause, word.phase ≠ .claim cause) :
    word.isClaimed = false := by
  rw [← Bool.not_eq_true, isClaimed_iff]
  rintro ⟨cause, phase⟩
  exact other cause phase

theorem isClaimed_congr {left right : WaitWord} (same : left.phase = right.phase) :
    left.isClaimed = right.isClaimed := by
  rw [isClaimed, isClaimed, same]

@[simp] theorem isClaimed_withPermit (word : WaitWord) (permit : Bool) :
    (word.withPermit permit).isClaimed = word.isClaimed := rfl

theorem selectedCause_eq_some {word : WaitWord} {cause : WakeCause} :
    word.selectedCause = some cause ↔ word.phase = .selected cause := by
  cases phase : word.phase <;> simp [selectedCause, phase]

end WaitWord

theorem unclaimed_of_idle {word : WaitWord} (idle : word.phase = .idle) :
    word.isClaimed = false :=
  WaitWord.isClaimed_eq_false (by simp [idle])

theorem unclaimed_of_active {word : WaitWord} (active : word.phase = .active) :
    word.isClaimed = false :=
  WaitWord.isClaimed_eq_false (by simp [active])

end VThread.Wait

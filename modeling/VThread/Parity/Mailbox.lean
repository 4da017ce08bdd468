import Mathlib.Logic.Function.Basic
import VThread.Lib.Rounds
import VThread.Lib.Transition

/-!
# The parity mailbox

Publishers flip the bit of their route in one word, which also carries the sleeping bit; the
consumer acknowledges a route by flipping the bit in a word of its own.  Every atomic
operation is one step.

A publisher starts only when its route is not reserved, and the consumer releases a route
when it returns from `pop`.
-/

namespace VThread.Parity

open VThread.Lib

abbrev Word := BitVec 64

/-- `ROUTES`. -/
abbrev routes : Nat := 63

abbrev Route := Fin routes

/-- `1 << route`. -/
def bit (route : Nat) : Word := 1#64 <<< route

/-- `SLEEPING`. -/
def sleeping : Word := bit 63

/-- `ROUTE_MASK`. -/
def routeMask : Word := ~~~sleeping

/-- The words, the route reservations of the callers and what they have seen. -/
structure Mailbox (ι : Type) where
  published : Word
  seen : Word
  batch : Word
  reserved : Route → Option ι
  trace : List (RoundEvent Route)

variable {ι : Type}

/-- `WakeMailbox::new`. -/
def Mailbox.new : Mailbox ι := ⟨0, 0, 0, fun _ => none, []⟩

def Mailbox.log (mailbox : Mailbox ι) (event : RoundEvent Route) : Mailbox ι :=
  { mailbox with trace := mailbox.trace ++ [event] }

inductive Party (ι : Type) where
  | publisher (id : ι)
  | consumer
  deriving DecidableEq

/-- The next step of a party. -/
inductive Pc where
  | idle
  /-- `publish`: flip the bit. -/
  | flip (route : Route)
  /-- `publish`: look for the sleeping bit. -/
  | ring
  /-- `publish`: "mailbox route out of bounds". -/
  | panicked
  /-- `pop`: load the batch. -/
  | popBatch (seen : Word)
  /-- `pop`: load the published word. -/
  | popWord (seen : Word)
  /-- `pop`: store the rest of the batch. -/
  | popStore (seen batch : Word)
  /-- `pop`: store the acknowledgement. -/
  | popAck (seen : Word) (route : Nat)
  /-- `has_pending`: load the owner's word. -/
  | pendingSeen (word : Word)
  /-- `arm_wait`: load the published word. -/
  | armLoad (seen : Word)
  /-- `arm_wait`: set the sleeping bit. -/
  | armSwap (seen word : Word)
  deriving DecidableEq

inductive Choice where
  | publish (route : Nat)
  | pop
  | hasPending
  | armWait
  | disarmWait
  /-- A weak exchange fails for no reason. -/
  | spurious
  | go
  deriving DecidableEq

/-- `publish`. -/
def publishStep (id : ι) : Choice → Mailbox ι → Pc → Option (Mailbox ι × Pc)
  | .publish route, mailbox, .idle =>
      if bound : route < routes then
        if mailbox.reserved ⟨route, bound⟩ = none then
          some ({ mailbox with
            reserved := Function.update mailbox.reserved ⟨route, bound⟩ (some id) },
            .flip ⟨route, bound⟩)
        else none
      else some (mailbox, .panicked)
  | .go, mailbox, .flip route =>
      some ({ mailbox with published := mailbox.published ^^^ bit route }.log (.publish route),
        .ring)
  | .go, mailbox, .ring =>
      some (mailbox.log (.ring (mailbox.published &&& sleeping != 0)), .idle)
  | _, _, _ => none

/-- The loop of `arm_wait` on a word it has read. -/
def armTest (mailbox : Mailbox ι) (seen word : Word) : Mailbox ι × Pc :=
  if (word ^^^ seen) &&& routeMask ≠ 0 then (mailbox.log (.arm true), .idle)
  else if word &&& sleeping ≠ 0 then (mailbox.log (.arm false), .idle)
  else (mailbox, .armSwap seen word)

/-- `pop`, `has_pending`, `arm_wait` and `disarm_wait`. -/
def consumeStep : Choice → Mailbox ι → Pc → Option (Mailbox ι × Pc)
  | .pop, mailbox, .idle => some (mailbox, .popBatch mailbox.seen)
  | .go, mailbox, .popBatch seen =>
      if mailbox.batch = 0 then some (mailbox, .popWord seen)
      else some (mailbox, .popStore seen mailbox.batch)
  | .go, mailbox, .popWord seen =>
      if (mailbox.published ^^^ seen) &&& routeMask = 0 then some (mailbox.log .empty, .idle)
      else some (mailbox.log .capture, .popStore seen ((mailbox.published ^^^ seen) &&& routeMask))
  | .go, mailbox, .popStore seen batch =>
      some ({ mailbox with batch := batch ^^^ bit batch.ctz.toNat }, .popAck seen batch.ctz.toNat)
  | .go, mailbox, .popAck seen route =>
      some ({ mailbox with
        seen := seen ^^^ bit route
        reserved := Function.update mailbox.reserved (Fin.ofNat routes route) none }.log
          (.pop (Fin.ofNat routes route)), .idle)
  | .hasPending, mailbox, .idle => some (mailbox, .pendingSeen mailbox.published)
  | .go, mailbox, .pendingSeen word =>
      some (mailbox.log (.check ((word ^^^ mailbox.seen) &&& routeMask != 0)), .idle)
  | .armWait, mailbox, .idle => some (mailbox, .armLoad mailbox.seen)
  | .go, mailbox, .armLoad seen => some (armTest mailbox seen mailbox.published)
  | .go, mailbox, .armSwap seen word =>
      if mailbox.published = word then
        some ({ mailbox with published := word ||| sleeping }.log (.arm false), .idle)
      else some (armTest mailbox seen mailbox.published)
  | .spurious, mailbox, .armSwap seen _ => some (armTest mailbox seen mailbox.published)
  | .disarmWait, mailbox, .idle =>
      some ({ mailbox with published := mailbox.published &&& routeMask }.log .disarm, .idle)
  | _, _, _ => none

def nextStep : Party ι → Choice → Mailbox ι → Pc → Option (Mailbox ι × Pc)
  | .publisher id, choice, mailbox, pc => publishStep id choice mailbox pc
  | .consumer, choice, mailbox, pc => consumeStep choice mailbox pc

def program (ι : Type) : Program (Party ι) (Mailbox ι) Pc where
  initial mailbox := mailbox = .new
  start := .idle
  advance party mailbox pc mailbox' pc' :=
    ∃ choice, nextStep party choice mailbox pc = some (mailbox', pc')

def scheduler (ι : Type) : (program ι).Scheduler Choice where
  next party choice mailbox pc := nextStep party choice mailbox pc
  sound _ choice _ _ _ taken := ⟨choice, taken⟩

/-! ## Bits -/

theorem Route.small (route : Route) : (route : Nat) < 64 :=
  Nat.lt_trans route.isLt (by decide)

@[simp] theorem getLsbD_bit (route index : Nat) (small : route < 64) :
    (bit route).getLsbD index = decide (index = route) := by
  rw [bit, ← BitVec.twoPow_eq, BitVec.getLsbD_twoPow]
  simp [small, eq_comm]

@[simp] theorem getLsbD_sleeping (index : Nat) :
    sleeping.getLsbD index = decide (index = 63) := getLsbD_bit 63 index (by decide)

@[simp] theorem getLsbD_routeMask (index : Nat) :
    routeMask.getLsbD index = decide (index < 63) := by
  rw [routeMask, BitVec.getLsbD_not, getLsbD_sleeping]
  by_cases small : index < 63
  · have inside : index < 64 := by omega
    have differs : index ≠ 63 := by omega
    simp [small, inside, differs]
  · by_cases last : index = 63
    · simp [last]
    · have outside : ¬ index < 64 := by omega
      simp [small, outside]

/-- A masked word vanishes when no route has its bit set. -/
theorem masked_eq_zero {word : Word} :
    word &&& routeMask = 0 ↔ ∀ route : Route, word.getLsbD route = false := by
  constructor
  · intro zero route
    have selected := congrArg (fun bits => bits.getLsbD route) zero
    simpa [route.isLt] using selected
  · intro clear
    apply BitVec.eq_of_getLsbD_eq
    intro index _
    by_cases small : index < 63
    · simp [clear ⟨index, small⟩]
    · simp [small]

theorem sleeping_set {word : Word} : word &&& sleeping ≠ 0 ↔ word.getLsbD 63 = true := by
  constructor
  · intro some
    by_contra clear
    apply some
    apply BitVec.eq_of_getLsbD_eq
    intro index _
    rw [BitVec.getLsbD_and, getLsbD_sleeping]
    by_cases last : index = 63
    · rw [last, Bool.eq_false_iff.mpr clear]
      rfl
    · simp [last]
  · intro set zero
    have selected := congrArg (fun bits => bits.getLsbD 63) zero
    simp only [BitVec.getLsbD_and, getLsbD_sleeping, set] at selected
    cases selected

end VThread.Parity

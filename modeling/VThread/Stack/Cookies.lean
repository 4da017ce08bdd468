import Mathlib.Data.List.Nodup
import VThread.Lib.Checked
import VThread.Lib.Transition
import VThread.Lib.Word

/-!
# Unwind cookies

Every thread draws cookies from blocks of the process: a cell of its own holds its next cookie, and
a cookie without low bits asks for a fresh block of the shared counter instead.
-/

namespace VThread.Stack.Cookie

open VThread.Lib

def cookieBlockBits : UInt64 := 32

/-- `u64::MAX`. -/
def maximum : UInt64 := 0xFFFFFFFFFFFFFFFF

/-- The first cookie on a carrier, or an exhausted block. -/
def asks (cookie : UInt64) : Prop := cookie &&& ((1 <<< cookieBlockBits) - 1) = 0

instance (cookie : UInt64) : Decidable (asks cookie) := by
  unfold asks
  infer_instance

/-- The closure of `fetch_update`. -/
def claim (block : UInt64) : Option UInt64 :=
  if block ≤ maximum >>> cookieBlockBits then some (block + 1) else none

/-- One call, with the cell of its thread and the counter, that no other thread meets. -/
def allocateCookie (next blocks : UInt64) : Checked UInt64 × UInt64 × UInt64 :=
  if asks next then
    match claim blocks with
    | none => (.error "unwind cookie blocks exhausted", next, blocks)
    | some claimed =>
        let cookie := blocks <<< cookieBlockBits
        (.ok cookie, cookie + 1, claimed)
  else (.ok next, next + 1, blocks)

/-! ## Every interleaving -/

/-- Where a thread is: between calls, with the answer of the last one, about to claim a block, or
about to store what follows the cookie that it returns. -/
inductive Stage where
  | rest (answer : Option (Checked UInt64))
  | claiming
  | storing (cookie : UInt64)

/-- A thread and its `NEXT_COOKIE`. -/
structure Local where
  next : UInt64
  stage : Stage

/-- The counter `NEXT_BLOCK`.  The cookies returned so far, and who claimed a block, are kept
beside. -/
structure Shared (ι : Type) where
  blocks : UInt64
  returned : List UInt64
  owner : Nat → Option ι

variable {ι : Type}

/-- The next atomic step of a thread: start a call, claim, or return. -/
def step (thread : ι) (shared : Shared ι) (pc : Local) : Shared ι × Local :=
  match pc.stage with
  | .rest _ =>
      (shared, { pc with stage := if asks pc.next then .claiming else .storing pc.next })
  | .claiming =>
      match claim shared.blocks with
      | none =>
          (shared, { pc with stage := .rest (some (.error "unwind cookie blocks exhausted")) })
      | some claimed =>
          ({ shared with
              blocks := claimed
              owner := fun block =>
                if block = shared.blocks.toNat then some thread else shared.owner block },
            { pc with stage := .storing (shared.blocks <<< cookieBlockBits) })
  | .storing cookie =>
      ({ shared with returned := cookie :: shared.returned },
        ⟨cookie + 1, .rest (some (.ok cookie))⟩)

variable (ι) in
/-- Calls on every thread, from cells of 0 and a counter of 1. -/
def program : Program ι (Shared ι) Local where
  initial shared := shared = ⟨1, [], fun _ => none⟩
  start := ⟨0, .rest none⟩
  advance thread shared pc shared' pc' := (shared', pc') = step thread shared pc

/-- All threads after one takes its next step. -/
def after [DecidableEq ι] (state : Threads ι (Shared ι) Local) (thread : ι) :
    Threads ι (Shared ι) Local :=
  let moved := step thread state.shared (state.locals thread)
  ⟨moved.1, fun other => if other = thread then moved.2 else state.locals other⟩

theorem step_after [DecidableEq ι] (state : Threads ι (Shared ι) Local) (thread : ι) :
    (program ι).Step state (after state thread) :=
  .mk thread rfl

theorem after_eq [DecidableEq ι] {state next : Threads ι (Shared ι) Local}
    (taken : (program ι).Step state next) : ∃ thread, next = after state thread := by
  cases taken with
  | mk thread moved =>
      refine ⟨thread, ?_⟩
      obtain ⟨rfl, rfl⟩ := Prod.mk.inj moved
      rfl

/-! ## Blocks -/

/-- The block that a cookie is of. -/
def block (cookie : UInt64) : Nat := cookie.toNat / 2 ^ 32

theorem power : (1 <<< cookieBlockBits : UInt64).toNat = 2 ^ 32 := by decide

theorem asks_iff {cookie : UInt64} : asks cookie ↔ cookie.toNat % 2 ^ 32 = 0 := by
  rw [asks, ← UInt64.toNat_inj, Word.toNat_and_mask power]
  rfl

/-- No block is left. -/
def Exhausted (blocks : UInt64) : Prop := maximum >>> cookieBlockBits < blocks

theorem exhausted_iff {blocks : UInt64} : Exhausted blocks ↔ 2 ^ 32 ≤ blocks.toNat := by
  rw [Exhausted, UInt64.lt_iff_toNat_lt]
  exact Nat.succ_le_iff.symm

theorem claim_exhausted {blocks : UInt64} (exhausted : Exhausted blocks) :
    claim blocks = none :=
  if_neg (UInt64.not_le.mpr exhausted)

theorem claim_left {blocks : UInt64} (left : ¬ Exhausted blocks) :
    claim blocks = some (blocks + 1) :=
  if_pos (UInt64.not_lt.mp left)

/-- The counter moves on by one. -/
theorem toNat_blocks_succ {blocks : UInt64} (left : ¬ Exhausted blocks) :
    (blocks + 1).toNat = blocks.toNat + 1 := by
  rw [exhausted_iff] at left
  have one : (1 : UInt64).toNat = 1 := rfl
  rw [Word.toNat_add_of_lt (by omega), one]

/-- The first cookie of a block: the shift loses no bit. -/
theorem toNat_first {blocks : UInt64} (left : ¬ Exhausted blocks) :
    (blocks <<< cookieBlockBits).toNat = blocks.toNat * 2 ^ 32 := by
  rw [exhausted_iff] at left
  have bits : cookieBlockBits.toNat % 64 = 32 := by decide
  rw [UInt64.toNat_shiftLeft, bits, Nat.shiftLeft_eq, Nat.mod_eq_of_lt (by omega)]

theorem toNat_maximum : maximum.toNat = 2 ^ 64 - 1 := by decide

/-- The next cookie follows, but for the last one of all. -/
theorem toNat_succ {cookie : UInt64} (below : cookie ≠ maximum) :
    (cookie + 1).toNat = cookie.toNat + 1 := by
  have one : (1 : UInt64).toNat = 1 := rfl
  have different : cookie.toNat ≠ maximum.toNat := fun same => below (UInt64.toNat_inj.mp same)
  rw [toNat_maximum] at different
  have := cookie.toNat_lt
  rw [Word.toNat_add_of_lt (by omega), one]

/-- The last cookie of all is followed by a request. -/
theorem maximum_succ : maximum + 1 = 0 := by decide

theorem asks_zero : asks 0 := by decide

/-! ## What threads own -/

structure Counts (shared : Shared ι) : Prop where
  started : 1 ≤ shared.blocks.toNat
  bounded : shared.blocks.toNat ≤ 2 ^ 32
  distinct : shared.returned.Nodup
  claimed : ∀ cookie ∈ shared.returned, 1 ≤ block cookie ∧ block cookie < shared.blocks.toNat

/-- A thread may return a cookie: it claimed its block, and returned only earlier ones of it. -/
structure Holds (thread : ι) (shared : Shared ι) (cookie : UInt64) : Prop where
  owned : shared.owner (block cookie) = some thread
  numbered : 1 ≤ block cookie ∧ block cookie < shared.blocks.toNat
  fresh : ∀ other ∈ shared.returned, block other = block cookie → other.toNat < cookie.toNat

def Mine (thread : ι) (shared : Shared ι) (pc : Local) : Prop :=
  match pc.stage with
  | .rest _ => ¬ asks pc.next → Holds thread shared pc.next
  | .claiming => asks pc.next
  | .storing cookie => Holds thread shared cookie

theorem counts_initial : Counts (⟨1, [], fun _ => none⟩ : Shared ι) where
  started := Nat.le_refl 1
  bounded := Nat.one_le_two_pow
  distinct := List.nodup_nil
  claimed := by simp

/-- A thread claims a block. -/
def Shared.take (shared : Shared ι) (thread : ι) : Shared ι :=
  { shared with
    blocks := shared.blocks + 1
    owner := fun block =>
      if block = shared.blocks.toNat then some thread else shared.owner block }

theorem Counts.take {shared : Shared ι} (counts : Counts shared)
    (left : ¬ Exhausted shared.blocks) (thread : ι) : Counts (shared.take thread) := by
  have grown := toNat_blocks_succ left
  have room := exhausted_iff.not.mp left
  constructor
  case started =>
    rw [Shared.take, grown]
    omega
  case bounded =>
    rw [Shared.take, grown]
    omega
  case distinct => exact counts.distinct
  case claimed =>
    intro cookie member
    have bounds := counts.claimed cookie member
    rw [Shared.take, grown]
    omega

/-- The first cookie of a claimed block. -/
theorem holds_take {shared : Shared ι} (counts : Counts shared)
    (left : ¬ Exhausted shared.blocks) (thread : ι) :
    Holds thread (shared.take thread) (shared.blocks <<< cookieBlockBits) := by
  have first : block (shared.blocks <<< cookieBlockBits) = shared.blocks.toNat := by
    rw [block, toNat_first left, Nat.mul_div_cancel _ (by decide)]
  constructor
  case owned => simp [Shared.take, first]
  case numbered =>
    rw [first, Shared.take, toNat_blocks_succ left]
    exact ⟨counts.started, Nat.lt_succ_self _⟩
  case fresh =>
    intro other member same
    have bounds := counts.claimed other member
    omega

theorem Holds.take {shared : Shared ι} {other thread : ι} {cookie : UInt64}
    (holds : Holds other shared cookie) (left : ¬ Exhausted shared.blocks) :
    Holds other (shared.take thread) cookie := by
  have earlier := holds.numbered
  constructor
  case owned =>
    have different : block cookie ≠ shared.blocks.toNat := by omega
    simpa [Shared.take, different] using holds.owned
  case numbered =>
    rw [Shared.take, toNat_blocks_succ left]
    omega
  case fresh => exact holds.fresh

/-- A cookie is returned. -/
def Shared.give (shared : Shared ι) (cookie : UInt64) : Shared ι :=
  { shared with returned := cookie :: shared.returned }

theorem Counts.give {shared : Shared ι} {thread : ι} {cookie : UInt64} (counts : Counts shared)
    (holds : Holds thread shared cookie) : Counts (shared.give cookie) := by
  constructor
  case started => exact counts.started
  case bounded => exact counts.bounded
  case distinct =>
    apply List.nodup_cons.mpr
    refine ⟨fun member => ?_, counts.distinct⟩
    exact absurd (holds.fresh cookie member rfl) (Nat.lt_irrefl _)
  case claimed =>
    intro other member
    cases List.mem_cons.mp member with
    | inl same => exact same ▸ holds.numbered
    | inr earlier => exact counts.claimed other earlier

/-- The cookie after a returned one, unless it asks for a block. -/
theorem Holds.succ {shared : Shared ι} {thread : ι} {cookie : UInt64}
    (holds : Holds thread shared cookie) (inside : ¬ asks (cookie + 1)) :
    Holds thread (shared.give cookie) (cookie + 1) := by
  have below : cookie ≠ maximum := by
    intro last
    apply inside
    rw [last, maximum_succ]
    exact asks_zero
  have follows := toNat_succ below
  have same : block (cookie + 1) = block cookie := by
    rw [asks_iff, follows] at inside
    rw [block, block, follows]
    omega
  constructor
  case owned =>
    rw [same]
    exact holds.owned
  case numbered =>
    rw [same]
    exact holds.numbered
  case fresh =>
    intro other member together
    rw [follows]
    cases List.mem_cons.mp member with
    | inl returned =>
        subst returned
        exact Nat.lt_succ_self _
    | inr earlier =>
        have := holds.fresh other earlier (together.trans same)
        omega

theorem Holds.give {shared : Shared ι} {thread other : ι} {cookie mine : UInt64}
    (different : other ≠ thread) (holds : Holds thread shared cookie)
    (others : Holds other shared mine) : Holds other (shared.give cookie) mine := by
  constructor
  case owned => exact others.owned
  case numbered => exact others.numbered
  case fresh =>
    intro third member together
    cases List.mem_cons.mp member with
    | inl returned =>
        subst returned
        have owners := holds.owned
        rw [together, others.owned] at owners
        exact absurd (Option.some.inj owners) different
    | inr earlier => exact others.fresh third earlier together

/-! ## Steps -/

section Steps

variable (thread : ι) (shared : Shared ι) (pc : Local)

theorem step_rest {answer : Option (Checked UInt64)} (stage : pc.stage = .rest answer) :
    step thread shared pc =
      (shared, { pc with stage := if asks pc.next then .claiming else .storing pc.next }) := by
  simp [step, stage]

theorem step_refused (stage : pc.stage = .claiming) (exhausted : Exhausted shared.blocks) :
    step thread shared pc = (shared,
      { pc with stage := .rest (some (.error "unwind cookie blocks exhausted")) }) := by
  simp [step, stage, claim_exhausted exhausted]

theorem step_claimed (stage : pc.stage = .claiming) (left : ¬ Exhausted shared.blocks) :
    step thread shared pc = (shared.take thread,
      { pc with stage := .storing (shared.blocks <<< cookieBlockBits) }) := by
  simp [step, stage, claim_left left, Shared.take]

theorem step_stored {cookie : UInt64} (stage : pc.stage = .storing cookie) :
    step thread shared pc =
      (shared.give cookie, ⟨cookie + 1, .rest (some (.ok cookie))⟩) := by
  simp [step, stage, Shared.give]

/-- Steps of a thread that no other interrupts are a call. -/
theorem allocateCookie_steps {answer : Option (Checked UInt64)}
    (stage : pc.stage = .rest answer) :
    ∃ count shared',
      (fun state => step thread state.1 state.2)^[count] (shared, pc) =
        (shared', ⟨(allocateCookie pc.next shared.blocks).2.1,
          .rest (some (allocateCookie pc.next shared.blocks).1)⟩) ∧
      shared'.blocks = (allocateCookie pc.next shared.blocks).2.2 := by
  have starts := step_rest thread shared pc stage
  by_cases asking : asks pc.next
  · rw [if_pos asking] at starts
    by_cases exhausted : Exhausted shared.blocks
    · have refused := step_refused thread shared ⟨pc.next, .claiming⟩ rfl exhausted
      refine ⟨2, shared, ?_, ?_⟩ <;>
        simp [starts, refused, allocateCookie, asking, claim_exhausted exhausted]
    · have claimed := step_claimed thread shared ⟨pc.next, .claiming⟩ rfl exhausted
      have stored := step_stored thread (shared.take thread)
        ⟨pc.next, .storing (shared.blocks <<< cookieBlockBits)⟩ rfl
      refine ⟨3, (shared.take thread).give (shared.blocks <<< cookieBlockBits), ?_, ?_⟩
      · simp [starts, claimed, stored, allocateCookie, asking, claim_left exhausted]
      · simp [allocateCookie, asking, claim_left exhausted, Shared.take, Shared.give]
  · rw [if_neg asking] at starts
    have stored := step_stored thread shared ⟨pc.next, .storing pc.next⟩ rfl
    refine ⟨2, shared.give pc.next, ?_, ?_⟩
    · simp [starts, stored, allocateCookie, asking]
    · simp [allocateCookie, asking, Shared.give]

end Steps

theorem own_step (thread : ι) (shared : Shared ι) (pc : Local) (counts : Counts shared)
    (mine : Mine thread shared pc) :
    Counts (step thread shared pc).1 ∧
      Mine thread (step thread shared pc).1 (step thread shared pc).2 := by
  rw [Mine] at mine
  cases stage : pc.stage with
  | rest answer =>
      rw [stage] at mine
      rw [step_rest thread shared pc stage]
      refine ⟨counts, ?_⟩
      by_cases asking : asks pc.next
      · simp [Mine, asking]
      · simpa [Mine, asking] using mine asking
  | claiming =>
      rw [stage] at mine
      by_cases exhausted : Exhausted shared.blocks
      · rw [step_refused thread shared pc stage exhausted]
        exact ⟨counts, fun inside => absurd mine inside⟩
      · rw [step_claimed thread shared pc stage exhausted]
        exact ⟨counts.take exhausted thread, holds_take counts exhausted thread⟩
  | storing cookie =>
      rw [stage] at mine
      rw [step_stored thread shared pc stage]
      exact ⟨counts.give mine, mine.succ⟩

/-- Steps of a thread leave the others what they hold. -/
theorem others_step (thread other : ι) (shared : Shared ι) (pc otherPc : Local)
    (different : other ≠ thread) (mine : Mine thread shared pc)
    (others : Mine other shared otherPc) :
    Mine other (step thread shared pc).1 otherPc := by
  have keeps : ∀ cookie, Holds other shared cookie →
      Holds other (step thread shared pc).1 cookie := by
    intro cookie holds
    rw [Mine] at mine
    cases stage : pc.stage with
    | rest answer =>
        rw [step_rest thread shared pc stage]
        exact holds
    | claiming =>
        by_cases exhausted : Exhausted shared.blocks
        · rw [step_refused thread shared pc stage exhausted]
          exact holds
        · rw [step_claimed thread shared pc stage exhausted]
          exact holds.take exhausted
    | storing =>
        rw [stage] at mine
        rw [step_stored thread shared pc stage]
        exact mine.give different holds
  rw [Mine] at others ⊢
  cases stage : otherPc.stage with
  | rest answer =>
      rw [stage] at others
      exact fun inside => keeps _ (others inside)
  | claiming =>
      rw [stage] at others
      exact others
  | storing cookie =>
      rw [stage] at others
      exact keeps _ others

theorem reachable_inv [DecidableEq ι] {state : Threads ι (Shared ι) Local}
    (reachable : (program ι).system.Reachable state) :
    Counts state.shared ∧ ∀ thread, Mine thread state.shared (state.locals thread) := by
  refine Program.invariant ?_ ?_ ?_ reachable
  · rintro shared rfl
    exact ⟨counts_initial, fun thread inside => absurd asks_zero inside⟩
  · intro thread shared pc shared' pc' counts mine moved
    obtain ⟨rfl, rfl⟩ := Prod.mk.inj moved
    exact own_step thread shared pc counts mine
  · intro thread other shared pc otherPc shared' pc' different counts mine others moved
    obtain ⟨rfl, rfl⟩ := Prod.mk.inj moved
    exact others_step thread other shared pc otherPc different mine others

/-! ## Uniqueness and exhaustion -/

section Uniqueness

variable [DecidableEq ι]

theorem after_locals (state : Threads ι (Shared ι) Local) (thread : ι) :
    (after state thread).locals thread = (step thread state.shared (state.locals thread)).2 := by
  simp [after]

/-- What holds in a state: cookies are unique, no shift loses a bit, and the only sum that wraps
is that of the last cookie of all, which asks for a block when none is left. -/
structure Law (state : Threads ι (Shared ι) Local) : Prop where
  distinct : state.shared.returned.Nodup
  nonzero : ∀ cookie ∈ state.shared.returned, cookie ≠ 0
  claims : ∀ thread, (state.locals thread).stage = .claiming →
    ¬ Exhausted state.shared.blocks →
      (state.shared.blocks + 1).toNat = state.shared.blocks.toNat + 1 ∧
        (state.shared.blocks <<< cookieBlockBits).toNat = state.shared.blocks.toNat * 2 ^ 32
  adds : ∀ thread cookie, (state.locals thread).stage = .storing cookie → cookie ≠ maximum →
    (cookie + 1).toNat = cookie.toNat + 1
  wraps : ∀ thread, (state.locals thread).stage = .storing maximum →
    maximum + 1 = 0 ∧ asks (maximum + 1) ∧ Exhausted state.shared.blocks

omit [DecidableEq ι] in
theorem Law.of_inv {state : Threads ι (Shared ι) Local} (counts : Counts state.shared)
    (mine : ∀ thread, Mine thread state.shared (state.locals thread)) : Law state where
  distinct := counts.distinct
  nonzero := by
    rintro cookie member rfl
    exact absurd (counts.claimed 0 member).1 (by decide)
  claims _ _ left := ⟨toNat_blocks_succ left, toNat_first left⟩
  adds _ _ _ below := toNat_succ below
  wraps thread stage := by
    refine ⟨maximum_succ, asks_zero, exhausted_iff.mpr ?_⟩
    have holds := mine thread
    rw [Mine, stage] at holds
    have last : block maximum = 2 ^ 32 - 1 := by decide
    have := holds.numbered
    omega

/-- The cookies that calls of one more step return are those added. -/
def Logged (thread : ι) (state next : Threads ι (Shared ι) Local) : Prop :=
  match (next.locals thread).stage with
  | .rest (some (.ok cookie)) => next.shared.returned = cookie :: state.shared.returned
  | _ => next.shared.returned = state.shared.returned

theorem logged_after (state : Threads ι (Shared ι) Local) (thread : ι) :
    Logged thread state (after state thread) := by
  rw [Logged, after_locals]
  cases stage : (state.locals thread).stage with
  | rest answer =>
      rw [step_rest _ _ _ stage]
      by_cases asking : asks (state.locals thread).next <;>
        simp [asking, after, step_rest _ _ _ stage]
  | claiming =>
      by_cases exhausted : Exhausted state.shared.blocks
      · simp [after, step_refused _ _ _ stage exhausted]
      · simp [after, step_claimed _ _ _ stage exhausted, Shared.take]
  | storing cookie =>
      simp [after, step_stored _ _ _ stage, Shared.give]

/-- What a call of a resting thread answers, whatever the others do between its steps: the cookie
of its cell inside a block, else a panic or the first cookie of a fresh block. -/
structure Call (thread : ι) (state : Threads ι (Shared ι) Local) : Prop where
  inside : ¬ asks (state.locals thread).next →
    ∀ meanwhile, (program ι).Aside thread (after state thread) meanwhile →
      ((after meanwhile thread).locals thread).stage =
        .rest (some (.ok (state.locals thread).next))
  refused : asks (state.locals thread).next →
    ∀ meanwhile, (program ι).Aside thread (after state thread) meanwhile →
      Exhausted meanwhile.shared.blocks →
        (after meanwhile thread).shared = meanwhile.shared ∧
          (after meanwhile thread).locals thread =
            ⟨(state.locals thread).next,
              .rest (some (.error "unwind cookie blocks exhausted"))⟩
  served : asks (state.locals thread).next →
    ∀ meanwhile, (program ι).Aside thread (after state thread) meanwhile →
      ¬ Exhausted meanwhile.shared.blocks →
        ∀ later, (program ι).Aside thread (after meanwhile thread) later →
          ((after later thread).locals thread).stage =
            .rest (some (.ok (meanwhile.shared.blocks <<< cookieBlockBits)))

theorem call_of_rest {state : Threads ι (Shared ι) Local} {thread : ι}
    {answer : Option (Checked UInt64)} (resting : (state.locals thread).stage = .rest answer) :
    Call thread state := by
  have begins := after_locals state thread
  rw [step_rest _ _ _ resting] at begins
  constructor
  case inside =>
    intro within meanwhile aside
    have stays := aside.locals.trans begins
    rw [if_neg within] at stays
    rw [after_locals, step_stored _ _ _ (congrArg Local.stage stays)]
  case refused =>
    intro asking meanwhile aside exhausted
    have stays := aside.locals.trans begins
    rw [if_pos asking] at stays
    have taken := step_refused thread meanwhile.shared _ (congrArg Local.stage stays) exhausted
    rw [after_locals, after, taken, stays]
    exact ⟨rfl, rfl⟩
  case served =>
    intro asking meanwhile aside left later then'
    have stays := aside.locals.trans begins
    rw [if_pos asking] at stays
    have taken := after_locals meanwhile thread
    rw [step_claimed _ _ _ (congrArg Local.stage stays) left] at taken
    have stored := then'.locals.trans taken
    rw [after_locals, step_stored _ _ _ (congrArg Local.stage stored)]

/-- An exhausted counter stays where it is. -/
theorem exhausted_step {state next : Threads ι (Shared ι) Local}
    (exhausted : Exhausted state.shared.blocks) (taken : (program ι).Step state next) :
    next.shared.blocks = state.shared.blocks := by
  obtain ⟨thread, rfl⟩ := after_eq taken
  cases stage : (state.locals thread).stage with
  | rest answer => rw [after, step_rest _ _ _ stage]
  | claiming => rw [after, step_refused _ _ _ stage exhausted]
  | storing cookie => rw [after, step_stored _ _ _ stage, Shared.give]

theorem exhausted_forever {state later : Threads ι (Shared ι) Local}
    (exhausted : Exhausted state.shared.blocks)
    (run : Relation.ReflTransGen (program ι).Step state later) :
    later.shared.blocks = state.shared.blocks := by
  induction run with
  | refl => rfl
  | tail _ taken ih => exact (exhausted_step (ih ▸ exhausted) taken).trans ih

/-- Over every interleaving, cookies are unique until exhaustion, and no call returns an earlier
one after it. -/
theorem cookies_unique {state : Threads ι (Shared ι) Local}
    (reachable : (program ι).system.Reachable state) :
    Law state ∧ (∀ thread, Logged thread state (after state thread)) ∧
      (∀ thread answer, (state.locals thread).stage = .rest answer → Call thread state) ∧
      (Exhausted state.shared.blocks →
        ∀ later, Relation.ReflTransGen (program ι).Step state later →
          later.shared.blocks = state.shared.blocks) := by
  obtain ⟨counts, mine⟩ := reachable_inv reachable
  exact ⟨.of_inv counts mine, logged_after state, fun _ _ => call_of_rest,
    fun exhausted _ => exhausted_forever exhausted⟩

end Uniqueness

/-- Before the first call. -/
def initially : Threads ι (Shared ι) Local :=
  ⟨⟨1, [], fun _ => none⟩, fun _ => ⟨0, .rest none⟩⟩

theorem reachable_initially [DecidableEq ι] :
    (program ι).system.Reachable (initially : Threads ι (Shared ι) Local) :=
  .initial ⟨rfl, fun _ => rfl⟩

theorem reachable_foldl [DecidableEq ι] {state : Threads ι (Shared ι) Local}
    (reachable : (program ι).system.Reachable state) (schedule : List ι) :
    (program ι).system.Reachable (schedule.foldl after state) := by
  induction schedule generalizing state with
  | nil => exact reachable
  | cons thread schedule ih => exact ih (.step reachable (step_after state thread))

/-- Two threads claim a block each and draw two cookies each, in turns. -/
theorem cookies_unique_interleaved :
    let called := [false, true, true, false, true, false, true, false, false, true].foldl after
      initially
    called.shared.returned = [0x100000001, 0x200000001, 0x200000000, 0x100000000] ∧
      called.shared.blocks = 3 ∧ Law called ∧ Call false called ∧ Call true called := by
  obtain ⟨law, -, calls, -⟩ :=
    cookies_unique (reachable_foldl reachable_initially
      [false, true, true, false, true, false, true, false, false, true])
  exact ⟨by decide, by decide, law, calls false _ rfl, calls true _ rfl⟩

/-! ## The last cookie -/

/-- A thread alone draws every cookie from the first block on. -/
theorem draws (count : Nat) (fits : 2 ^ 32 + count < 2 ^ 64) :
    ∃ state cookie, (program Unit).system.Reachable state ∧
      (state.locals ()).stage = .storing cookie ∧ cookie.toNat = 2 ^ 32 + count ∧
        state.shared.blocks.toNat = block cookie + 1 := by
  induction count with
  | zero =>
      have reachable : (program Unit).system.Reachable _ :=
        .step (.step reachable_initially (step_after _ ())) (step_after _ ())
      exact ⟨_, 0x100000000, reachable, rfl, by decide, by decide⟩
  | succ count ih =>
      obtain ⟨state, cookie, reachable, stage, number, blocks⟩ := ih (by omega)
      have below : cookie ≠ maximum := by
        rintro rfl
        rw [toNat_maximum] at number
        omega
      have follows := toNat_succ below
      have stored := step_stored () state.shared (state.locals ()) stage
      have rested := after_locals state ()
      rw [stored] at rested
      have called := after_locals (after state ()) ()
      rw [rested, step_rest () _ _ rfl] at called
      have again : (program Unit).system.Reachable (after (after state ()) ()) :=
        .step (.step reachable (step_after _ ())) (step_after _ ())
      have counter : (after (after state ()) ()).shared.blocks = state.shared.blocks := by
        rw [after, rested, step_rest () _ _ rfl, after, stored, Shared.give]
      by_cases asking : asks (cookie + 1)
      · rw [if_pos asking] at called
        have low := asks_iff.mp asking
        have left : ¬ Exhausted state.shared.blocks := by
          rw [exhausted_iff, blocks, block]
          omega
        have claimed := after_locals (after (after state ()) ()) ()
        rw [called, step_claimed () _ _ rfl (by rwa [counter]), counter] at claimed
        have fresh := toNat_first left
        refine ⟨_, _, .step again (step_after _ ()), congrArg Local.stage claimed, ?_, ?_⟩
        · rw [fresh, blocks, block]
          omega
        · rw [after, called, step_claimed () _ _ rfl (by rwa [counter]), Shared.take, counter,
            toNat_blocks_succ left, block, fresh, Nat.mul_div_cancel _ (by decide)]
      · rw [if_neg asking] at called
        refine ⟨_, _, again, congrArg Local.stage called, ?_, ?_⟩
        · rw [follows, number]
          omega
        · rw [asks_iff, follows] at asking
          rw [counter, blocks, block, block, follows]
          omega

/-- The sum after the last cookie of all wraps. -/
theorem last_cookie_wraps :
    ¬ ∀ state, (program Unit).system.Reachable state →
      ∀ thread cookie, (state.locals thread).stage = .storing cookie →
        (cookie + 1).toNat = cookie.toNat + 1 := by
  intro never
  obtain ⟨state, cookie, reachable, stage, number, -⟩ :=
    draws (2 ^ 64 - 2 ^ 32 - 1) (by decide)
  have last : cookie = maximum := by
    apply UInt64.toNat_inj.mp
    rw [number, toNat_maximum]
    rfl
  have impossible := never state reachable () cookie stage
  rw [last, maximum_succ, toNat_maximum] at impossible
  exact absurd impossible (by decide)

/-- A thread alone exhausts the blocks, and asks for another one. -/
theorem runs_out : ∃ state, (program Unit).system.Reachable state ∧
    asks (state.locals ()).next ∧ Exhausted state.shared.blocks := by
  obtain ⟨state, cookie, reachable, stage, number, blocks⟩ :=
    draws (2 ^ 64 - 2 ^ 32 - 1) (by decide)
  have stored := step_stored () state.shared (state.locals ()) stage
  refine ⟨after state (), .step reachable (step_after _ ()), ?_, ?_⟩
  · have last : cookie = maximum := by
      apply UInt64.toNat_inj.mp
      rw [number, toNat_maximum]
      rfl
    rw [after_locals, stored, last]
    exact asks_zero
  · rw [after, stored, Shared.give, exhausted_iff, blocks, block, number]
    decide

/-- An exhausted allocator refuses a request and stays as it is. -/
theorem allocateCookie_exhausted {next blocks : UInt64} (asking : asks next)
    (exhausted : Exhausted blocks) :
    allocateCookie next blocks = (.error "unwind cookie blocks exhausted", next, blocks) := by
  simp [allocateCookie, asking, claim_exhausted exhausted]

end VThread.Stack.Cookie

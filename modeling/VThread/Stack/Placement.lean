import VThread.Stack.Cookies
import VThread.Stack.Mapping

/-!
# Where a fiber begins

The control block and the entry closure of a fiber sit at the top of its own stack, above an aligned
first frame.
-/

namespace VThread.Stack.Place

open VThread.Lib VThread.Stack.Mapping

/-- Required stack pointer alignment at call boundaries. -/
def stackAlignment : UInt64 := 16

/-- Ordinary frames below the first one always get at least this much room. -/
def minHeadroom : UInt64 := 4096

inductive Target where
  | x86_64_sysv
  | aarch64_macos
  deriving DecidableEq

def Target.frameLen : Target → UInt64
  | .x86_64_sysv => 32
  | .aarch64_macos => 176

/-- The size and the alignment of a type, a power of two. -/
structure Layout where
  size : UInt64
  align : UInt64
  power : ∃ bits, align.toNat = 2 ^ bits

/-- The layout of `FiberCore`, of fields that are words and pointers: as of every type, its size is
a multiple of its alignment. -/
structure ControlBlock extends Layout where
  whole : align.toNat ∣ size.toNat
  modest : align.toNat ∣ stackAlignment.toNat

def alignDown (address alignment : UInt64) : UInt64 := address &&& ~~~(alignment - 1)

section Addresses

variable (target : Target) (block : ControlBlock) (entry : Layout) (stack : MappedStack)

def core : UInt64 := alignDown (stack.base - block.size) block.align

def storage : UInt64 := alignDown (core block stack - entry.size) entry.align

def frameTop : UInt64 := alignDown (storage block entry stack) stackAlignment

def lowest : UInt64 := stack.limit + stack.guardLen + target.frameLen + minHeadroom

end Addresses

structure Placement where
  core : UInt64
  frameTop : UInt64
  deriving DecidableEq

/-- What a placement does to the memory of the stack: move the entry to an address, drop it there,
or write the control block. -/
inductive Effect where
  | entry (address : UInt64)
  | drop (address : UInt64)
  | core (address cookie : UInt64)
  deriving DecidableEq

/-- A placement that ended, with the effects so far and the cells of the cookie allocator. -/
structure Placed where
  answer : Checked Placement
  effects : List Effect
  next : UInt64
  blocks : UInt64

def unfit (entry : Layout) (stack : MappedStack) : String :=
  s!"a {entry.size} byte fiber entry does not fit on a {stack.usableLen} byte stack"

/-- `NonNull::new`. -/
def nonNull (address : UInt64) : Option UInt64 := if address = 0 then none else some address

/-- What `place` checks before it writes. -/
def check (target : Target) (block : ControlBlock) (entry : Layout) (stack : MappedStack) :
    Checked Unit := do
  ensure (lowest target stack ≤ frameTop block entry stack) (unfit entry stack)
  let _ ← expect (nonNull (storage block entry stack)) "stack addresses are never null"
  let _ ← expect (nonNull (core block stack)) "stack addresses are never null"

/-- `FiberCore::place`.  A control block without a cookie drops the entry it was made of. -/
def place (target : Target) (block : ControlBlock) (entry : Layout) (stack : MappedStack)
    (next blocks : UInt64) : Placed :=
  match check target block entry stack with
  | .error message => ⟨.error message, [], next, blocks⟩
  | .ok () =>
      let storage := storage block entry stack
      let core := core block stack
      match Cookie.allocateCookie next blocks with
      | (.error message, next, blocks) =>
          ⟨.error message, [.entry storage, .drop storage], next, blocks⟩
      | (.ok cookie, next, blocks) =>
          ⟨.ok ⟨core, frameTop block entry stack⟩, [.entry storage, .core core cookie],
            next, blocks⟩

/-! ## Rounding down -/

section Rounding

variable {address alignment : UInt64}

theorem alignDown_le (power : ∃ bits, alignment.toNat = 2 ^ bits) :
    (alignDown address alignment).toNat ≤ address.toNat := by
  obtain ⟨bits, power⟩ := power
  rw [alignDown, Word.toNat_and_not_mask power]
  exact Nat.div_mul_le_self _ _

theorem alignDown_aligned (power : ∃ bits, alignment.toNat = 2 ^ bits) :
    alignment.toNat ∣ (alignDown address alignment).toNat := by
  obtain ⟨bits, power⟩ := power
  rw [alignDown, Word.toNat_and_not_mask power, power]
  exact Nat.dvd_mul_left _ _

/-- An aligned address stays. -/
theorem alignDown_of_aligned (power : ∃ bits, alignment.toNat = 2 ^ bits)
    (aligned : alignment.toNat ∣ address.toNat) :
    (alignDown address alignment).toNat = address.toNat := by
  obtain ⟨bits, power⟩ := power
  rw [alignDown, Word.toNat_and_not_mask power, ← power]
  exact Nat.div_mul_cancel aligned

end Rounding

theorem stackAlignment_power : ∃ bits, stackAlignment.toNat = 2 ^ bits := ⟨4, by decide⟩

theorem frameLen_le (target : Target) : target.frameLen.toNat ≤ 176 := by
  cases target <;> decide

/-! ## The addresses -/

/-- No difference or sum of a placement wraps. -/
structure Exact (target : Target) (block : ControlBlock) (entry : Layout)
    (stack : MappedStack) : Prop where
  blockFits : block.size.toNat ≤ stack.base.toNat
  entryFits : entry.size.toNat ≤ (core block stack).toNat
  masks : 1 ≤ block.align.toNat ∧ 1 ≤ entry.align.toNat ∧ 1 ≤ stackAlignment.toNat
  usable : stack.guardLen.toNat ≤ stack.mappingLen.toNat
  lowest : stack.limit.toNat + stack.guardLen.toNat + target.frameLen.toNat +
    minHeadroom.toNat < 2 ^ 64

/-- Regions for the types of an entry and a control block, in the usable range and apart, above a
first frame with room. -/
structure Regions (target : Target) (block : ControlBlock) (entry : Layout)
    (stack : MappedStack) (core storage frameTop : UInt64) : Prop where
  coreAligned : block.align.toNat ∣ core.toNat
  storageAligned : entry.align.toNat ∣ storage.toNat
  disjoint : storage.toNat + entry.size.toNat ≤ core.toNat
  coreInside : core.toNat + block.size.toNat ≤ stack.base.toNat
  storageInside : stack.limit.toNat + stack.guardLen.toNat ≤ storage.toNat
  frameAligned : stackAlignment.toNat ∣ frameTop.toNat
  frameBelow : frameTop.toNat ≤ storage.toNat
  room : stack.limit.toNat + stack.guardLen.toNat + (target.frameLen.toNat + 4096) ≤
    frameTop.toNat

section Addresses

variable {target : Target} {block : ControlBlock} {entry : Layout} {stack : MappedStack}

/-- The control block ends at the base. -/
theorem core_toNat (mapped : stack.Mapped) (small : block.size.toNat ≤ stack.base.toNat) :
    (core block stack).toNat = stack.base.toNat - block.size.toNat := by
  obtain ⟨bits, large, page⟩ := mapped.page
  have whole : stackAlignment.toNat ∣ stack.guardLen.toNat := by
    have sixteen : stackAlignment.toNat = 2 ^ 4 := by decide
    rw [sixteen, page]
    exact Nat.pow_dvd_pow 2 (by omega)
  have top : block.align.toNat ∣ stack.base.toNat :=
    (block.modest.trans whole).trans mapped.baseAligned
  have difference := Word.toNat_sub_of_le small
  rw [core, alignDown_of_aligned block.power, difference]
  rw [difference]
  exact Nat.dvd_sub top block.whole

/-- Near the end of the address space the first pages still leave room for the bound. -/
theorem lowest_lt (mapped : stack.Mapped) :
    stack.limit.toNat + stack.guardLen.toNat + target.frameLen.toNat + minHeadroom.toNat <
      2 ^ 64 := by
  obtain ⟨bits, large, page⟩ := mapped.page
  have bytes : 2 ^ 12 ≤ stack.guardLen.toNat := by
    rw [page]
    exact Nat.pow_le_pow_right (by decide) large
  have headroom : minHeadroom.toNat = 4096 := by decide
  have frame := frameLen_le target
  have span := mapped.span
  have room := mapped.room
  have bounded : stack.base.toNat < 2 ^ 64 := stack.base.toNat_lt
  have last : stack.base.toNat + stack.guardLen.toNat ≤ 2 ^ 64 := by
    have inside : bits ≤ 64 := by
      have := stack.guardLen.toNat_lt
      rw [page] at this
      exact Nat.le_of_lt ((Nat.pow_lt_pow_iff_right (by decide)).mp this)
    have space : stack.guardLen.toNat ∣ 2 ^ 64 := page ▸ Nat.pow_dvd_pow 2 inside
    have gap := Nat.dvd_sub space mapped.baseAligned
    have := Nat.le_of_dvd (by omega) gap
    omega
  omega

theorem exact_of_mapped (mapped : stack.Mapped)
    (small : block.size.toNat + entry.size.toNat ≤ stack.base.toNat) :
    Exact target block entry stack := by
  have positive : ∀ {alignment : UInt64}, (∃ bits, alignment.toNat = 2 ^ bits) →
      1 ≤ alignment.toNat := by
    rintro alignment ⟨bits, power⟩
    rw [power]
    exact Nat.one_le_two_pow
  have above := core_toNat mapped (by omega : block.size.toNat ≤ stack.base.toNat)
  constructor
  case blockFits => omega
  case entryFits => omega
  case masks => exact ⟨positive block.power, positive entry.power, by decide⟩
  case usable =>
    have := mapped.room
    omega
  case lowest => exact lowest_lt mapped

theorem lowest_toNat (bounds : Exact target block entry stack) :
    (lowest target stack).toNat =
      stack.limit.toNat + stack.guardLen.toNat + target.frameLen.toNat + minHeadroom.toNat := by
  have fits := bounds.lowest
  have first : (stack.limit + stack.guardLen).toNat = stack.limit.toNat + stack.guardLen.toNat :=
    Word.toNat_add_of_lt (by omega)
  have second : (stack.limit + stack.guardLen + target.frameLen).toNat =
      stack.limit.toNat + stack.guardLen.toNat + target.frameLen.toNat := by
    rw [Word.toNat_add_of_lt (by omega), first]
  rw [lowest, Word.toNat_add_of_lt (by omega), second]

/-- The one comparison bounds all three regions. -/
theorem regions_of_check (mapped : stack.Mapped) (bounds : Exact target block entry stack)
    (checked : lowest target stack ≤ frameTop block entry stack) :
    Regions target block entry stack (core block stack) (storage block entry stack)
      (frameTop block entry stack) := by
  have enough := UInt64.le_iff_toNat_le.mp checked
  have headroom : minHeadroom.toNat = 4096 := by decide
  rw [lowest_toNat bounds, headroom] at enough
  have frame : (frameTop block entry stack).toNat ≤ (storage block entry stack).toNat :=
    alignDown_le stackAlignment_power
  have below : (storage block entry stack).toNat ≤ (core block stack - entry.size).toNat :=
    alignDown_le entry.power
  rw [Word.toNat_sub_of_le bounds.entryFits] at below
  have above := core_toNat mapped bounds.blockFits
  constructor
  case coreAligned => exact alignDown_aligned block.power
  case storageAligned => exact alignDown_aligned entry.power
  case disjoint => exact Nat.add_le_of_le_sub bounds.entryFits below
  case coreInside =>
    rw [above]
    exact (Nat.sub_add_cancel bounds.blockFits).le
  case storageInside =>
    have guarded : stack.limit.toNat + stack.guardLen.toNat ≤ (frameTop block entry stack).toNat :=
      (Nat.le_add_right _ _).trans ((Nat.le_add_right _ _).trans enough)
    exact guarded.trans frame
  case frameAligned => exact alignDown_aligned stackAlignment_power
  case frameBelow => exact frame
  case room => exact (Nat.add_assoc _ _ _).symm.trans_le enough

/-! ## Placements -/

/-- How a placement ends: it panics before it writes anything, it panics because no cookie block is
left, having written and dropped the entry, or it writes entry and control block. -/
inductive Ends (target : Target) (block : ControlBlock) (entry : Layout) (stack : MappedStack)
    (next blocks : UInt64) : Placed → Prop where
  | unwritten : ¬ lowest target stack ≤ frameTop block entry stack →
      Ends target block entry stack next blocks
        ⟨.error (unfit entry stack), [], next, blocks⟩
  | exhausted {core storage frameTop : UInt64} :
      Regions target block entry stack core storage frameTop →
      Cookie.asks next → Cookie.Exhausted blocks →
      Ends target block entry stack next blocks
        ⟨.error "unwind cookie blocks exhausted", [.entry storage, .drop storage], next, blocks⟩
  | placed {core storage frameTop cookie next' blocks' : UInt64} :
      Regions target block entry stack core storage frameTop →
      Cookie.allocateCookie next blocks = (.ok cookie, next', blocks') →
      Ends target block entry stack next blocks
        ⟨.ok ⟨core, frameTop⟩, [.entry storage, .core core cookie], next', blocks'⟩

/-- The only panic of the allocator leaves its cells. -/
theorem allocateCookie_error {next blocks next' blocks' : UInt64} {message : String}
    (panics : Cookie.allocateCookie next blocks = (.error message, next', blocks')) :
    message = "unwind cookie blocks exhausted" ∧ next' = next ∧ blocks' = blocks ∧
      Cookie.asks next ∧ Cookie.Exhausted blocks := by
  by_cases asking : Cookie.asks next
  · by_cases exhausted : Cookie.Exhausted blocks
    · rw [Cookie.allocateCookie_exhausted asking exhausted] at panics
      obtain ⟨rfl, rfl, rfl⟩ : _ ∧ _ ∧ _ := by simpa [eq_comm] using panics
      exact ⟨rfl, rfl, rfl, asking, exhausted⟩
    · simp [Cookie.allocateCookie, asking, Cookie.claim_left exhausted] at panics
  · simp [Cookie.allocateCookie, asking] at panics

theorem nonNull_of_pos {address : UInt64} (positive : 0 < address.toNat) :
    nonNull address = some address := by
  rw [nonNull, if_neg]
  rintro rfl
  exact absurd positive (Nat.lt_irrefl 0)

theorem place_of_unfit {next blocks : UInt64}
    (beyond : ¬ lowest target stack ≤ frameTop block entry stack) :
    place target block entry stack next blocks =
      ⟨.error (unfit entry stack), [], next, blocks⟩ := by
  have refused : check target block entry stack = .error (unfit entry stack) := by
    rw [check, ensure, if_neg beyond, error_bind]
  unfold place
  rw [refused]

theorem place_of_error {next blocks next' blocks' : UInt64} {message : String}
    (checked : check target block entry stack = .ok ())
    (panics : Cookie.allocateCookie next blocks = (.error message, next', blocks')) :
    place target block entry stack next blocks =
      ⟨.error message, [.entry (storage block entry stack), .drop (storage block entry stack)],
        next', blocks'⟩ := by
  unfold place
  rw [checked]
  simp only [panics]

theorem place_of_ok {next blocks next' blocks' cookie : UInt64}
    (checked : check target block entry stack = .ok ())
    (allocated : Cookie.allocateCookie next blocks = (.ok cookie, next', blocks')) :
    place target block entry stack next blocks =
      ⟨.ok ⟨core block stack, frameTop block entry stack⟩,
        [.entry (storage block entry stack), .core (core block stack) cookie],
        next', blocks'⟩ := by
  unfold place
  rw [checked]
  simp only [allocated]

/-- After the bound, addresses are never null. -/
theorem check_of_bound (mapped : stack.Mapped) (bounds : Exact target block entry stack)
    (bound : lowest target stack ≤ frameTop block entry stack) :
    check target block entry stack = .ok () := by
  have regions := regions_of_check mapped bounds bound
  obtain ⟨bits, -, page⟩ := mapped.page
  have guarded : 0 < stack.guardLen.toNat := page ▸ Nat.two_pow_pos bits
  have storagePositive : 0 < (storage block entry stack).toNat :=
    (guarded.trans_le (Nat.le_add_left _ _)).trans_le regions.storageInside
  have corePositive : 0 < (core block stack).toNat :=
    storagePositive.trans_le ((Nat.le_add_right _ _).trans regions.disjoint)
  rw [check, ensure_of bound, nonNull_of_pos storagePositive, nonNull_of_pos corePositive]
  rfl

/-- A placement on a mapped stack keeps its regions apart, or panics. -/
theorem place_ends {kernel : Kernel} {usable : UInt64} (documented : kernel.Documented)
    (mapped : MappedStack.new kernel usable = .ok stack)
    (small : block.size.toNat + entry.size.toNat ≤ stack.base.toNat) (next blocks : UInt64) :
    Exact target block entry stack ∧
      Ends target block entry stack next blocks
        (place target block entry stack next blocks) := by
  have whole := MappedStack.new_mapped documented mapped
  have bounds : Exact target block entry stack := exact_of_mapped whole small
  refine ⟨bounds, ?_⟩
  by_cases bound : lowest target stack ≤ frameTop block entry stack
  · have regions := regions_of_check whole bounds bound
    rcases allocated : Cookie.allocateCookie next blocks with ⟨answer, next', blocks'⟩
    cases answer with
    | error =>
        obtain ⟨rfl, rfl, rfl, asking, exhausted⟩ := allocateCookie_error allocated
        have ended : place target block entry stack next' blocks' = _ :=
          place_of_error (check_of_bound whole bounds bound) allocated
        rw [ended]
        exact .exhausted regions asking exhausted
    | ok cookie =>
        rw [place_of_ok (check_of_bound whole bounds bound) allocated]
        exact .placed regions allocated
  · rw [place_of_unfit bound]
    exact .unwritten bound

end Addresses

/-! ## A stack of sixteen pages -/

/-- A kernel with small pages and one mapping. -/
def smallKernel : Kernel := ⟨4096, fun _ => some 0x7F0000000000, fun _ _ => true⟩

def smallStack : MappedStack := ⟨0x7F0000000000, 0x11000, 0x1000, 0x7F0000011000⟩

def smallBlock : ControlBlock :=
  ⟨⟨120, 8, 3, by decide⟩, by decide, by decide⟩

def smallEntry : Layout := ⟨40, 8, 3, by decide⟩

theorem smallKernel_documented : smallKernel.Documented where
  page := by decide
  aligned := by
    rintro len mapping ⟨⟩
    decide

theorem smallStack_mapped : MappedStack.new smallKernel 0x10000 = .ok smallStack := by
  rfl

theorem smallStack_checked :
    check .x86_64_sysv smallBlock smallEntry smallStack = .ok () := by
  rfl

theorem place_ends_small :
    (place .x86_64_sysv smallBlock smallEntry smallStack 0 1).answer =
        .ok ⟨0x7F0000010F88, 0x7F0000010F60⟩ ∧
      Exact .x86_64_sysv smallBlock smallEntry smallStack ∧
      Ends .x86_64_sysv smallBlock smallEntry smallStack 0 1
        (place .x86_64_sysv smallBlock smallEntry smallStack 0 1) :=
  ⟨rfl, place_ends smallKernel_documented smallStack_mapped (by decide) 0 1⟩

/-- When no cookie is left, a placement panics after it wrote the entry. -/
theorem place_panics_late : ∃ state, (Cookie.program Unit).system.Reachable state ∧
    MappedStack.new smallKernel 0x10000 = .ok smallStack ∧
    smallBlock.size.toNat + smallEntry.size.toNat ≤ smallStack.base.toNat ∧
    (place .x86_64_sysv smallBlock smallEntry smallStack (state.locals ()).next
      state.shared.blocks).answer = .error "unwind cookie blocks exhausted" ∧
    (place .x86_64_sysv smallBlock smallEntry smallStack (state.locals ()).next
      state.shared.blocks).effects ≠ [] := by
  obtain ⟨state, reachable, asking, exhausted⟩ := Cookie.runs_out
  refine ⟨state, reachable, smallStack_mapped, by decide, ?_⟩
  rw [place_of_error smallStack_checked (Cookie.allocateCookie_exhausted asking exhausted)]
  exact ⟨rfl, List.cons_ne_nil _ _⟩

end VThread.Stack.Place

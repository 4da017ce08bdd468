import VThread.Stack.Execution

/-!
# The fiber execution protocol

A token of a fiber exists only once its drop has begun to unwind it, and from then on nobody can
resume it.  Cookies are unique, so no other root takes the token for its own.
-/

namespace VThread.Stack.Engine

open VThread.Lib

/-! ## Executions -/

namespace Execution

/-- What an execution holds in each mode. -/
structure Sound (execution : Execution) : Prop where
  once : execution.called + execution.dropped = if execution.core.entry then 0 else 1
  quiet : execution.core.outcome = none
  idle : execution.mode = .idle →
    execution.stack = true ∧ (execution.core.entry = true ↔ execution.stage = .unstarted)
  mounted : execution.mode = .resuming ∨ execution.mode = .unwinding →
    execution.stack = true ∧ execution.stage = .suspended ∧ execution.core.entry = false
  dropping : ∀ host, execution.mode = .dropping host →
    execution.stack = true ∧ execution.stage = .unstarted ∧ execution.core.entry = false
  gone : execution.mode = .gone → execution.stage = .terminal ∧ execution.core.entry = false

theorem new_sound (cookie : Nat) : (new cookie).Sound where
  once := rfl
  quiet := rfl
  idle _ := ⟨rfl, by simp [new]⟩
  mounted mode := by simp [new] at mode
  dropping host mode := by simp [new] at mode
  gone mode := by simp [new] at mode

/-- An execution that is idle or gone, with its entry taken. -/
theorem sound_of_taken {execution : Execution}
    (once : execution.called + execution.dropped = 1) (quiet : execution.core.outcome = none)
    (entry : execution.core.entry = false)
    (idle : execution.mode = .idle → execution.stack = true ∧ execution.stage ≠ .unstarted)
    (mounted : execution.mode = .resuming ∨ execution.mode = .unwinding →
      execution.stack = true ∧ execution.stage = .suspended)
    (dropping : ∀ host, execution.mode = .dropping host →
      execution.stack = true ∧ execution.stage = .unstarted)
    (gone : execution.mode = .gone → execution.stage = .terminal) : execution.Sound where
  once := by rw [entry, once]; rfl
  quiet := quiet
  idle free := ⟨(idle free).1, by simp [entry, (idle free).2]⟩
  mounted mode := ⟨(mounted mode).1, (mounted mode).2, entry⟩
  dropping host mode := ⟨(dropping host mode).1, (dropping host mode).2, entry⟩
  gone mode := ⟨gone mode, entry⟩

theorem Sound.setDrops {execution : Execution} (sound : execution.Sound) (drops : List Nat) :
    ({ execution with drops } : Execution).Sound :=
  ⟨sound.once, sound.quiet, sound.idle, sound.mounted, sound.dropping, sound.gone⟩

end Execution

/-! ## Cookies -/

/-- What the allocator of a carrier knows of the cookies in use. -/
structure Cookies.Sound (cookies : Cookies) (used : Nat → Nat) (started : Nat)
    (foreign : List Nat) : Prop where
  unique : ∀ id < started, ∀ other < started, used id = used other → id = other
  apart : ∀ id < started, used id / blockSize ∉ foreign
  claimed : ∀ id < started, used id / blockSize < cookies.block
  others : ∀ block ∈ foreign, block < cookies.block
  bounded : cookies.block ≤ words / blockSize
  current : cookies.next % blockSize ≠ 0 → cookies.next / blockSize < cookies.block ∧
    cookies.next / blockSize ∉ foreign ∧
      ∀ id < started, used id / blockSize = cookies.next / blockSize → used id < cookies.next

theorem Cookies.new_sound (used : Nat → Nat) : Cookies.Sound ⟨0, 1⟩ used 0 [] where
  unique _ known := absurd known (Nat.not_lt_zero _)
  apart _ known := absurd known (Nat.not_lt_zero _)
  claimed _ known := absurd known (Nat.not_lt_zero _)
  others _ member := by cases member
  bounded := by decide
  current unaligned := absurd rfl unaligned

/-- A claimed block was never claimed before. -/
theorem Cookies.claim_cases {cookies cookies' : Cookies} {block : Nat}
    (claimed : cookies.claimBlock = some (block, cookies')) :
    block = cookies.block ∧ cookies' = { cookies with block := cookies.block + 1 } ∧
      block < words / blockSize := by
  unfold Cookies.claimBlock at claimed
  split at claimed
  · rename_i room
    cases claimed
    have bound : (words - 1) / blockSize + 1 = words / blockSize := by decide
    exact ⟨rfl, rfl, by omega⟩
  · cases claimed

theorem Cookies.claim_sound {cookies cookies' : Cookies} {used : Nat → Nat} {started block : Nat}
    {foreign : List Nat} (sound : cookies.Sound used started foreign)
    (claimed : cookies.claimBlock = some (block, cookies')) :
    cookies'.Sound used started (block :: foreign) := by
  obtain ⟨rfl, rfl, room⟩ := claim_cases claimed
  refine ⟨sound.unique, fun id known member => ?_, fun id known =>
    Nat.lt_succ_of_lt (sound.claimed id known), fun other member => ?_, room, fun unaligned => ?_⟩
  · rcases List.mem_cons.mp member with equal | member
    · exact absurd equal (Nat.ne_of_lt (sound.claimed id known))
    · exact sound.apart id known member
  · rcases List.mem_cons.mp member with rfl | member
    · exact Nat.lt_succ_self _
    · exact Nat.lt_succ_of_lt (sound.others other member)
  · obtain ⟨known, own, below⟩ := sound.current unaligned
    refine ⟨Nat.lt_succ_of_lt known, fun member => ?_, below⟩
    rcases List.mem_cons.mp member with equal | member
    · exact absurd equal (Nat.ne_of_lt known)
    · exact own member

/-- A cookie is in no block of another carrier, and no fiber has it. -/
theorem Cookies.allocate_sound {cookies cookies' : Cookies} {used : Nat → Nat}
    {started cookie : Nat} {foreign : List Nat} (sound : cookies.Sound used started foreign)
    (allocated : cookies.allocate = some (cookie, cookies')) :
    cookie / blockSize ∉ foreign ∧ (∀ id < started, used id ≠ cookie) ∧
      cookies'.Sound (Function.update used started cookie) (started + 1) foreign := by
  have size : blockSize = 4294967296 := rfl
  have all : words = 18446744073709551616 := rfl
  -- the block of the cookie, and what the allocator knows of it
  obtain ⟨cookieLt, blockLt, own, below, next', block', bounded⟩ : cookie < words ∧
      cookie / blockSize < cookies'.block ∧ cookie / blockSize ∉ foreign ∧
      (∀ id < started, used id / blockSize = cookie / blockSize → used id < cookie) ∧
      cookies'.next = (cookie + 1) % words ∧ cookies.block ≤ cookies'.block ∧
      cookies'.block ≤ words / blockSize := by
    unfold Cookies.allocate at allocated
    split at allocated
    · obtain ⟨⟨block, claimed'⟩, claimed, equal⟩ := Option.map_eq_some_iff.mp allocated
      obtain ⟨rfl, rfl, room⟩ := claim_cases claimed
      simp only [Prod.mk.injEq] at equal
      obtain ⟨rfl, rfl⟩ := equal
      have bound := sound.bounded
      simp only [size, all] at room bound ⊢
      have whole : cookies.block * 4294967296 % 18446744073709551616 =
          cookies.block * 4294967296 := Nat.mod_eq_of_lt (by omega)
      rw [whole, Nat.mul_div_cancel _ (by decide)]
      refine ⟨by omega, Nat.lt_succ_self _, fun member => ?_, fun id known equal => ?_, trivial,
        Nat.le_succ _, by omega⟩
      · exact absurd rfl (Nat.ne_of_lt (sound.others _ member))
      · have claimed := sound.claimed id known
        simp only [size] at claimed
        omega
    · rename_i unaligned
      simp only [Option.some.injEq, Prod.mk.injEq] at allocated
      obtain ⟨rfl, rfl⟩ := allocated
      obtain ⟨known, own, below⟩ := sound.current unaligned
      have bound := sound.bounded
      refine ⟨?_, known, own, below, rfl, Nat.le_refl _, bound⟩
      simp only [size, all] at known bound ⊢
      omega
  have fresh (id : Nat) (known : id < started) : used id ≠ cookie := fun equal => by
    have smaller := below id known (by rw [equal])
    omega
  have at' (id : Nat) (known : id < started) :
      Function.update used started cookie id = used id :=
    Function.update_of_ne (Nat.ne_of_lt known) _ _
  have new : Function.update used started cookie started = cookie := Function.update_self ..
  have cases' (id : Nat) (known : id < started + 1) : id < started ∨ id = started :=
    Nat.lt_succ_iff_lt_or_eq.mp known
  refine ⟨own, fresh, ?_, ?_, ?_, ?_, bounded, ?_⟩
  · intro id known other otherKnown equal
    rcases cases' id known with known | rfl <;> rcases cases' other otherKnown with
      otherKnown | rfl
    · rw [at' id known, at' other otherKnown] at equal
      exact sound.unique id known other otherKnown equal
    · rw [at' id known, new] at equal
      exact absurd equal (fresh id known)
    · rw [new, at' other otherKnown] at equal
      exact absurd equal.symm (fresh other otherKnown)
    · rfl
  · intro id known
    rcases cases' id known with known | rfl
    · rw [at' id known]
      exact sound.apart id known
    · rwa [new]
  · intro id known
    rcases cases' id known with known | rfl
    · rw [at' id known]
      exact Nat.lt_of_lt_of_le (sound.claimed id known) block'
    · rwa [new]
  · intro block member
    exact Nat.lt_of_lt_of_le (sound.others block member) block'
  · intro unaligned
    rw [next'] at unaligned ⊢
    -- the next cookie stays in the block unless it begins another one
    have same : (cookie + 1) % words / blockSize = cookie / blockSize ∧
        (cookie + 1) % words = cookie + 1 := by
      simp only [size, all] at unaligned cookieLt ⊢
      omega
    rw [same.1, same.2]
    refine ⟨blockLt, own, fun id known equal => ?_⟩
    rcases cases' id known with known | rfl
    · rw [at' id known] at equal ⊢
      exact Nat.lt_succ_of_lt (below id known equal)
    · rw [new]
      exact Nat.lt_succ_self _

/-! ## The carrier -/

namespace Carrier

variable {carrier : Carrier}

def cookie (carrier : Carrier) (id : Nat) : Nat := (carrier.executions id).core.cookie

/-- The invariant of a carrier. -/
structure Sound (carrier : Carrier) : Prop where
  executions : ∀ id < carrier.started, (carrier.executions id).Sound
  mounted : ∀ id ∈ carrier.mounted, id < carrier.started ∧
    ((carrier.executions id).mode = .resuming ∨ (carrier.executions id).mode = .unwinding)
  nodup : carrier.mounted.Nodup
  drops : ∀ host, (∀ other, host = some other → other < carrier.started) →
    ∀ id ∈ carrier.dropsOn host, id < carrier.started ∧
      (carrier.executions id).mode = .dropping host
  distinct : ∀ host, (∀ other, host = some other → other < carrier.started) →
    (carrier.dropsOn host).Nodup
  tokens : ∀ id < carrier.started, carrier.cookie id ∈ carrier.tokens →
    (carrier.executions id).mode = .unwinding ∨ (carrier.executions id).mode = .gone
  known : ∀ token ∈ carrier.tokens, (∃ id < carrier.started, carrier.cookie id = token) ∨
    token / blockSize ∈ carrier.foreign
  cookies : carrier.cookies.Sound carrier.cookie carrier.started carrier.foreign
  present : carrier.missing = false
  expected : carrier.unreachable = false

theorem host_known (sound : carrier.Sound) :
    ∀ other, carrier.host = some other → other < carrier.started := by
  intro other hosts
  exact (sound.mounted other (List.mem_of_mem_head? hosts)).1

@[simp] theorem modify_self (id : Nat) (change : Execution → Execution) :
    (carrier.modify id change).executions id = change (carrier.executions id) := by
  simp [modify]

theorem modify_of_ne {id other : Nat} (different : other ≠ id) (change : Execution → Execution) :
    (carrier.modify id change).executions other = carrier.executions other := by
  simp [modify, different]

/-- One execution changes and the mounts with it; no destructor of its entry runs, and once its
token exists it is on its way to the end. -/
theorem update_sound {id : Nat} {execution : Execution} {mounted : List Nat}
    (sound : carrier.Sound) (known : id < carrier.started)
    (valid : execution.Sound) (cookie : execution.core.cookie = carrier.cookie id)
    (drops : execution.drops = (carrier.executions id).drops)
    (undropped : ∀ host, (carrier.executions id).mode ≠ .dropping host)
    (mounts : ∀ other ∈ mounted, if other = id then
      execution.mode = .resuming ∨ execution.mode = .unwinding else other ∈ carrier.mounted)
    (nodup : mounted.Nodup)
    (ending : carrier.cookie id ∈ carrier.tokens →
      execution.mode = .unwinding ∨ execution.mode = .gone) :
    ({ carrier with executions := Function.update carrier.executions id execution, mounted } :
      Carrier).Sound := by
  let next : Carrier :=
    { carrier with executions := Function.update carrier.executions id execution, mounted }
  have self : next.executions id = execution := Function.update_self ..
  have others {other : Nat} (different : other ≠ id) :
      next.executions other = carrier.executions other := Function.update_of_ne different _ _
  have sameCookie : next.cookie = carrier.cookie := by
    funext other
    by_cases equal : other = id
    · subst equal
      rw [Carrier.cookie, self, cookie]
    · rw [Carrier.cookie, others equal, Carrier.cookie]
  have sameDrops (host : Option Nat) : next.dropsOn host = carrier.dropsOn host := by
    cases host with
    | none => rfl
    | some other =>
        by_cases equal : other = id
        · subst equal
          simp only [dropsOn, self, drops]
        · simp only [dropsOn, others equal]
  exact {
    executions := fun other started => by
      by_cases equal : other = id
      · subst equal
        rw [self]
        exact valid
      · rw [others equal]
        exact sound.executions other started
    mounted := fun other member => by
      have mode := mounts other member
      by_cases equal : other = id
      · subst equal
        rw [if_pos rfl] at mode
        rw [self]
        exact ⟨known, mode⟩
      · rw [if_neg equal] at mode
        rw [others equal]
        exact sound.mounted other mode
    nodup := nodup
    drops := fun host started other member => by
      rw [sameDrops] at member
      obtain ⟨otherKnown, mode⟩ := sound.drops host started other member
      have different : other ≠ id := by
        rintro rfl
        exact undropped host mode
      rw [others different]
      exact ⟨otherKnown, mode⟩
    distinct := fun host started => by
      rw [sameDrops]
      exact sound.distinct host started
    tokens := fun other started token => by
      rw [sameCookie] at token
      by_cases equal : other = id
      · subst equal
        rw [self]
        exact ending token
      · rw [others equal]
        exact sound.tokens other started token
    known := fun token member => by
      rw [sameCookie]
      exact sound.known token member
    cookies := by
      rw [sameCookie]
      exact sound.cookies
    present := sound.present
    expected := sound.expected }

/-- A token of a fiber that is being unwound. -/
theorem inject_sound {id : Nat} (sound : carrier.Sound) (known : id < carrier.started)
    (unwinding : (carrier.executions id).mode = .unwinding) : (carrier.inject id).Sound :=
  { sound with
    tokens := fun other started token => by
      rcases List.mem_cons.mp token with equal | token
      · have same := sound.cookies.unique other started id known equal
        subst same
        exact .inl unwinding
      · exact sound.tokens other started token
    known := fun token member => by
      rcases List.mem_cons.mp member with rfl | member
      · exact .inl ⟨id, known, rfl⟩
      · exact sound.known token member }

/-- An entry's destructor begins or ends on a stack. -/
theorem setDrops_sound {id : Nat} {change : Execution → Execution} {host : Option Nat}
    {drops : List Nat} (sound : carrier.Sound) (known : id < carrier.started)
    (hostKnown : ∀ other, host = some other → other < carrier.started ∧ other ≠ id)
    (valid : (change (carrier.executions id)).Sound)
    (cookie : (change (carrier.executions id)).core.cookie = carrier.cookie id)
    (same : (change (carrier.executions id)).drops = (carrier.executions id).drops)
    (members : ∀ other ∈ drops, if other = id then
      (change (carrier.executions id)).mode = .dropping host else other ∈ carrier.dropsOn host)
    (nodup : drops.Nodup) (elsewhere : ∀ other, other ≠ host →
      (carrier.executions id).mode ≠ .dropping other)
    (unmounted : id ∉ carrier.mounted)
    (ending : carrier.cookie id ∈ carrier.tokens →
      (change (carrier.executions id)).mode = .unwinding ∨
        (change (carrier.executions id)).mode = .gone) :
    ((carrier.modify id change).setDrops host drops).Sound := by
  let next := (carrier.modify id change).setDrops host drops
  have fields : next.started = carrier.started ∧ next.mounted = carrier.mounted ∧
      next.tokens = carrier.tokens ∧ next.cookies = carrier.cookies ∧
      next.foreign = carrier.foreign ∧ next.missing = carrier.missing ∧
      next.unreachable = carrier.unreachable := by
    cases host <;> exact ⟨rfl, rfl, rfl, rfl, rfl, rfl, rfl⟩
  obtain ⟨started, mounted, tokens, cookies, foreign, missing, unreachable⟩ := fields
  -- all executions but `id` keep everything but their destructors
  have others {other : Nat} (different : other ≠ id) : ∃ drops',
      next.executions other = { carrier.executions other with drops := drops' } := by
    cases host with
    | none => exact ⟨_, by simp [next, setDrops, modify_of_ne different]; rfl⟩
    | some g =>
        by_cases equal : other = g
        · subst equal
          exact ⟨drops, by simp [next, setDrops, modify_of_ne different]⟩
        · exact ⟨_, by simp [next, setDrops, modify_of_ne equal, modify_of_ne different]; rfl⟩
  have self : next.executions id = change (carrier.executions id) := by
    cases host with
    | none => simp [next, setDrops]
    | some g =>
        have different : id ≠ g := (hostKnown g rfl).2.symm
        simp [next, setDrops, modify_of_ne different]
  have mode {other : Nat} (different : other ≠ id) :
      (next.executions other).mode = (carrier.executions other).mode := by
    obtain ⟨_, equal⟩ := others different
    rw [equal]
  have sameCookie : next.cookie = carrier.cookie := by
    funext other
    by_cases equal : other = id
    · subst equal
      rw [Carrier.cookie, self, cookie]
    · obtain ⟨_, equal⟩ := others equal
      rw [Carrier.cookie, equal, Carrier.cookie]
  have onHost : next.dropsOn host = drops := by
    cases host with
    | none => rfl
    | some g => simp [next, setDrops, dropsOn]
  have onOther {other : Option Nat} (different : other ≠ host) :
      next.dropsOn other = carrier.dropsOn other := by
    cases other with
    | none =>
        cases host with
        | none => exact absurd rfl different
        | some g => rfl
    | some h =>
        simp only [dropsOn]
        by_cases equal : h = id
        · rw [equal, self, same]
        · cases host with
          | none => simp [next, setDrops, modify_of_ne equal]
          | some g =>
              have unequal : h ≠ g := fun equal => different (by rw [equal])
              simp [next, setDrops, modify_of_ne unequal, modify_of_ne equal]
  exact {
    executions := fun other otherStarted => by
      rw [started] at otherStarted
      by_cases equal : other = id
      · subst equal
        rw [self]
        exact valid
      · obtain ⟨drops', equal⟩ := others equal
        rw [equal]
        exact (sound.executions other otherStarted).setDrops drops'
    mounted := fun other member => by
      rw [mounted] at member
      have different : other ≠ id := by
        rintro rfl
        exact unmounted member
      rw [started, mode different]
      exact sound.mounted other member
    nodup := by
      rw [mounted]
      exact sound.nodup
    drops := fun other otherKnown x member => by
      rw [started] at otherKnown ⊢
      by_cases here : other = host
      · subst here
        rw [onHost] at member
        have mode' := members x member
        by_cases equal : x = id
        · subst equal
          rw [if_pos rfl] at mode'
          rw [self]
          exact ⟨known, mode'⟩
        · rw [if_neg equal] at mode'
          rw [mode equal]
          exact sound.drops other otherKnown x mode'
      · rw [onOther here] at member
        obtain ⟨xKnown, mode'⟩ := sound.drops other otherKnown x member
        have different : x ≠ id := by
          rintro rfl
          exact elsewhere other here mode'
        rw [mode different]
        exact ⟨xKnown, mode'⟩
    distinct := fun other otherKnown => by
      rw [started] at otherKnown
      by_cases here : other = host
      · subst here
        rw [onHost]
        exact nodup
      · rw [onOther here]
        exact sound.distinct other otherKnown
    tokens := fun other otherStarted token => by
      rw [started] at otherStarted
      rw [sameCookie, tokens] at token
      by_cases equal : other = id
      · subst equal
        rw [self]
        exact ending token
      · rw [mode equal]
        exact sound.tokens other otherStarted token
    known := fun token member => by
      rw [tokens] at member
      rw [sameCookie, started, foreign]
      exact sound.known token member
    cookies := by
      rw [cookies, sameCookie, started, foreign]
      exact sound.cookies
    present := missing.trans sound.present
    expected := unreachable.trans sound.expected }

/-! ## Steps -/

theorem start_sound {fits : Bool} (sound : carrier.Sound) : (carrier.start fits).Sound := by
  unfold start
  split
  · split
    · exact sound
    · rename_i cookie cookies allocated
      obtain ⟨own, fresh, cookies'⟩ := Cookies.allocate_sound sound.cookies allocated
      let next : Carrier :=
        { carrier with
          executions := Function.update carrier.executions carrier.started (.new cookie)
          started := carrier.started + 1
          cookies }
      have earlier {id : Nat} (known : id < carrier.started) :
          next.executions id = carrier.executions id :=
        Function.update_of_ne (Nat.ne_of_lt known) _ _
      have new : next.executions carrier.started = .new cookie := Function.update_self ..
      have sameCookie : next.cookie = Function.update carrier.cookie carrier.started cookie := by
        funext id
        by_cases equal : id = carrier.started
        · subst equal
          rw [Carrier.cookie, new, Function.update_self]
          rfl
        · rw [Function.update_of_ne equal]
          have same : next.executions id = carrier.executions id :=
            Function.update_of_ne equal _ _
          rw [Carrier.cookie, same, Carrier.cookie]
      have cases' {id : Nat} (known : id < carrier.started + 1) :
          id < carrier.started ∨ id = carrier.started := Nat.lt_succ_iff_lt_or_eq.mp known
      -- a stack has the destructors it had before, and the new one has none
      have drops (host : Option Nat) (known : ∀ other, host = some other →
          other < carrier.started + 1) : next.dropsOn host = [] ∨
            next.dropsOn host = carrier.dropsOn host ∧
              ∀ other, host = some other → other < carrier.started := by
        cases host with
        | none => exact .inr ⟨rfl, fun _ hosted => by cases hosted⟩
        | some other =>
            rcases cases' (known other rfl) with before | rfl
            · refine .inr ⟨?_, fun _ equal => by cases equal; exact before⟩
              simp only [dropsOn, earlier before]
            · exact .inl (by simp only [dropsOn, new, Execution.new])
      exact {
        executions := fun id known => by
          rcases cases' known with known | rfl
          · rw [earlier known]
            exact sound.executions id known
          · rw [new]
            exact Execution.new_sound cookie
        mounted := fun id member => by
          obtain ⟨known, mode⟩ := sound.mounted id member
          rw [earlier known]
          exact ⟨Nat.lt_succ_of_lt known, mode⟩
        nodup := sound.nodup
        drops := fun host known id member => by
          rcases drops host known with empty | ⟨same, before⟩
          · rw [empty] at member
            cases member
          · rw [same] at member
            obtain ⟨started, mode⟩ := sound.drops host before id member
            rw [earlier started]
            exact ⟨Nat.lt_succ_of_lt started, mode⟩
        distinct := fun host known => by
          rcases drops host known with empty | ⟨same, before⟩
          · rw [empty]
            exact List.nodup_nil
          · rw [same]
            exact sound.distinct host before
        tokens := fun id known token => by
          rcases cases' known with known | rfl
          · have token : next.cookie id ∈ carrier.tokens := token
            rw [Carrier.cookie, earlier known] at token
            rw [earlier known]
            exact sound.tokens id known token
          · have token : next.cookie carrier.started ∈ carrier.tokens := token
            rw [Carrier.cookie, new] at token
            rcases sound.known cookie token with ⟨id, known, equal⟩ | foreign
            · exact absurd equal (fresh id known)
            · exact absurd foreign own
        known := fun token member => by
          refine (sound.known token member).imp_left fun ⟨id, known, equal⟩ =>
            ⟨id, Nat.lt_succ_of_lt known, ?_⟩
          rw [← equal, Carrier.cookie, earlier known, Carrier.cookie]
        cookies := by
          show cookies.Sound next.cookie _ _
          rw [sameCookie]
          exact cookies'
        present := sound.present
        expected := sound.expected }
  · exact sound

/-- What is known of an execution that may be borrowed. -/
theorem free_facts (sound : carrier.Sound) {id : Nat} (free : carrier.Free id) :
    (carrier.executions id).Sound ∧ (carrier.executions id).stack = true ∧
      ((carrier.executions id).core.entry = true ↔
        (carrier.executions id).stage = .unstarted) ∧
      id ∉ carrier.mounted ∧ carrier.cookie id ∉ carrier.tokens := by
  obtain ⟨known, idle⟩ := free
  have valid := sound.executions id known
  refine ⟨valid, (valid.idle idle).1, (valid.idle idle).2, fun member => ?_, fun token => ?_⟩
  · have mode := (sound.mounted id member).2
    simp [idle] at mode
  · have mode := sound.tokens id known token
    simp [idle] at mode

theorem takeEntry_spec {execution : Execution} (call : Bool) (valid : execution.Sound) :
    (execution.takeEntry call).called + (execution.takeEntry call).dropped = 1 ∧
      (execution.takeEntry call).core.outcome = none ∧
      (execution.takeEntry call).core.entry = false ∧
      (execution.takeEntry call).core.cookie = execution.core.cookie ∧
      (execution.takeEntry call).drops = execution.drops ∧
      (execution.takeEntry call).stack = execution.stack ∧
      (execution.takeEntry call).stage = execution.stage := by
  have once := valid.once
  unfold Execution.takeEntry
  cases entry : execution.core.entry with
  | true =>
      rw [entry, if_pos rfl] at once
      refine ⟨?_, valid.quiet, rfl, rfl, rfl, rfl, rfl⟩
      cases call <;> simp <;> omega
  | false =>
      simp only [entry, Bool.false_eq_true, if_false] at once ⊢
      exact ⟨once, valid.quiet, trivial, trivial, trivial, trivial, trivial⟩

theorem resume_sound {id : Nat} (sound : carrier.Sound) (free : carrier.Free id) :
    (carrier.resume id).Sound := by
  obtain ⟨valid, stack, entry, unmounted, token⟩ := free_facts sound free
  unfold resume
  split
  · exact sound
  · obtain ⟨once, quiet, taken, cookie, drops, stack', -⟩ := takeEntry_spec true valid
    refine update_sound sound free.1 (Execution.sound_of_taken once quiet taken (by simp)
      (fun _ => ⟨stack'.trans stack, rfl⟩) (by simp) (by simp)) cookie drops
      (fun host mode => by simp [free.2] at mode) (fun other member => ?_)
      (List.nodup_cons.mpr ⟨unmounted, sound.nodup⟩) fun there => absurd there token
    split
    · exact .inl rfl
    · rename_i different
      exact (List.mem_cons.mp member).resolve_left different

/-- A terminal execution gives its stack away. -/
theorem release_sound {id : Nat} (sound : carrier.Sound) (free : carrier.Free id)
    (terminal : (carrier.executions id).stage = .terminal) :
    (carrier.modify id .release).Sound := by
  obtain ⟨valid, stack, entry, unmounted, token⟩ := free_facts sound free
  have taken : (carrier.executions id).core.entry = false := by
    rw [terminal] at entry
    simpa using entry
  have once := valid.once
  rw [taken] at once
  exact update_sound sound free.1 (Execution.sound_of_taken once valid.quiet taken
    (by simp [Execution.release]) (by simp [Execution.release]) (by simp [Execution.release])
    (fun _ => terminal)) rfl rfl (fun host mode => by simp [free.2] at mode)
    (fun other member => by
      have different : other ≠ id := by
        rintro rfl
        exact unmounted member
      rw [if_neg different]
      exact member) sound.nodup fun there => absurd there token

theorem drop_sound {id : Nat} (sound : carrier.Sound) (free : carrier.Free id) :
    (carrier.drop id).Sound := by
  obtain ⟨valid, stack, entry, unmounted, token⟩ := free_facts sound free
  unfold drop
  split
  · rename_i terminal
    exact release_sound sound free terminal
  · rename_i unstarted
    obtain ⟨once, quiet, taken, cookie, drops, stack', stage⟩ :=
      takeEntry_spec false valid
    have hostKnown := host_known sound
    have unlisted (host : Option Nat)
        (known : ∀ other, host = some other → other < carrier.started) :
        id ∉ carrier.dropsOn host := fun member => by
      have mode := (sound.drops host known id member).2
      simp [free.2] at mode
    refine setDrops_sound sound free.1 (fun other hosts => ⟨hostKnown other hosts, ?_⟩)
      (Execution.sound_of_taken once quiet taken (by simp) (by simp)
        (fun _ _ => ⟨stack'.trans stack, stage.trans unstarted⟩) (by simp)) cookie drops
      (fun other member => ?_)
      (List.nodup_cons.mpr ⟨unlisted _ hostKnown, sound.distinct _ hostKnown⟩)
      (fun other _ mode => by simp [free.2] at mode) unmounted fun there => absurd there token
    · rintro rfl
      exact unmounted (List.mem_of_mem_head? hosts)
    · split
      · rfl
      · rename_i different
        exact (List.mem_cons.mp member).resolve_left different
  · rename_i suspended
    have taken : (carrier.executions id).core.entry = false := by
      rw [suspended] at entry
      simpa using entry
    have once := valid.once
    rw [taken] at once
    have unwinding : ({ carrier.setMode id .unwinding with
        mounted := id :: carrier.mounted } : Carrier).Sound := by
      refine update_sound sound free.1 (Execution.sound_of_taken once valid.quiet taken (by simp)
        (fun _ => ⟨stack, suspended⟩) (by simp) (by simp)) rfl rfl
        (fun host mode => by simp [free.2] at mode) (fun other member => ?_)
        (List.nodup_cons.mpr ⟨unmounted, sound.nodup⟩) fun there => absurd there token
      split
      · exact .inr rfl
      · rename_i different
        exact (List.mem_cons.mp member).resolve_left different
    exact inject_sound unwinding free.1 (by simp [setMode])

@[simp] theorem modify_modify (id : Nat) (first second : Execution → Execution) :
    (carrier.modify id first).modify id second =
      carrier.modify id fun execution => second (first execution) := by
  simp [modify]

theorem modify_unmount (id : Nat) (change : Execution → Execution) :
    (carrier.modify id change).unmount = carrier.unmount.modify id change := rfl

/-- What is known of the fiber mounted last. -/
theorem host_facts (sound : carrier.Sound) {id : Nat} (hosts : carrier.host = some id) :
    id < carrier.started ∧ (carrier.executions id).Sound ∧
      ((carrier.executions id).mode = .resuming ∨ (carrier.executions id).mode = .unwinding) ∧
      id ∉ carrier.mounted.tail := by
  have member := List.mem_of_mem_head? hosts
  obtain ⟨known, mode⟩ := sound.mounted id member
  refine ⟨known, sound.executions id known, mode, ?_⟩
  have nodup := sound.nodup
  cases mounted : carrier.mounted with
  | nil => exact List.not_mem_nil
  | cons =>
      rw [host, mounted] at hosts
      cases hosts
      rw [mounted] at nodup
      exact (List.nodup_cons.mp nodup).1

/-- The fiber mounted last gives control back for good, or until it is resumed. -/
theorem unmount_sound {id : Nat} {change : Execution → Execution} (sound : carrier.Sound)
    (hosts : carrier.host = some id) (valid : (change (carrier.executions id)).Sound)
    (cookie : (change (carrier.executions id)).core.cookie = carrier.cookie id)
    (drops : (change (carrier.executions id)).drops = (carrier.executions id).drops)
    (ending : carrier.cookie id ∈ carrier.tokens →
      (change (carrier.executions id)).mode = .unwinding ∨
        (change (carrier.executions id)).mode = .gone) :
    (carrier.unmount.modify id change).Sound := by
  obtain ⟨known, -, mode, absent⟩ := host_facts sound hosts
  refine @update_sound carrier id _ carrier.mounted.tail sound known valid cookie drops
    (fun host equal => ?_) (fun other member => ?_) (sound.nodup.sublist (List.tail_sublist _))
    ending
  · rcases mode with mode | mode <;> simp [equal] at mode
  · have different : other ≠ id := by
      rintro rfl
      exact absent member
    rw [if_neg different]
    exact List.mem_of_mem_tail member

/-- The token of a fiber that is resumed was never made. -/
theorem untokened (sound : carrier.Sound) {id : Nat} (known : id < carrier.started)
    (resuming : (carrier.executions id).mode = .resuming) :
    carrier.cookie id ∉ carrier.tokens := by
  intro token
  have mode := sound.tokens id known token
  simp [resuming] at mode

/-- A fiber that is resumed reports an outcome other than its own unwinding. -/
theorem resumed_sound {id : Nat} {outcome : Outcome} (sound : carrier.Sound)
    (hosts : carrier.host = some id) (resuming : (carrier.executions id).mode = .resuming)
    (ordinary : outcome ≠ .unwound) :
    ((carrier.modify id (.report outcome)).resumed id false).Sound := by
  obtain ⟨known, valid, -, -⟩ := host_facts sound hosts
  obtain ⟨stack, stage, entry⟩ := valid.mounted (.inl resuming)
  have once := valid.once
  rw [entry] at once
  have untold := untokened sound known resuming
  have onward (change : Execution → Execution)
      (idle : (change (carrier.executions id)).Sound)
      (cookie : (change (carrier.executions id)).core.cookie = carrier.cookie id)
      (drops : (change (carrier.executions id)).drops = (carrier.executions id).drops) :
      (carrier.unmount.modify id change).Sound :=
    unmount_sound sound hosts idle cookie drops fun there => absurd there untold
  simp only [resumed, Bool.false_eq_true, if_false, modify_self, Execution.report, setMode,
    modify_unmount, modify_modify]
  cases outcome with
  | suspended reason =>
      exact onward _ (Execution.sound_of_taken once rfl entry
        (fun _ => ⟨stack, by simp [Execution.takeOutcome, stage]⟩)
        (by simp [Execution.takeOutcome]) (by simp [Execution.takeOutcome])
        (by simp [Execution.takeOutcome])) rfl rfl
  | complete | panicked payload =>
      exact onward _ (Execution.sound_of_taken once rfl entry
        (fun _ => ⟨stack, by simp [Execution.terminate]⟩)
        (by simp [Execution.terminate, Execution.takeOutcome])
        (by simp [Execution.terminate, Execution.takeOutcome])
        (by simp [Execution.terminate, Execution.takeOutcome])) rfl rfl
  | unwound => exact absurd rfl ordinary

/-- A fiber that is unwound suspends once more, or comes to its end. -/
theorem unwound_sound {id : Nat} {outcome : Outcome} (sound : carrier.Sound)
    (hosts : carrier.host = some id) (unwinding : (carrier.executions id).mode = .unwinding) :
    ((carrier.modify id (.report outcome)).unwound id false).Sound := by
  obtain ⟨known, valid, -, -⟩ := host_facts sound hosts
  obtain ⟨stack, stage, entry⟩ := valid.mounted (.inr unwinding)
  have once := valid.once
  rw [entry] at once
  have ended : (carrier.unmount.modify id fun execution =>
      (execution.report outcome).takeOutcome.terminate.release).Sound :=
    unmount_sound sound hosts (Execution.sound_of_taken once rfl entry
      (by simp [Execution.release]) (by simp [Execution.release]) (by simp [Execution.release])
      fun _ => rfl) rfl rfl fun _ => .inr rfl
  simp only [unwound, Bool.false_eq_true, if_false, modify_self, Execution.report,
    modify_unmount, modify_modify]
  cases outcome with
  | suspended reason =>
      have same : (carrier.modify id fun execution => Execution.takeOutcome { execution with
          core := { execution.core with outcome := some (.suspended reason) } }) = carrier := by
        have restored : Execution.takeOutcome { carrier.executions id with
            core := { (carrier.executions id).core with outcome := some (.suspended reason) } } =
              carrier.executions id := by
          simp only [Execution.takeOutcome, ← valid.quiet]
        simp only [modify, restored, Function.update_eq_self]
      rw [same]
      exact inject_sound sound known unwinding
  | complete | panicked payload | unwound => exact ended

/-- The fiber mounted last hands an outcome over. -/
theorem report_sound {id : Nat} {outcome : Outcome} {carrier' : Carrier} (sound : carrier.Sound)
    (hosts : carrier.host = some id)
    (ordinary : (carrier.executions id).mode = .resuming → outcome ≠ .unwound)
    (taken : (carrier.modify id (.report outcome)).transferBack id false = some carrier') :
    carrier'.Sound := by
  obtain ⟨-, -, mode, -⟩ := host_facts sound hosts
  have same : ((carrier.modify id (.report outcome)).executions id).mode =
      (carrier.executions id).mode := by simp [Execution.report]
  unfold transferBack at taken
  rw [same] at taken
  rcases mode with resuming | unwinding
  · simp only [resuming] at taken
    cases taken
    exact resumed_sound sound hosts resuming (ordinary resuming)
  · simp only [unwinding] at taken
    cases taken
    exact unwound_sound sound hosts unwinding

theorem suspend_sound {reason : Suspension} {carrier' : Carrier} (sound : carrier.Sound)
    (taken : carrier.suspend reason = some carrier') : carrier'.Sound := by
  unfold suspend at taken
  split at taken
  · cases taken
  · rename_i id hosts
    split at taken
    · obtain ⟨known, valid, mode, -⟩ := host_facts sound hosts
      unfold transferBack at taken
      rcases mode with resuming | unwinding
      · simp only [resuming] at taken
        cases taken
        obtain ⟨stack, stage, entry⟩ := valid.mounted (.inl resuming)
        have once := valid.once
        rw [entry] at once
        exact @unmount_sound carrier id (fun execution => { execution with mode := .idle }) sound
          hosts (Execution.sound_of_taken once valid.quiet entry
            (fun _ => ⟨stack, by simp [stage]⟩) (by simp) (by simp) (by simp)) rfl rfl
          fun there => absurd there (untokened sound known resuming)
      · simp only [unwinding] at taken
        cases taken
        exact inject_sound sound known unwinding
    · exact report_sound sound hosts (fun _ => by simp) taken

/-- The destructor of an entry comes to its end. -/
theorem destructor_sound {id : Nat} {rest : List Nat} {change : Execution → Execution}
    (sound : carrier.Sound) (runs : carrier.dropsOn carrier.host = id :: rest)
    (valid : (change (carrier.executions id)).Sound)
    (cookie : (change (carrier.executions id)).core.cookie = carrier.cookie id)
    (same : (change (carrier.executions id)).drops = (carrier.executions id).drops)
    (gone : (change (carrier.executions id)).mode = .gone) :
    ((carrier.modify id change).setDrops carrier.host rest).Sound := by
  have hostKnown := host_known sound
  have member : id ∈ carrier.dropsOn carrier.host := by
    rw [runs]
    exact List.mem_cons_self
  obtain ⟨known, dropping⟩ := sound.drops _ hostKnown id member
  have unmounted : id ∉ carrier.mounted := fun mounted => by
    have mode := (sound.mounted id mounted).2
    simp [dropping] at mode
  have nodup := sound.distinct _ hostKnown
  rw [runs] at nodup
  refine setDrops_sound sound known (fun other hosts => ⟨hostKnown other hosts, ?_⟩) valid cookie
    same (fun other after => ?_) (List.nodup_cons.mp nodup).2 (fun other different mode => ?_)
    unmounted fun _ => .inr gone
  · rintro rfl
    exact unmounted (List.mem_of_mem_head? hosts)
  · have different : other ≠ id := by
      rintro rfl
      exact (List.nodup_cons.mp nodup).1 after
    rw [if_neg different, runs]
    exact List.mem_cons_of_mem _ after
  · rw [dropping] at mode
    cases mode
    exact different rfl

theorem returns_sound {carrier' : Carrier} (sound : carrier.Sound)
    (taken : carrier.returns = some carrier') : carrier'.Sound := by
  unfold returns at taken
  split at taken
  · rename_i id rest runs
    cases taken
    have member : id ∈ carrier.dropsOn carrier.host := by
      rw [runs]
      exact List.mem_cons_self
    obtain ⟨known, dropping⟩ := sound.drops _ (host_known sound) id member
    have valid := sound.executions id known
    obtain ⟨-, -, entry⟩ := valid.dropping _ dropping
    have once := valid.once
    rw [entry] at once
    exact destructor_sound sound runs (Execution.sound_of_taken once valid.quiet entry
      (by simp [Execution.release]) (by simp [Execution.release]) (by simp [Execution.release])
      fun _ => rfl) rfl rfl rfl
  · split at taken
    · cases taken
    · rename_i id hosts
      exact report_sound sound hosts (fun _ => by simp) taken

/-- A root takes a token for its own only when it is being unwound. -/
theorem classify_ordinary (sound : carrier.Sound) {id : Nat} (known : id < carrier.started)
    (resuming : (carrier.executions id).mode = .resuming) {payload : Payload}
    (has : carrier.Has payload) :
    (carrier.executions id).core.classify payload ≠ .unwound := by
  cases payload with
  | user value => simp [FiberCore.classify]
  | token cookie =>
      have different : cookie ≠ (carrier.executions id).core.cookie := by
        rintro rfl
        exact untokened sound known resuming has
      simp [FiberCore.classify, different]

theorem panics_sound {payload : Payload} {carrier' : Carrier} (sound : carrier.Sound)
    (has : carrier.Has payload) (calm : carrier.dropsOn carrier.host = [])
    (taken : carrier.panics payload = some carrier') : carrier'.Sound := by
  unfold panics at taken
  rw [calm] at taken
  dsimp only at taken
  split at taken
  · cases taken
  · rename_i id hosts
    obtain ⟨known, -, -, -⟩ := host_facts sound hosts
    exact report_sound sound hosts
      (fun resuming => classify_ordinary sound known resuming has) taken

theorem claimBlock_sound {block : Nat} {cookies : Cookies} (sound : carrier.Sound)
    (claimed : carrier.cookies.claimBlock = some (block, cookies)) :
    ({ carrier with cookies, foreign := block :: carrier.foreign } : Carrier).Sound :=
  { sound with
    known := fun token member =>
      (sound.known token member).imp_right fun foreign => List.mem_cons_of_mem _ foreign
    cookies := Cookies.claim_sound sound.cookies claimed }

theorem receive_sound {token : Nat} (sound : carrier.Sound)
    (foreign : token / blockSize ∈ carrier.foreign) :
    ({ carrier with tokens := token :: carrier.tokens } : Carrier).Sound :=
  { sound with
    tokens := fun id known there => by
      rcases List.mem_cons.mp there with equal | there
      · refine absurd ?_ (sound.cookies.apart id known)
        rwa [show carrier.cookie id = token from equal]
      · exact sound.tokens id known there
    known := fun other member => by
      rcases List.mem_cons.mp member with rfl | member
      · exact .inr foreign
      · exact sound.known other member }

end Carrier

/-! ## Runs -/

/-- No destructor of an entry that was never called unwinds. -/
def calm (choice : Choice) (carrier : Carrier) : Bool :=
  match choice with
  | .panics _ => (carrier.dropsOn carrier.host).isEmpty
  | _ => true

theorem next_sound {carrier carrier' : Carrier} {choice : Choice} (sound : carrier.Sound)
    (quiet : calm choice carrier = true) (taken : carrier.next choice = some carrier') :
    carrier'.Sound := by
  cases choice with
  | start fits =>
      cases taken
      exact Carrier.start_sound sound
  | resume =>
      simp only [Carrier.next] at taken
      split at taken
      · rename_i free
        cases taken
        exact Carrier.resume_sound sound free
      · cases taken
  | intoStack id =>
      simp only [Carrier.next] at taken
      split at taken
      · rename_i free
        cases taken
        unfold Carrier.intoStack
        split
        · rename_i terminal
          exact Carrier.release_sound sound free terminal
        · exact Carrier.drop_sound sound free
      · cases taken
  | drop id =>
      simp only [Carrier.next] at taken
      split at taken
      · rename_i free
        cases taken
        exact Carrier.drop_sound sound free
      · cases taken
  | suspend reason => exact Carrier.suspend_sound sound taken
  | returns => exact Carrier.returns_sound sound taken
  | panics =>
      simp only [Carrier.next] at taken
      split at taken
      · rename_i has
        exact Carrier.panics_sound sound has (List.isEmpty_iff.mp quiet) taken
      · cases taken
  | claimBlock =>
      obtain ⟨⟨block, cookies⟩, claimed, rfl⟩ := Option.map_eq_some_iff.mp taken
      exact Carrier.claimBlock_sound sound claimed
  | receive token =>
      simp only [Carrier.next] at taken
      split at taken
      · rename_i foreign
        cases taken
        exact Carrier.receive_sound sound foreign
      · cases taken

theorem new_sound : Carrier.new.Sound where
  executions _ known := absurd known (Nat.not_lt_zero _)
  mounted _ member := by cases member
  nodup := List.nodup_nil
  drops host _ id member := by cases host <;> cases member
  distinct host _ := by cases host <;> exact List.nodup_nil
  tokens _ known := absurd known (Nat.not_lt_zero _)
  known _ member := by cases member
  cookies := Cookies.new_sound _
  present := rfl
  expected := rfl

theorem reachable_sound {carrier : Carrier}
    (reachable : (machine.guarded fun choice carrier => calm choice carrier = true).Reachable
      carrier) : carrier.Sound := by
  induction reachable with
  | initial isInitial => exact isInitial ▸ new_sound
  | step _ taken sound =>
      obtain ⟨choice, quiet, taken⟩ := taken
      exact next_sound sound quiet taken

/-- What the protocol promises of every fiber. -/
structure Keeps (carrier : Carrier) : Prop where
  once : ∀ id < carrier.started, (carrier.executions id).called +
    (carrier.executions id).dropped = if (carrier.executions id).core.entry then 0 else 1
  ended : ∀ id < carrier.started, (carrier.executions id).stage = .terminal →
    (carrier.executions id).called + (carrier.executions id).dropped = 1
  released : ∀ id < carrier.started, (carrier.executions id).stack = false →
    (carrier.executions id).stage = .terminal
  terminal : ∀ id < carrier.started, (carrier.executions id).mode = .gone →
    (carrier.executions id).stage = .terminal
  absorbed : ∀ id < carrier.started, ∀ other < carrier.started,
    (carrier.executions id).core.classify (.token (carrier.cookie other)) =
      if id = other then .unwound else .panicked (.token (carrier.cookie other))
  ordinary : ∀ id < carrier.started, ∀ payload, payload ≠ .token (carrier.cookie id) →
    (carrier.executions id).core.classify payload = .panicked payload
  foreign : ∀ id < carrier.started, ∀ token, token / blockSize ∈ carrier.foreign →
    (carrier.executions id).core.classify (.token token) = .panicked (.token token)
  expected : carrier.unreachable = false
  present : carrier.missing = false

theorem Carrier.Sound.keeps {carrier : Carrier} (sound : carrier.Sound) : Keeps carrier where
  once id known := (sound.executions id known).once
  ended id known terminal := by
    have valid := sound.executions id known
    have once := valid.once
    have taken : (carrier.executions id).core.entry = false := by
      cases mode : (carrier.executions id).mode with
      | idle =>
          have waiting := (valid.idle mode).2
          rw [terminal] at waiting
          simpa using waiting
      | resuming => exact (valid.mounted (.inl mode)).2.2
      | unwinding => exact (valid.mounted (.inr mode)).2.2
      | dropping host => exact (valid.dropping host mode).2.2
      | gone => exact (valid.gone mode).2
    rw [taken] at once
    exact once
  released id known gone := by
    have valid := sound.executions id known
    cases mode : (carrier.executions id).mode with
    | idle => simp [(valid.idle mode).1] at gone
    | resuming => simp [(valid.mounted (.inl mode)).1] at gone
    | unwinding => simp [(valid.mounted (.inr mode)).1] at gone
    | dropping host => simp [(valid.dropping host mode).1] at gone
    | gone => exact (valid.gone mode).1
  terminal id known mode := ((sound.executions id known).gone mode).1
  absorbed id known other otherKnown := by
    by_cases equal : id = other
    · subst equal
      simp [FiberCore.classify, cookie]
    · have different : carrier.cookie other ≠ carrier.cookie id := fun same =>
        equal (sound.cookies.unique id known other otherKnown same.symm)
      rw [if_neg equal]
      exact if_neg different
  ordinary id known payload other := by
    cases payload with
    | user value => rfl
    | token token => exact if_neg fun same => other (by rw [same, cookie])
  foreign id known token member := by
    refine if_neg fun same => sound.cookies.apart id known ?_
    rwa [cookie, ← same]
  expected := sound.expected
  present := sound.present

/-- The protocol is kept as long as no destructor of an entry that was never called unwinds. -/
theorem protocol_kept {carrier : Carrier}
    (reachable : (machine.guarded fun choice carrier => calm choice carrier = true).Reachable
      carrier) : Keeps carrier :=
  (reachable_sound reachable).keeps

/-- A fiber is unwound and keeps its token for a while; it is thrown again on another fiber. -/
def replayRun : List Choice :=
  [.start true, .start true, .resume 0 false, .suspend (.park ⟨3, 1, none⟩), .drop 0,
    .suspend .yieldNow, .panics (.token 4294967296), .resume 1 true, .panics (.token 4294967296)]

/-- The first root takes the token, the second reports it as a panic. -/
theorem protocol_kept_replay : ∃ carrier, carrier.tokens = [4294967296, 4294967296] ∧
    (carrier.executions 0).mode = .gone ∧ (carrier.executions 1).mode = .idle ∧
      (carrier.executions 1).stage = .terminal ∧ Keeps carrier := by
  have runs : (machine.run calm replayRun Carrier.new).map (fun carrier =>
      (carrier.tokens, (carrier.executions 0).mode, (carrier.executions 1).mode,
        (carrier.executions 1).stage)) =
      some ([4294967296, 4294967296], .gone, .idle, .terminal) := by
    decide
  obtain ⟨carrier, run, states⟩ := Option.map_eq_some_iff.mp runs
  simp only [Prod.mk.injEq] at states
  obtain ⟨tokens, first, second, stage⟩ := states
  have fresh : (machine.guarded fun choice carrier => calm choice carrier = true).Reachable
      Carrier.new := .initial rfl
  exact ⟨carrier, tokens, first, second, stage,
    protocol_kept (@Machine.run_reachable _ _ machine calm _ _ _ fresh run)⟩

/-- An unstarted fiber is dropped whose entry has a destructor that panics. -/
def unwindingRun : List Choice := [.start true, .drop 0, .panics (.user 7)]

/-- The stack is released while the fiber is still unstarted. -/
theorem protocol_broken : ∃ carrier, machine.system.Reachable carrier ∧
    (carrier.executions 0).stack = false ∧ (carrier.executions 0).stage = .unstarted ∧
      ¬ Keeps carrier := by
  have runs : (machine.run (fun _ _ => true) unwindingRun Carrier.new).map (fun carrier =>
      (carrier.started, (carrier.executions 0).stack, (carrier.executions 0).stage)) =
      some (1, false, .unstarted) := by
    decide
  obtain ⟨carrier, run, states⟩ := Option.map_eq_some_iff.mp runs
  simp only [Prod.mk.injEq] at states
  obtain ⟨started, stack, stage⟩ := states
  have fresh : (machine.guarded fun _ _ => true = true).Reachable Carrier.new := .initial rfl
  refine ⟨carrier, Machine.guarded_reachable
    (@Machine.run_reachable _ _ machine (fun _ _ => true) _ _ _ fresh run), stack, stage,
    fun keeps => ?_⟩
  have terminal := keeps.released 0 (by omega) stack
  rw [stage] at terminal
  cases terminal

end VThread.Stack.Engine

import VThread.Parity.Mailbox

/-!
# Delivery through the parity mailbox

The words of the mailbox represent an abstract mailbox served in rounds: a route is pending
when its bits in the published and in the owner's word differ.
-/

namespace VThread.Parity

open VThread.Lib

variable {ι : Type}

/-! ## What the words represent -/

/-- A publication of the route has not been acknowledged. -/
def Mailbox.unacknowledged (mailbox : Mailbox ι) (route : Route) : Bool :=
  (mailbox.published ^^^ mailbox.seen).getLsbD route

/-- The routes that the consumer still has to return before it captures again. -/
def serving (mailbox : Mailbox ι) : Pc → Word
  | .popStore _ batch => batch
  | .popAck _ route => mailbox.batch ^^^ bit route
  | _ => mailbox.batch

/-- What the consumer knows between its steps. -/
def Knows (mailbox : Mailbox ι) : Pc → Prop
  | .idle => True
  | .popBatch seen => seen = mailbox.seen
  | .popWord seen => seen = mailbox.seen ∧ mailbox.batch = 0
  | .popStore seen batch => seen = mailbox.seen ∧ batch ≠ 0
  | .popAck seen route => seen = mailbox.seen ∧ route < routes ∧
      mailbox.batch.getLsbD route = false
  | .pendingSeen word => ∀ route : Route, (word ^^^ mailbox.seen).getLsbD route = true →
      mailbox.unacknowledged route = true
  | .armLoad seen => seen = mailbox.seen
  | .armSwap seen word => seen = mailbox.seen ∧ word.getLsbD 63 = false ∧
      ∀ route : Route, (word ^^^ seen).getLsbD route = false
  | _ => False

/-- The words, the reservations and the consumer represent an abstract mailbox. -/
structure Represents (mailbox : Mailbox ι) (pc : Pc) (rounds : Rounds Route) : Prop where
  run : Rounds.Run mailbox.trace rounds
  pending : ∀ route, route ∈ rounds.pending ↔ mailbox.unacknowledged route = true
  batch : ∀ route : Route, route ∈ rounds.batch ↔ (serving mailbox pc).getLsbD route = true
  high : (serving mailbox pc).getLsbD 63 = false
  armed : rounds.armed = mailbox.published.getLsbD 63
  reserved : ∀ route, mailbox.unacknowledged route = true → mailbox.reserved route ≠ none
  knows : Knows mailbox pc

/-- What a publisher knows between its steps. -/
def Mine (id : ι) (mailbox : Mailbox ι) : Pc → Prop
  | .idle => True
  | .flip route => mailbox.reserved route = some id ∧ mailbox.unacknowledged route = false
  | .ring => True
  | .panicked => True
  | _ => False

theorem Represents.none_pending {mailbox : Mailbox ι} {pc : Pc} {rounds : Rounds Route}
    (represents : Represents mailbox pc rounds)
    (clear : ∀ route, mailbox.unacknowledged route = false) : rounds.pending = ∅ := by
  apply Finset.eq_empty_of_forall_notMem
  intro route member
  have set := (represents.pending route).mp member
  rw [clear route] at set
  cases set

theorem Represents.some_pending {mailbox : Mailbox ι} {pc : Pc} {rounds : Rounds Route}
    (represents : Represents mailbox pc rounds) {route : Route}
    (set : mailbox.unacknowledged route = true) : rounds.pending.Nonempty :=
  ⟨route, (represents.pending route).mpr set⟩

/-! ## Publishers -/

section Publish

variable {id : ι} {mailbox mailbox' : Mailbox ι} {choice : Choice}
  {pc pc' other : Pc} {rounds : Rounds Route}

theorem publishStep_cases (taken : publishStep id choice mailbox pc = some (mailbox', pc')) :
    (∃ route, mailbox.reserved route = none ∧ pc = .idle ∧ pc' = .flip route ∧
      mailbox' = { mailbox with reserved := Function.update mailbox.reserved route (some id) }) ∨
    (pc = .idle ∧ pc' = .panicked ∧ mailbox' = mailbox) ∨
    (∃ route, pc = .flip route ∧ pc' = .ring ∧ mailbox' =
      { mailbox with published := mailbox.published ^^^ bit route }.log (.publish route)) ∨
    (pc = .ring ∧ pc' = .idle ∧
      mailbox' = mailbox.log (.ring (mailbox.published &&& sleeping != 0))) := by
  cases pc with
  | idle =>
      cases choice with
      | publish route =>
          rw [publishStep] at taken
          split at taken
          · rename_i bound
            split at taken
            · rename_i free
              cases taken
              exact .inl ⟨⟨route, bound⟩, free, rfl, rfl, rfl⟩
            · cases taken
          · cases taken
            exact .inr (.inl ⟨rfl, rfl, rfl⟩)
      | pop | hasPending | armWait | disarmWait | spurious | go => cases taken
  | flip route =>
      cases choice <;> cases taken
      exact .inr (.inr (.inl ⟨route, rfl, rfl, rfl⟩))
  | ring =>
      cases choice <;> cases taken
      exact .inr (.inr (.inr ⟨rfl, rfl, rfl⟩))
  | panicked | popBatch | popWord | popStore | popAck | pendingSeen | armLoad | armSwap =>
      cases choice <;> cases taken

theorem unacknowledged_flip (mailbox : Mailbox ι) (route other : Route) :
    ({ mailbox with published := mailbox.published ^^^ bit route } : Mailbox ι).unacknowledged
      other = (mailbox.unacknowledged other ^^ decide (other = route)) := by
  simp only [Mailbox.unacknowledged, BitVec.getLsbD_xor, getLsbD_bit _ _ (Route.small route),
    Fin.ext_iff]
  cases mailbox.published.getLsbD other <;> cases mailbox.seen.getLsbD other <;>
    cases decide ((other : Nat) = route) <;> rfl

theorem armed_eq : (mailbox.published &&& sleeping != 0) = mailbox.published.getLsbD 63 := by
  rw [Bool.eq_iff_iff, bne_iff_ne]
  exact sleeping_set

/-- A flip of a clear bit links the route. -/
theorem Represents.flip {route : Route} (represents : Represents mailbox other rounds)
    (owned : mailbox.reserved route = some id) (clear : mailbox.unacknowledged route = false) :
    Represents
      ({ mailbox with published := mailbox.published ^^^ bit route }.log (.publish route))
      other { rounds with fresh := insert route rounds.fresh } := by
  have absent : route ∉ rounds.pending := by
    rw [represents.pending, clear]
    rintro ⟨⟩
  have flips := unacknowledged_flip mailbox route
  have set : ∀ tested : Route, (mailbox.unacknowledged tested ^^ decide (tested = route)) = true ↔
      tested = route ∨ mailbox.unacknowledged tested = true := by
    intro tested
    by_cases same : tested = route
    · subst same
      simp [clear]
    · simp [same]
  refine ⟨represents.run.snoc (.publish route absent), ?_, ?_, ?_, ?_, ?_, ?_⟩
  · intro tested
    refine Iff.trans ?_ ((flips tested ▸ set tested).symm)
    rw [← represents.pending]
    simp [Rounds.pending]
  · intro tested
    have same := represents.batch tested
    cases other <;> exact same
  · have same := represents.high
    cases other <;> exact same
  · have apart : ¬ (63 : Nat) = route := Ne.symm (Nat.ne_of_lt route.isLt)
    have clearBit : (bit route).getLsbD 63 = false := by
      rw [getLsbD_bit _ _ (Route.small route), decide_eq_false apart]
    refine represents.armed.trans ?_
    change _ = (mailbox.published ^^^ bit route).getLsbD 63
    rw [BitVec.getLsbD_xor, clearBit, Bool.xor_false]
  · intro tested pending
    rcases (flips tested ▸ set tested).mp pending with rfl | old
    · change mailbox.reserved tested ≠ none
      rw [owned]
      rintro ⟨⟩
    · exact represents.reserved tested old
  · have known := represents.knows
    cases other with
    | pendingSeen word =>
        intro tested differs
        exact (flips tested ▸ set tested).mpr (.inr (known tested differs))
    | idle | popBatch | popWord | popStore | popAck | armLoad | armSwap => exact known
    | flip | ring | panicked => exact known

theorem Represents.publish (represents : Represents mailbox other rounds)
    (mine : Mine id mailbox pc) (taken : publishStep id choice mailbox pc = some (mailbox', pc')) :
    ∃ rounds', Represents mailbox' other rounds' ∧ Mine id mailbox' pc' := by
  rcases publishStep_cases taken with ⟨route, free, rfl, rfl, rfl⟩ | ⟨rfl, rfl, rfl⟩ |
    ⟨route, rfl, rfl, rfl⟩ | ⟨rfl, rfl, rfl⟩
  · have clear : mailbox.unacknowledged route = false := by
      rw [← Bool.not_eq_true]
      exact fun set => represents.reserved route set free
    refine ⟨rounds, ⟨represents.run, represents.pending, ?_, ?_, represents.armed, ?_, ?_⟩,
      Function.update_self .., clear⟩
    · have same := represents.batch
      cases other <;> exact same
    · have same := represents.high
      cases other <;> exact same
    · intro tested set
      dsimp only
      by_cases same : tested = route
      · subst same
        rw [Function.update_self]
        nofun
      · rw [Function.update_of_ne same]
        exact represents.reserved tested set
    · have known := represents.knows
      cases other <;> exact known
  · exact ⟨rounds, represents, trivial⟩
  · exact ⟨_, represents.flip mine.1 mine.2, trivial⟩
  · refine ⟨rounds, ⟨?_, represents.pending, ?_, ?_, represents.armed, represents.reserved, ?_⟩,
      trivial⟩
    · have rang : rounds.Step (.ring (mailbox.published &&& sleeping != 0)) rounds := by
        rw [armed_eq, ← represents.armed]
        exact .ring
      exact represents.run.snoc rang
    · have same := represents.batch
      cases other <;> exact same
    · have same := represents.high
      cases other <;> exact same
    · have known := represents.knows
      cases other <;> exact known

/-- The step of a publisher leaves the reservation of another one alone. -/
theorem Mine.keep_publish {id' : ι} {pc'' : Pc} (differs : id' ≠ id) (mine : Mine id mailbox pc)
    (theirs : Mine id' mailbox pc'')
    (taken : publishStep id choice mailbox pc = some (mailbox', pc')) :
    Mine id' mailbox' pc'' := by
  cases pc'' with
  | flip tested =>
      obtain ⟨owned, clear⟩ := theirs
      rcases publishStep_cases taken with ⟨route, free, rfl, rfl, rfl⟩ | ⟨rfl, rfl, rfl⟩ |
        ⟨route, rfl, rfl, rfl⟩ | ⟨rfl, rfl, rfl⟩
      · have apart : tested ≠ route := by
          rintro rfl
          rw [free] at owned
          cases owned
        exact ⟨(Function.update_of_ne apart _ _).trans owned, clear⟩
      · exact ⟨owned, clear⟩
      · have apart : tested ≠ route := by
          rintro rfl
          exact differs (Option.some.inj (owned.symm.trans mine.1))
        refine ⟨owned, ?_⟩
        have flips := unacknowledged_flip mailbox route tested
        rw [clear, decide_eq_false apart] at flips
        exact flips
      · exact ⟨owned, clear⟩
  | idle | ring | panicked => trivial
  | popBatch | popWord | popStore | popAck | pendingSeen | armLoad | armSwap => exact theirs

end Publish

/-! ## The consumer -/

section Consume

variable {mailbox mailbox' : Mailbox ι} {choice : Choice} {pc pc' : Pc} {rounds : Rounds Route}

/-- A step leaves what publishers rely on. -/
def Keeps (mailbox mailbox' : Mailbox ι) : Prop :=
  ∀ route : Route, mailbox.unacknowledged route = false →
    mailbox'.reserved route = mailbox.reserved route ∧ mailbox'.unacknowledged route = false

theorem Keeps.of_words (published : mailbox'.published = mailbox.published)
    (seen : mailbox'.seen = mailbox.seen) (reserved : mailbox'.reserved = mailbox.reserved) :
    Keeps mailbox mailbox' := by
  intro route clear
  refine ⟨congrFun reserved route, ?_⟩
  rw [Mailbox.unacknowledged, published, seen]
  exact clear

theorem armTest_keeps (mailbox : Mailbox ι) (seen word : Word) :
    Keeps mailbox (armTest mailbox seen word).1 := by
  rw [armTest]
  split
  · exact .of_words rfl rfl rfl
  · split <;> exact .of_words rfl rfl rfl

theorem Mine.keep_consume {id : ι} (keeps : Keeps mailbox mailbox') (mine : Mine id mailbox pc) :
    Mine id mailbox' pc := by
  cases pc with
  | flip route =>
      obtain ⟨owned, clear⟩ := mine
      obtain ⟨reserved, clear'⟩ := keeps route clear
      exact ⟨reserved.trans owned, clear'⟩
  | idle | ring | panicked => trivial
  | popBatch | popWord | popStore | popAck | pendingSeen | armLoad | armSwap => exact mine

/-- A step that only logs an event and moves on. -/
theorem Represents.log {rounds' : Rounds Route} {event : RoundEvent Route}
    (represents : Represents mailbox pc rounds) (step : rounds.Step event rounds')
    (batch : rounds'.batch = rounds.batch) (fresh : rounds'.fresh = rounds.fresh)
    (armed : rounds'.armed = rounds.armed) (same : serving mailbox pc' = serving mailbox pc)
    (knows : Knows mailbox pc') : Represents (mailbox.log event) pc' rounds' := by
  have pending : rounds'.pending = rounds.pending := by
    rw [Rounds.pending, batch, fresh, Rounds.pending]
  have served : serving (mailbox.log event) pc' = serving mailbox pc := by
    rw [← same]
    cases pc' <;> rfl
  refine ⟨represents.run.snoc step, ?_, ?_, ?_, ?_, represents.reserved, ?_⟩
  · rw [pending]
    exact represents.pending
  · rw [batch, served]
    exact represents.batch
  · rw [served]
    exact represents.high
  · rw [armed]
    exact represents.armed
  · cases pc' <;> exact knows

/-- A step of the consumer that changes nothing but its next step. -/
theorem Represents.move (represents : Represents mailbox pc rounds)
    (same : serving mailbox pc' = serving mailbox pc) (knows : Knows mailbox pc') :
    Represents mailbox pc' rounds where
  run := represents.run
  pending := represents.pending
  batch := same ▸ represents.batch
  high := same ▸ represents.high
  armed := represents.armed
  reserved := represents.reserved
  knows := knows

theorem unacknowledged_eq (route : Route) : mailbox.unacknowledged route =
    ((mailbox.published ^^^ mailbox.seen) &&& routeMask).getLsbD route := by
  rw [BitVec.getLsbD_and, getLsbD_routeMask, decide_eq_true route.isLt, Bool.and_true]
  rfl

/-- Nothing is unacknowledged when the masked words agree. -/
theorem clear_of_masked (agree : (mailbox.published ^^^ mailbox.seen) &&& routeMask = 0)
    (route : Route) : mailbox.unacknowledged route = false := masked_eq_zero.mp agree route

theorem set_of_masked (differ : (mailbox.published ^^^ mailbox.seen) &&& routeMask ≠ 0) :
    ∃ route, mailbox.unacknowledged route = true := by
  by_contra none
  apply differ
  rw [masked_eq_zero]
  intro route
  rw [← Bool.not_eq_true]
  exact fun set => none ⟨route, set⟩

theorem Represents.arm {seen word : Word} (represents : Represents mailbox pc rounds)
    (idle : serving mailbox pc = mailbox.batch) (owned : seen = mailbox.seen)
    (read : word = mailbox.published) (taken : armTest mailbox seen word = (mailbox', pc')) :
    ∃ rounds', Represents mailbox' pc' rounds' := by
  subst owned read
  rw [armTest] at taken
  split at taken
  · rename_i differ
    cases taken
    obtain ⟨route, set⟩ := set_of_masked differ
    exact ⟨rounds, represents.log (.ready (represents.some_pending set)) rfl rfl rfl idle.symm
      trivial⟩
  · rename_i agree
    have clear := clear_of_masked (not_not.mp agree)
    split at taken
    · rename_i asleep
      cases taken
      have armed : rounds.armed = true := represents.armed.trans (sleeping_set.mp asleep)
      have same : rounds = { rounds with armed := true } := by rw [← armed]
      refine ⟨_, represents.log (.arm (represents.none_pending clear)) rfl rfl ?_ idle.symm
        trivial⟩
      exact armed.symm
    · rename_i awake
      cases taken
      have notSet := (not_congr sleeping_set).mp awake
      exact ⟨rounds, represents.move idle.symm ⟨rfl, Bool.not_eq_true _ ▸ notSet, clear⟩⟩

/-- The sleeping bit is no route's. -/
theorem asleep_unacknowledged (mailbox : Mailbox ι) (route : Route) :
    ((mailbox.published ||| sleeping) ^^^ mailbox.seen).getLsbD route =
      mailbox.unacknowledged route := by
  have apart : ¬ (route : Nat) = 63 := Nat.ne_of_lt route.isLt
  rw [BitVec.getLsbD_xor, BitVec.getLsbD_or, getLsbD_sleeping, decide_eq_false apart,
    Bool.or_false]
  exact BitVec.getLsbD_xor.symm

theorem masked_unacknowledged (mailbox : Mailbox ι) (route : Route) :
    ((mailbox.published &&& routeMask) ^^^ mailbox.seen).getLsbD route =
      mailbox.unacknowledged route := by
  rw [BitVec.getLsbD_xor, BitVec.getLsbD_and, getLsbD_routeMask, decide_eq_true route.isLt,
    Bool.and_true]
  exact BitVec.getLsbD_xor.symm

theorem Represents.swap {seen word : Word}
    (represents : Represents mailbox (.armSwap seen word) rounds)
    (same : mailbox.published = word) :
    Represents ({ mailbox with published := word ||| sleeping }.log (.arm false)) .idle
      { rounds with armed := true } := by
  obtain ⟨owned, -, clear⟩ := represents.knows
  subst owned same
  have kept := asleep_unacknowledged mailbox
  refine ⟨represents.run.snoc (.arm (represents.none_pending clear)), ?_, represents.batch,
    represents.high, ?_, ?_, trivial⟩
  · intro route
    exact (represents.pending route).trans (by rw [← kept]; rfl)
  · change true = (mailbox.published ||| sleeping).getLsbD 63
    rw [BitVec.getLsbD_or, getLsbD_sleeping]
    simp
  · intro route set
    exact represents.reserved route ((kept route).symm.trans set)

theorem Represents.disarm (represents : Represents mailbox .idle rounds) :
    Represents ({ mailbox with published := mailbox.published &&& routeMask }.log .disarm) .idle
      { rounds with armed := false } := by
  have kept := masked_unacknowledged mailbox
  refine ⟨represents.run.snoc .disarm, ?_, represents.batch, represents.high, ?_, ?_, trivial⟩
  · intro route
    exact (represents.pending route).trans (by rw [← kept]; rfl)
  · change false = (mailbox.published &&& routeMask).getLsbD 63
    rw [BitVec.getLsbD_and, getLsbD_routeMask]
    simp
  · intro route set
    exact represents.reserved route ((kept route).symm.trans set)

/-- A captured batch is everything pending. -/
theorem Represents.capture {seen : Word} (represents : Represents mailbox (.popWord seen) rounds)
    (some : (mailbox.published ^^^ seen) &&& routeMask ≠ 0) :
    Represents (mailbox.log .capture)
      (.popStore seen ((mailbox.published ^^^ seen) &&& routeMask))
      ⟨rounds.fresh, ∅, rounds.armed⟩ := by
  obtain ⟨owned, empty⟩ := represents.knows
  subst owned
  have noBatch : rounds.batch = ∅ := by
    apply Finset.eq_empty_of_forall_notMem
    intro route member
    have set := (represents.batch route).mp member
    change mailbox.batch.getLsbD route = true at set
    rw [empty] at set
    simp at set
  have all : rounds.pending = rounds.fresh := by rw [Rounds.pending, noBatch, Finset.empty_union]
  have step : rounds.Step .capture ⟨rounds.fresh, ∅, rounds.armed⟩ := by
    have same : rounds = ⟨∅, rounds.fresh, rounds.armed⟩ := by rw [← noBatch]
    rw [same]
    exact .capture _ _
  refine ⟨represents.run.snoc step, ?_, ?_, ?_, represents.armed, represents.reserved,
    rfl, some⟩
  · intro route
    rw [Rounds.pending, Finset.union_empty, ← all]
    exact represents.pending route
  · intro route
    change route ∈ rounds.fresh ↔ _
    rw [← all, represents.pending, unacknowledged_eq]
    rfl
  · change ((mailbox.published ^^^ mailbox.seen) &&& routeMask).getLsbD 63 = false
    rw [BitVec.getLsbD_and, getLsbD_routeMask]
    simp

theorem xor_bit_cancel (word : Word) (route : Nat) : word ^^^ bit route ^^^ bit route = word := by
  rw [BitVec.xor_assoc, BitVec.xor_self, BitVec.xor_zero]

/-- The lowest bit of a batch is one of its routes. -/
theorem ctz_route {batch : Word} (some : batch ≠ 0) (high : batch.getLsbD 63 = false) :
    batch.getLsbD batch.ctz.toNat = true ∧ batch.ctz.toNat < routes := by
  have set := BitVec.getLsbD_true_ctz_of_ne_zero some
  refine ⟨set, ?_⟩
  have inside := BitVec.lt_of_getLsbD set
  have apart : batch.ctz.toNat ≠ 63 := by
    intro last
    rw [last, high] at set
    cases set
  unfold routes
  omega

theorem Represents.store {seen batch : Word}
    (represents : Represents mailbox (.popStore seen batch) rounds) :
    Represents { mailbox with batch := batch ^^^ bit batch.ctz.toNat }
      (.popAck seen batch.ctz.toNat) rounds := by
  obtain ⟨owned, some⟩ := represents.knows
  obtain ⟨set, small⟩ := ctz_route some represents.high
  have served : batch ^^^ bit batch.ctz.toNat ^^^ bit batch.ctz.toNat = batch :=
    xor_bit_cancel batch _
  refine ⟨represents.run, represents.pending, ?_, ?_, represents.armed, represents.reserved,
    owned, small, ?_⟩
  · intro route
    exact (represents.batch route).trans (by rw [serving, serving, served])
  · rw [serving, served]
    exact represents.high
  · change (batch ^^^ bit batch.ctz.toNat).getLsbD batch.ctz.toNat = false
    rw [BitVec.getLsbD_xor, set, getLsbD_bit _ _ (Nat.lt_trans small (by decide))]
    simp

theorem Represents.acknowledge {seen : Word} {route : Nat}
    (represents : Represents mailbox (.popAck seen route) rounds) :
    Represents ({ mailbox with
        seen := seen ^^^ bit route
        reserved := Function.update mailbox.reserved (Fin.ofNat routes route) none }.log
          (.pop (Fin.ofNat routes route))) .idle
      { rounds with batch := rounds.batch.erase (Fin.ofNat routes route) } ∧
    Keeps mailbox ({ mailbox with
        seen := seen ^^^ bit route
        reserved := Function.update mailbox.reserved (Fin.ofNat routes route) none }.log
          (.pop (Fin.ofNat routes route))) := by
  obtain ⟨owned, small, stored⟩ := represents.knows
  subst owned
  obtain ⟨popped, rfl⟩ : ∃ popped : Route, (popped : Nat) = route := ⟨⟨route, small⟩, rfl⟩
  rw [show Fin.ofNat routes popped = popped from Fin.ofNat_val_eq_self popped]
  have bits := getLsbD_bit popped
  have member : popped ∈ rounds.batch := by
    rw [represents.batch, serving, BitVec.getLsbD_xor, stored, bits _ (Route.small popped)]
    simp
  have waiting := (represents.pending popped).mp (Finset.mem_union_left _ member)
  have apart := Rounds.Steps.disjoint represents.run Rounds.new_disjoint
  have notFresh : popped ∉ rounds.fresh := Finset.disjoint_left.mp apart member
  have kept : ∀ tested : Route, (mailbox.published ^^^ (mailbox.seen ^^^ bit popped)).getLsbD
      tested = (mailbox.unacknowledged tested && decide (tested ≠ popped)) := by
    intro tested
    rw [← BitVec.xor_assoc, BitVec.getLsbD_xor, bits _ (Route.small popped)]
    change (mailbox.unacknowledged tested ^^ _) = _
    by_cases same : tested = popped
    · subst same
      simp [waiting]
    · have differs : ¬ (tested : Nat) = popped := fun equal => same (Fin.ext equal)
      simp [same, differs]
  refine ⟨⟨represents.run.snoc (.pop popped member), ?_, ?_, ?_, represents.armed, ?_, trivial⟩,
    ?_⟩
  · intro tested
    refine Iff.trans ?_ (Iff.of_eq (congrArg (· = true) (kept tested).symm))
    rw [Bool.and_eq_true, ← represents.pending, decide_eq_true_eq]
    simp only [Rounds.pending, Finset.mem_union, Finset.mem_erase]
    constructor
    · rintro (⟨differs, inBatch⟩ | inFresh)
      · exact ⟨.inl inBatch, differs⟩
      · exact ⟨.inr inFresh, fun same => notFresh (same ▸ inFresh)⟩
    · rintro ⟨inBatch | inFresh, differs⟩
      · exact .inl ⟨differs, inBatch⟩
      · exact .inr inFresh
  · intro tested
    rw [Finset.mem_erase, represents.batch, serving, BitVec.getLsbD_xor,
      bits _ (Route.small popped)]
    change _ ↔ mailbox.batch.getLsbD tested = true
    by_cases same : tested = popped
    · subst same
      simp [stored]
    · have differs : ¬ (tested : Nat) = popped := fun equal => same (Fin.ext equal)
      simp [same, differs]
  · have high := represents.high
    rw [serving, BitVec.getLsbD_xor, bits _ (Route.small popped)] at high
    have differs : ¬ 63 = (popped : Nat) := Ne.symm (Nat.ne_of_lt popped.isLt)
    rwa [decide_eq_false differs, Bool.xor_false] at high
  · intro tested set
    have both := (kept tested).symm.trans set
    rw [Bool.and_eq_true, decide_eq_true_eq] at both
    change Function.update mailbox.reserved popped none tested ≠ none
    rw [Function.update_of_ne both.2]
    exact represents.reserved tested both.1
  · intro tested clear
    have differs : tested ≠ popped := by
      rintro rfl
      rw [clear] at waiting
      cases waiting
    refine ⟨Function.update_of_ne differs _ _, (kept tested).trans ?_⟩
    rw [clear, Bool.false_and]

/-- Every step of the consumer keeps the representation and what publishers rely on. -/
theorem Represents.consume (represents : Represents mailbox pc rounds)
    (taken : consumeStep choice mailbox pc = some (mailbox', pc')) :
    (∃ rounds', Represents mailbox' pc' rounds') ∧ Keeps mailbox mailbox' := by
  cases pc with
  | idle =>
      cases choice with
      | pop | armWait =>
          cases taken
          exact ⟨⟨rounds, represents.move rfl rfl⟩, .of_words rfl rfl rfl⟩
      | hasPending =>
          cases taken
          exact ⟨⟨rounds, represents.move rfl fun _ => id⟩, .of_words rfl rfl rfl⟩
      | disarmWait =>
          cases taken
          refine ⟨⟨_, represents.disarm⟩, fun route clear => ⟨rfl, ?_⟩⟩
          have bits : (Mailbox.log { mailbox with published := mailbox.published &&& routeMask }
              .disarm).unacknowledged route = mailbox.unacknowledged route :=
            masked_unacknowledged mailbox route
          rw [bits, clear]
      | publish | spurious | go => cases taken
  | popBatch seen =>
      cases choice with
      | go =>
          dsimp only [consumeStep] at taken
          split at taken
          · rename_i empty
            cases taken
            exact ⟨⟨rounds, represents.move rfl ⟨represents.knows, empty⟩⟩, .of_words rfl rfl rfl⟩
          · rename_i some
            cases taken
            exact ⟨⟨rounds, represents.move rfl ⟨represents.knows, some⟩⟩, .of_words rfl rfl rfl⟩
      | publish | pop | hasPending | armWait | disarmWait | spurious => cases taken
  | popWord seen =>
      cases choice with
      | go =>
          dsimp only [consumeStep] at taken
          split at taken
          · rename_i agree
            cases taken
            rw [represents.knows.1] at agree
            have none := represents.none_pending (clear_of_masked agree)
            exact ⟨⟨rounds, represents.log (.empty none) rfl rfl rfl rfl trivial⟩,
              .of_words rfl rfl rfl⟩
          · rename_i differ
            cases taken
            exact ⟨⟨_, represents.capture differ⟩, .of_words rfl rfl rfl⟩
      | publish | pop | hasPending | armWait | disarmWait | spurious => cases taken
  | popStore =>
      cases choice <;> cases taken
      exact ⟨⟨rounds, represents.store⟩, .of_words rfl rfl rfl⟩
  | popAck =>
      cases choice <;> cases taken
      obtain ⟨acknowledged, keeps⟩ := represents.acknowledge
      exact ⟨⟨_, acknowledged⟩, keeps⟩
  | pendingSeen word =>
      cases choice <;> cases taken
      refine ⟨?_, .of_words rfl rfl rfl⟩
      by_cases agree : (word ^^^ mailbox.seen) &&& routeMask = 0
      · have missed : ((word ^^^ mailbox.seen) &&& routeMask != 0) = false := by simp [agree]
        rw [missed]
        exact ⟨rounds, represents.log .missed rfl rfl rfl rfl trivial⟩
      · have found : ((word ^^^ mailbox.seen) &&& routeMask != 0) = true := bne_iff_ne.mpr agree
        rw [found]
        rw [masked_eq_zero, not_forall] at agree
        obtain ⟨route, set⟩ := agree
        have waiting := represents.knows route (Bool.not_eq_false _ ▸ set)
        exact ⟨rounds, represents.log (.found (represents.some_pending waiting)) rfl rfl rfl rfl
          trivial⟩
  | armLoad seen =>
      cases choice with
      | go =>
          have tested := Option.some.inj taken
          have keeps := armTest_keeps mailbox seen mailbox.published
          rw [tested] at keeps
          exact ⟨represents.arm rfl represents.knows rfl tested, keeps⟩
      | publish | pop | hasPending | armWait | disarmWait | spurious => cases taken
  | armSwap seen word =>
      cases choice with
      | go =>
          dsimp only [consumeStep] at taken
          split at taken
          · rename_i same
            cases taken
            refine ⟨⟨_, represents.swap same⟩, fun route clear => ⟨rfl, ?_⟩⟩
            have bits : (Mailbox.log { mailbox with published := word ||| sleeping }
                (.arm false)).unacknowledged route = mailbox.unacknowledged route := by
              rw [← same]
              exact asleep_unacknowledged mailbox route
            rw [bits, clear]
          · have tested := Option.some.inj taken
            have keeps := armTest_keeps mailbox seen mailbox.published
            rw [tested] at keeps
            exact ⟨represents.arm rfl represents.knows.1 rfl tested, keeps⟩
      | spurious =>
          have tested := Option.some.inj taken
          have keeps := armTest_keeps mailbox seen mailbox.published
          rw [tested] at keeps
          exact ⟨represents.arm rfl represents.knows.1 rfl tested, keeps⟩
      | publish | pop | hasPending | armWait | disarmWait => cases taken
  | flip | ring | panicked => exact represents.knows.elim

end Consume

section Runs

variable [DecidableEq ι]

omit [DecidableEq ι] in
theorem represents_new : Represents (.new : Mailbox ι) .idle .new where
  run := .nil _
  pending := by simp [Rounds.pending, Rounds.new, Mailbox.unacknowledged, Mailbox.new]
  batch := by simp [Rounds.new, serving, Mailbox.new]
  high := by simp [serving, Mailbox.new]
  armed := by simp [Rounds.new, Mailbox.new]
  reserved := by simp [Mailbox.unacknowledged, Mailbox.new]
  knows := trivial

/-- In every reachable state the mailbox represents an abstract one. -/
theorem reachable_represents {state : Threads (Party ι) (Mailbox ι) Pc}
    (reachable : (program ι).system.Reachable state) :
    (∃ rounds, Represents state.shared (state.locals .consumer) rounds) ∧
      ∀ id, Mine id state.shared (state.locals (.publisher id)) := by
  induction reachable with
  | @initial first isInitial =>
      obtain ⟨fresh, idle⟩ := isInitial
      have fresh : first.shared = .new := fresh
      rw [fresh, idle .consumer]
      refine ⟨⟨.new, represents_new⟩, fun id => ?_⟩
      rw [idle]
      trivial
  | step previous taken ih =>
      obtain ⟨⟨rounds, represents⟩, mine⟩ := ih
      cases taken with
      | mk party moved =>
          obtain ⟨choice, moved⟩ := moved
          cases party with
          | publisher id =>
              obtain ⟨rounds', represents', mine'⟩ := represents.publish (mine id) moved
              refine ⟨⟨rounds', represents'⟩, fun other => ?_⟩
              dsimp only
              by_cases same : other = id
              · subst same
                rw [if_pos rfl]
                exact mine'
              · rw [if_neg (fun equal => same (Party.publisher.inj equal))]
                exact Mine.keep_publish same (mine id) (mine other) moved
          | consumer =>
              obtain ⟨represents', keeps⟩ := represents.consume moved
              exact ⟨represents', fun id => Mine.keep_consume keeps (mine id)⟩

/-! ## Delivery -/

/-- What publishers and the consumer see of the mailbox. -/
structure Delivers (state : Threads (Party ι) (Mailbox ι) Pc) : Prop where
  /-- The words tell which publications are outstanding. -/
  words : ∀ route, state.shared.unacknowledged route = true ↔
    Rounds.Outstanding route state.shared.trace
  /-- The next pop of a route is that of its last publication. -/
  exactlyOnce : ∀ before after, state.shared.trace = before ++ after → ∀ route,
    before.count (.pop route) ≤ before.count (.publish route) ∧
      before.count (.publish route) ≤ before.count (.pop route) + 1
  batchFirst : ∀ before between after route other,
    state.shared.trace = before ++ .capture :: between ++ .pop route :: after →
    .publish route ∈ between → Rounds.Outstanding other before → .pop other ∈ between
  boundedWait : ∀ before between route, state.shared.trace = before ++ .publish route :: between →
    .pop route ∉ between → between.countP Rounds.isPop ≤ 124
  /-- `pop` finds nothing only when nothing is outstanding. -/
  empties : ∀ before after, state.shared.trace = before ++ .empty :: after →
    ∀ route, ¬ Rounds.Outstanding route before
  finds : ∀ before after, state.shared.trace = before ++ .check true :: after →
    ∃ route, Rounds.Outstanding route before
  /-- A publisher is told to ring exactly while the consumer is armed. -/
  rings : ∀ before after answer, state.shared.trace = before ++ .ring answer :: after →
    (answer = true ↔ Rounds.Armed before)
  arms : ∀ before after, state.shared.trace = before ++ .arm false :: after →
    ∀ route, ¬ Rounds.Outstanding route before
  /-- `disarm_wait` keeps every publication. -/
  disarms : ∀ mailbox pc,
    consumeStep .disarmWait state.shared (state.locals .consumer) = some (mailbox, pc) →
    ∀ route, mailbox.unacknowledged route = state.shared.unacknowledged route
  /-- The route of a pop is one of the mailbox's. -/
  routes : ∀ seen route, state.locals .consumer = .popAck seen route → route < routes

theorem mailbox_delivers {state : Threads (Party ι) (Mailbox ι) Pc}
    (reachable : (program ι).system.Reachable state) : Delivers state := by
  obtain ⟨⟨rounds, represents⟩, -⟩ := reachable_represents reachable
  have run := represents.run
  refine ⟨?_, ?_, ?_, ?_, ?_, ?_, ?_, ?_, ?_, ?_⟩
  · intro route
    exact (represents.pending route).symm.trans (run.outstanding_iff route).symm
  · intro before after whole route
    rw [whole] at run
    exact Rounds.Run.balanced run route
  · intro before between after route other whole later outstanding
    rw [whole] at run
    exact Rounds.Run.batch_first run later outstanding
  · intro before between route whole unserved
    rw [whole] at run
    exact Rounds.Run.bounded_wait run unserved
  · intro before after whole
    rw [whole] at run
    exact Rounds.Run.empties run
  · intro before after whole
    rw [whole] at run
    exact Rounds.Run.finds run
  · intro before after answer whole
    rw [whole] at run
    exact Rounds.Run.rings run
  · intro before after whole
    rw [whole] at run
    exact Rounds.Run.arms run
  · intro mailbox pc taken route
    cases atPc : state.locals .consumer with
    | idle =>
        rw [atPc] at taken
        cases taken
        exact masked_unacknowledged state.shared route
    | flip | ring | panicked | popBatch | popWord | popStore | popAck | pendingSeen | armLoad
    | armSwap =>
        rw [atPc] at taken
        cases taken
  · intro seen route atPc
    have known := represents.knows
    rw [atPc] at known
    exact known.2.1

end Runs

/-- Two routes are published, captured and popped; the first is published again in between. -/
def reuseSchedule : List (Party Unit × Choice) :=
  let publish (route : Nat) : List (Party Unit × Choice) :=
    (.publisher (), .publish route) :: List.replicate 2 (.publisher (), .go)
  publish 0 ++ publish 62 ++
    ((.consumer, .pop) :: List.replicate 4 (.consumer, .go) : List (Party Unit × Choice)) ++
    publish 0 ++
    ((.consumer, .pop) :: List.replicate 3 (.consumer, .go) : List (Party Unit × Choice))

theorem new_reachable : (program Unit).system.Reachable ⟨.new, fun _ => .idle⟩ :=
  .initial ⟨rfl, fun _ => rfl⟩

theorem mailbox_delivers_reuse : ∃ state, (program Unit).system.Reachable state ∧
    state.shared.trace = [.publish 0, .ring false, .publish 62, .ring false, .capture, .pop 0,
      .publish 0, .ring false, .pop 62] ∧ Delivers state := by
  have runs : ((scheduler Unit).run reuseSchedule ⟨.new, fun _ => .idle⟩).map
      (fun state => state.shared.trace) = some [.publish 0, .ring false, .publish 62, .ring false,
        .capture, .pop 0, .publish 0, .ring false, .pop 62] := by decide +kernel
  obtain ⟨state, run, trace⟩ := Option.map_eq_some_iff.mp runs
  have reachable := (scheduler Unit).run_reachable new_reachable run
  exact ⟨state, reachable, trace, mailbox_delivers reachable⟩

end VThread.Parity

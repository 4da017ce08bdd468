import VThread.Evidence.Steps

/-!
# Conservation of the evidence

No number is handed out twice, no event that entered the channel is lost or repeated, and
the counters say where every record call and every event is.
-/

namespace VThread.Evidence

open VThread.Lib

variable {ι : Type}

/-! ## Numbers -/

/-- The numbers taken so far are those below the next one. -/
structure Numbered (stream : Stream ι) : Prop where
  numbers : stream.calls.map (·.2.sequence) = List.range stream.status.nextSequence
  fits : stream.status.nextSequence ≤ maxWord
  called : ∀ event ∈ stream.sent, ∃ id, (id, event) ∈ stream.calls
  once : stream.sent.Nodup

theorem Numbered.caller {stream : Stream ι} (numbered : Numbered stream) {id other : ι}
    {event event' : RuntimeEvent} (call : (id, event) ∈ stream.calls)
    (call' : (other, event') ∈ stream.calls) (same : event.sequence = event'.sequence) :
    id = other ∧ event = event' := by
  have distinct : (stream.calls.map (·.2.sequence)).Nodup := by
    rw [numbered.numbers]
    exact List.nodup_range
  have equal := List.inj_on_of_nodup_map distinct call call' same
  cases equal
  exact ⟨rfl, rfl⟩

/-- The call of a recorder whose event has not been sent. -/
structure Unsent (id : ι) (event : RuntimeEvent) (stream : Stream ι) : Prop where
  called : (id, event) ∈ stream.calls
  unsent : event ∉ stream.sent

/-- What a party knows between its steps. -/
def Mine : Party ι → Stream ι → Pc → Prop
  | .recorder _, _, .idle => True
  | .recorder id, stream, .numbered event => Unsent id event stream
  | .recorder id, stream, .raised event => Unsent id event stream
  | .recorder id, stream, .accepted event => (id, event) ∈ stream.calls
  | .recorder _, _, .finishing => True
  | .recorder id, stream, .refused sequence =>
      ∃ event, event.sequence = sequence ∧ Unsent id event stream
  | .recorder id, stream, .dropping sequence =>
      ∃ event, event.sequence = sequence ∧ Unsent id event stream
  | .recorder id, stream, .noting sequence =>
      ∃ event, event.sequence = sequence ∧ Unsent id event stream
  | .recorder _, stream, .exhausted => stream.status.nextSequence = maxWord
  | .consumer, _, .idle => True
  | .consumer, _, .receiving => True
  | .consumer, _, .collecting _ => True
  | .consumer, _, .collected _ => True
  | _, _, _ => False

theorem Unsent.keep {id : ι} {event : RuntimeEvent} {stream stream' : Stream ι}
    (mine : Unsent id event stream) (calls : stream.calls ⊆ stream'.calls)
    (sent : event ∉ stream'.sent) : Unsent id event stream' :=
  ⟨calls mine.called, sent⟩

theorem Mine.keep {party : Party ι} {stream stream' : Stream ι} {pc : Pc}
    (mine : Mine party stream pc) (calls : stream.calls ⊆ stream'.calls)
    (sent : ∀ id event, party = .recorder id → Unsent id event stream →
      event ∉ stream'.sent)
    (next : stream.status.nextSequence = maxWord → stream'.status.nextSequence = maxWord) :
    Mine party stream' pc := by
  cases party with
  | consumer => cases pc <;> exact mine
  | recorder id =>
      cases pc with
      | idle | finishing => trivial
      | numbered event | raised event =>
          exact Unsent.keep mine calls (sent id event rfl mine)
      | accepted event => exact calls mine
      | refused sequence | dropping sequence | noting sequence =>
          obtain ⟨event, same, unsent⟩ := mine
          exact ⟨event, same, unsent.keep calls (sent id event rfl unsent)⟩
      | exhausted => exact next mine
      | receiving | collecting | collected => exact mine

/-- A record step changes calls and sent events only by the recorder's own event. -/
theorem Records.frame {id : ι} {stream stream' : Stream ι} {pc pc' : Pc}
    (taken : Records id stream pc stream' pc') :
    stream.calls ⊆ stream'.calls ∧
      (stream'.sent = stream.sent ∨
        ∃ event, pc = .raised event ∧ stream'.sent = stream.sent ++ [event]) ∧
      (stream.status.nextSequence = maxWord → stream'.status.nextSequence = maxWord) := by
  cases taken with
  | number _ _ below =>
      exact ⟨List.subset_append_left _ _, .inl rfl,
        fun full => absurd full (Nat.ne_of_lt below)⟩
  | send event room => exact ⟨List.Subset.refl _, .inr ⟨event, rfl, rfl⟩, fun full => full⟩
  | exhaust | raise | refuse | count | finish | lower | drop | note =>
      exact ⟨List.Subset.refl _, .inl rfl, fun full => full⟩

theorem Consumes.frame {stream stream' : Stream ι} {pc pc' : Pc}
    (taken : Consumes stream pc stream' pc') :
    stream'.calls = stream.calls ∧ stream'.sent = stream.sent ∧
      stream'.status.nextSequence = stream.status.nextSequence := by
  cases taken <;> exact ⟨rfl, rfl, rfl⟩

theorem Records.own {id : ι} {stream stream' : Stream ι} {pc pc' : Pc}
    (numbered : Numbered stream) (mine : Mine (.recorder id) stream pc)
    (taken : Records id stream pc stream' pc') :
    Numbered stream' ∧ Mine (.recorder id) stream' pc' := by
  cases taken with
  | exhaust full => exact ⟨numbered, Nat.le_antisymm numbered.fits full⟩
  | number _ _ below =>
      have absent : ∀ event ∈ stream.sent, event.sequence ≠ stream.status.nextSequence := by
        intro event member same
        obtain ⟨other, call⟩ := numbered.called event member
        have listed : event.sequence ∈ stream.calls.map (·.2.sequence) :=
          List.mem_map.mpr ⟨_, call, rfl⟩
        rw [numbered.numbers, List.mem_range] at listed
        exact absurd same (Nat.ne_of_lt listed)
      refine ⟨⟨?_, below, ?_, numbered.once⟩, ?_, ?_⟩
      · simp [numbered.numbers, List.range_succ]
      · intro event member
        obtain ⟨other, call⟩ := numbered.called event member
        exact ⟨other, List.mem_append_left _ call⟩
      · exact List.mem_append_right _ (List.mem_singleton_self _)
      · exact fun member => absent _ member rfl
  | raise event => exact ⟨⟨numbered.numbers, numbered.fits, numbered.called, numbered.once⟩,
      ⟨mine.called, mine.unsent⟩⟩
  | send event room =>
      refine ⟨⟨numbered.numbers, numbered.fits, ?_, ?_⟩, mine.called⟩
      · intro other member
        rcases List.mem_append.mp member with old | new
        · exact numbered.called other old
        · rw [List.mem_singleton.mp new]
          exact ⟨id, mine.called⟩
      · have fresh : ∀ other ∈ stream.sent, other ≠ event := fun other member same =>
          mine.unsent (same ▸ member)
        exact List.nodup_append.mpr ⟨numbered.once, List.nodup_singleton _, by simpa using fresh⟩
  | refuse event => exact ⟨numbered, event, rfl, mine⟩
  | count event =>
      refine ⟨⟨numbered.numbers, numbered.fits, numbered.called, numbered.once⟩, ?_⟩
      split <;> trivial
  | finish | note =>
      exact ⟨⟨numbered.numbers, numbered.fits, numbered.called, numbered.once⟩, trivial⟩
  | lower sequence | drop sequence =>
      obtain ⟨event, same, unsent⟩ := mine
      exact ⟨⟨numbered.numbers, numbered.fits, numbered.called, numbered.once⟩,
        event, same, unsent.called, unsent.unsent⟩

theorem Consumes.own {stream stream' : Stream ι} {pc pc' : Pc} (numbered : Numbered stream)
    (taken : Consumes stream pc stream' pc') :
    Numbered stream' ∧ Mine .consumer stream' pc' := by
  obtain ⟨calls, sent, next⟩ := taken.frame
  refine ⟨⟨?_, ?_, ?_, ?_⟩, ?_⟩
  · rw [calls, next, numbered.numbers]
  · rw [next]
    exact numbered.fits
  · rw [calls, sent]
    exact numbered.called
  · rw [sent]
    exact numbered.once
  · cases taken <;> trivial

theorem numbered_initial (capacity : Nat) : Numbered (bounded capacity : Stream ι) where
  numbers := rfl
  fits := Nat.zero_le _
  called := nofun
  once := List.nodup_nil

/-- The numbering holds in every reachable state, and every party knows its own call. -/
theorem reachable_numbered [DecidableEq ι] {capacity : Nat}
    {state : Threads (Party ι) (Stream ι) Pc}
    (reachable : (program ι capacity).system.Reachable state) :
    Numbered state.shared ∧ ∀ party, Mine party state.shared (state.locals party) := by
  refine Program.invariant ?_ ?_ ?_ reachable
  · rintro _ rfl
    refine ⟨numbered_initial capacity, fun party => ?_⟩
    cases party <;> trivial
  · rintro party stream pc stream' pc' numbered mine ⟨choice, taken⟩
    cases party with
    | recorder id => exact (recordStep_records taken).own numbered mine
    | consumer => exact (consumeStep_consumes taken).own numbered
  · rintro party other stream pc otherPc stream' pc' differs numbered mine others ⟨choice, taken⟩
    cases party with
    | recorder id =>
        have records := recordStep_records taken
        obtain ⟨calls, sent, next⟩ := records.frame
        refine others.keep calls ?_ next
        rintro id' event rfl unsent member
        rcases sent with same | ⟨own, rfl, grown⟩
        · exact unsent.unsent (same ▸ member)
        · rw [grown] at member
          rcases List.mem_append.mp member with old | new
          · exact unsent.unsent old
          · rw [List.mem_singleton.mp new] at unsent
            obtain ⟨same, -⟩ := numbered.caller unsent.called mine.called rfl
            exact differs (congrArg Party.recorder same)
    | consumer =>
        obtain ⟨calls, sent, next⟩ := (consumeStep_consumes taken).frame
        refine others.keep ?_ ?_ ?_
        · rw [calls]
          exact List.Subset.refl _
        · intro id event _ unsent
          rw [sent]
          exact unsent.unsent
        · rw [next]
          exact fun full => full

/-! ## Counts -/

/-- Where a record call is between its steps. -/
inductive Stage where
  | numbered
  | raised
  | accepted
  | refused
  | dropping
  deriving DecidableEq

theorem Stage.forall {holds : Stage → Prop} : (∀ stage, holds stage) ↔
    holds .numbered ∧ holds .raised ∧ holds .accepted ∧ holds .refused ∧ holds .dropping := by
  refine ⟨fun all => ⟨all _, all _, all _, all _, all _⟩, ?_⟩
  rintro ⟨numbered, raised, accepted, refused, dropping⟩ stage
  cases stage <;> assumption

def Pc.stage : Pc → Option Stage
  | .numbered _ => some .numbered
  | .raised _ => some .raised
  | .accepted _ => some .accepted
  | .refused _ => some .refused
  | .dropping _ => some .dropping
  | _ => none

def Pc.atStage (stage : Stage) (pc : Pc) : Nat := if pc.stage = some stage then 1 else 0

/-- Events a batch has received and not yet subtracted. -/
def Pc.held : Pc → List RuntimeEvent
  | .collecting events => events
  | .collected events => events
  | _ => []

def Ordered (events : List RuntimeEvent) : Prop :=
  events.Pairwise fun first second => first.sequence ≤ second.sequence

/-- The counters against the events in the channel, the events held by the batch and the
calls at every stage. -/
structure Counts (capacity : Nat) (stream : Stream ι) (held : List RuntimeEvent)
    (calls : Stage → Nat) : Prop where
  sized : stream.status.capacity = capacity
  placed : stream.sent.Perm (stream.batches.flatten ++ held ++ stream.channel)
  pending : stream.status.pending =
    stream.channel.length + calls .raised + calls .refused + held.length
  recorded : stream.status.recorded + calls .accepted = stream.sent.length
  dropped : stream.status.dropped + calls .numbered + calls .raised + calls .refused +
    calls .dropping + stream.sent.length = stream.calls.length
  batches : ∀ batch ∈ stream.batches, Ordered batch ∧ batch.length ≤ max 1 capacity
  bounded : held.length ≤ max 1 capacity

theorem Counts.placed_length {capacity : Nat} {stream : Stream ι} {held : List RuntimeEvent}
    {calls : Stage → Nat} (counts : Counts capacity stream held calls) :
    stream.sent.length =
      stream.batches.flatten.length + held.length + stream.channel.length := by
  have length := counts.placed.length_eq
  simpa only [List.length_append] using length

theorem Numbered.length {stream : Stream ι} (numbered : Numbered stream) :
    stream.calls.length ≤ maxWord := by
  have length := congrArg List.length numbered.numbers
  simp only [List.length_map, List.length_range] at length
  have fits := numbered.fits
  omega

theorem fetchAdd_eq {counter amount : Nat} (fits : counter + amount ≤ maxWord) :
    fetchAdd counter amount = counter + amount := by
  unfold maxWord at fits
  unfold fetchAdd
  omega

theorem fetchSub_eq {counter amount : Nat} (covered : amount ≤ counter) :
    fetchSub counter amount = counter - amount := if_pos covered

theorem Counts.record {capacity : Nat} {id : ι} {stream stream' : Stream ι} {pc pc' : Pc}
    {held : List RuntimeEvent} {calls calls' : Stage → Nat} (numbered : Numbered stream)
    (counts : Counts capacity stream held calls) (taken : Records id stream pc stream' pc')
    (moved : ∀ stage, calls' stage + pc.atStage stage = calls stage + pc'.atStage stage) :
    Counts capacity stream' held calls' := by
  have placed := counts.placed_length
  have bound := numbered.length
  have pending := counts.pending
  have recorded := counts.recorded
  have dropped := counts.dropped
  cases taken with
  | exhaust | refuse =>
      simp [Stage.forall, Pc.atStage, Pc.stage] at moved
      exact ⟨counts.sized, counts.placed, by omega, by omega, by omega, counts.batches,
        counts.bounded⟩
  | finish | note =>
      simp [Stage.forall, Pc.atStage, Pc.stage] at moved
      refine ⟨counts.sized, counts.placed, ?_, ?_, ?_, counts.batches, counts.bounded⟩
      all_goals dsimp only; omega
  | number =>
      simp [Stage.forall, Pc.atStage, Pc.stage] at moved
      refine ⟨counts.sized, counts.placed, ?_, ?_, ?_, counts.batches, counts.bounded⟩
      all_goals simp only [List.length_append, List.length_singleton]; omega
  | raise event =>
      simp [Stage.forall, Pc.atStage, Pc.stage] at moved
      have added : fetchAdd stream.status.pending 1 = stream.status.pending + 1 :=
        fetchAdd_eq (by omega)
      refine ⟨counts.sized, counts.placed, ?_, ?_, ?_, counts.batches, counts.bounded⟩
      all_goals dsimp only; omega
  | send =>
      simp [Stage.forall, Pc.atStage, Pc.stage] at moved
      refine ⟨counts.sized, ?_, ?_, ?_, ?_, counts.batches, counts.bounded⟩
      · dsimp only
        rw [← List.append_assoc]
        exact counts.placed.append_right _
      all_goals simp only [List.length_append, List.length_singleton]; omega
  | count event =>
      have back : (if event.kind.terminal then Pc.finishing else Pc.idle).stage = none := by
        split <;> rfl
      simp only [Pc.atStage, back] at moved
      simp [Stage.forall, Pc.stage] at moved
      have added : fetchAdd stream.status.recorded 1 = stream.status.recorded + 1 :=
        fetchAdd_eq (by omega)
      refine ⟨counts.sized, counts.placed, ?_, ?_, ?_, counts.batches, counts.bounded⟩
      all_goals dsimp only; omega
  | lower =>
      simp [Stage.forall, Pc.atStage, Pc.stage] at moved
      have taken : fetchSub stream.status.pending 1 = stream.status.pending - 1 :=
        fetchSub_eq (by omega)
      refine ⟨counts.sized, counts.placed, ?_, ?_, ?_, counts.batches, counts.bounded⟩
      all_goals dsimp only; omega
  | drop =>
      simp [Stage.forall, Pc.atStage, Pc.stage] at moved
      have added : fetchAdd stream.status.dropped 1 = stream.status.dropped + 1 :=
        fetchAdd_eq (by omega)
      refine ⟨counts.sized, counts.placed, ?_, ?_, ?_, counts.batches, counts.bounded⟩
      all_goals dsimp only; omega

instance : Std.Total fun first second : RuntimeEvent => first.sequence ≤ second.sequence where
  total first second := Nat.le_total first.sequence second.sequence

instance : IsTrans RuntimeEvent fun first second => first.sequence ≤ second.sequence where
  trans _ _ _ := Nat.le_trans

theorem sortBySequence_ordered (events : List RuntimeEvent) : Ordered (sortBySequence events) :=
  List.pairwise_insertionSort _ events

theorem sortBySequence_perm (events : List RuntimeEvent) :
    (sortBySequence events).Perm events := List.perm_insertionSort _ events

theorem Counts.consume {capacity : Nat} {stream stream' : Stream ι} {pc pc' : Pc}
    {calls : Stage → Nat} (numbered : Numbered stream)
    (counts : Counts capacity stream pc.held calls) (taken : Consumes stream pc stream' pc') :
    Counts capacity stream' pc'.held calls := by
  have placed := counts.placed_length
  have bound := numbered.length
  have pending := counts.pending
  have dropped := counts.dropped
  cases taken with
  | drain | wait | timeOut | stop =>
      exact ⟨counts.sized, counts.placed, pending, counts.recorded, dropped, counts.batches,
        counts.bounded⟩
  | first event rest head =>
      refine ⟨counts.sized, ?_, ?_, counts.recorded, dropped, counts.batches, ?_⟩
      · have split := counts.placed
        simpa [Pc.held, head] using split
      · simp only [head, List.length_cons, Pc.held, List.length_nil] at pending ⊢
        omega
      · simp [Pc.held]
  | more events event rest below head =>
      refine ⟨counts.sized, ?_, ?_, counts.recorded, dropped, counts.batches, ?_⟩
      · have split := counts.placed
        simpa [Pc.held, head] using split
      · simp only [head, Pc.held, List.length_append, List.length_cons, List.length_nil]
          at pending ⊢
        omega
      · have room : events.length < capacity := counts.sized ▸ below
        simp only [Pc.held, List.length_append, List.length_singleton]
        omega
  | finish events =>
      have covered : fetchSub stream.status.pending events.length =
          stream.status.pending - events.length := by
        simp only [Pc.held] at pending placed
        exact fetchSub_eq (by omega)
      refine ⟨counts.sized, ?_, ?_, counts.recorded, dropped, ?_, ?_⟩
      · have sorted := (sortBySequence_perm events).symm.append_left stream.batches.flatten
        have split := counts.placed.trans (sorted.append_right _)
        simpa [Pc.held] using split
      · simp only [Pc.held, List.length_nil] at pending ⊢
        omega
      · intro batch member
        rcases List.mem_append.mp member with old | new
        · exact counts.batches batch old
        · rw [List.mem_singleton.mp new]
          refine ⟨sortBySequence_ordered events, ?_⟩
          rw [(sortBySequence_perm events).length_eq]
          exact counts.bounded
      · exact Nat.zero_le _

section Runs

variable [DecidableEq ι] {capacity : Nat}

def Pc.inCall : Pc → Prop
  | .idle => False
  | .exhausted => False
  | _ => True

end Runs

abbrev Schedule := List (Party Bool × Choice)

end VThread.Evidence

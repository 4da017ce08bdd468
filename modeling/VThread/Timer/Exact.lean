import VThread.Timer.Queue

/-!
# The timer queue is exact

In every run the two indexes of the queue agree with the active timers, so calls answer from
the active timers alone and no assertion fails.
-/

namespace VThread.Timer

open VThread.Lib

variable {I K T : Type} [LinearOrder I] [LinearOrder K] {queue : TimerQueue I K T}
  {timers : Timers I K T}

/-- Both indexes hold exactly the active timers. -/
structure Represents (queue : TimerQueue I K T) (timers : Timers I K T) : Prop where
  active : ∀ token, queue.active.find? token = (timers token).map (token, ·)
  deadlines : ∀ deadline token, (deadline, token) ∈ queue.deadlines ↔
    ∃ task, timers token = some ⟨deadline, task⟩

theorem represents_new : Represents (.new : TimerQueue I K T) fun _ => none :=
  ⟨fun _ => rfl, fun _ _ =>
    ⟨fun member => absurd member (Ordered.not_mem_empty _), fun ⟨_, isActive⟩ => nomatch isActive⟩⟩

namespace Represents

theorem mem_active (represents : Represents queue timers) {token : K}
    {registration : TimerRegistration I T} :
    (token, registration) ∈ queue.active ↔ timers token = some registration := by
  have found := represents.active token
  constructor
  · intro member
    rw [Ordered.find?_eq_some.mpr ⟨member, rfl⟩] at found
    obtain ⟨_, isActive, same⟩ := Option.map_eq_some_iff.mp found.symm
    cases same
    exact isActive
  · intro isActive
    rw [isActive] at found
    exact (Ordered.find?_eq_some.mp found).1

/-- A timer is added for an inactive token. -/
theorem schedule (represents : Represents queue timers) (task : T) (token : K) (deadline : I) :
    Represents (queue.schedule task token deadline).1
        (timers.after (.schedule task token deadline)) ∧
      (queue.schedule task token deadline).2 = (timers token).isNone := by
  have found := represents.active token
  rw [TimerQueue.schedule, Timers.after]
  cases timer : timers token with
  | some =>
      rw [timer, Option.map_some] at found
      rw [found]
      exact ⟨represents, rfl⟩
  | none =>
      rw [timer, Option.map_none] at found
      rw [found]
      refine ⟨⟨fun other => ?_, fun due other => ?_⟩, rfl⟩
      · dsimp only
        rw [Ordered.find?_insert]
        by_cases same : token = other
        · subst same
          simp
        · rw [if_neg same, Function.update_of_ne (Ne.symm same), represents.active]
      · dsimp only
        rw [Ordered.mem_insert, represents.deadlines]
        by_cases same : other = token
        · subst same
          rw [Function.update_self, timer]
          constructor
          · rintro (equal | ⟨⟨_, isActive⟩, -⟩)
            · cases equal
              exact ⟨task, rfl⟩
            · cases isActive
          · rintro ⟨_, equal⟩
            cases equal
            exact .inl rfl
        · rw [Function.update_of_ne same]
          constructor
          · rintro (equal | ⟨isActive, -⟩)
            · cases equal
              exact absurd rfl same
            · exact isActive
          · intro isActive
            refine .inr ⟨isActive, fun equal => same ?_⟩
            exact congrArg (fun pair => (ofLex pair).2) equal

/-- A token is dropped from both indexes. -/
theorem erase (represents : Represents queue timers) {token : K} {deadline : I} {task : T}
    (isActive : timers token = some ⟨deadline, task⟩)
    {deadlines : Ordered (toLex : I × K → I ×ₗ K)}
    (dropped : ∀ pair, pair ∈ deadlines ↔ pair ∈ queue.deadlines ∧ pair ≠ (deadline, token)) :
    Represents ⟨deadlines, queue.active.erase token⟩ (Function.update timers token none) := by
  refine ⟨fun other => ?_, fun due other => ?_⟩
  · dsimp only
    rw [Ordered.find?_erase]
    by_cases same : other = token
    · rw [if_pos same, same, Function.update_self]
      rfl
    · rw [if_neg same, Function.update_of_ne same, represents.active]
  · dsimp only
    rw [dropped, represents.deadlines]
    by_cases same : other = token
    · subst same
      rw [Function.update_self, isActive]
      constructor
      · rintro ⟨⟨_, equal⟩, differ⟩
        cases equal
        exact absurd rfl differ
      · rintro ⟨_, equal⟩
        cases equal
    · rw [Function.update_of_ne same]
      constructor
      · exact fun found => found.1
      · refine fun found => ⟨found, fun equal => same ?_⟩
        exact congrArg Prod.snd equal

theorem cancel (represents : Represents queue timers) (token : K) :
    Represents (queue.cancel token).1 (timers.after (.cancel token)) ∧
      (queue.cancel token).2 = (timers token).isSome := by
  have found := represents.active token
  rw [TimerQueue.cancel, Timers.after]
  cases timer : timers token with
  | none =>
      have still : Function.update timers token none = timers := by
        rw [← timer, Function.update_eq_self]
      rw [timer, Option.map_none] at found
      rw [found, still]
      exact ⟨represents, rfl⟩
  | some registration =>
      rw [timer, Option.map_some] at found
      rw [found]
      have indexed : (registration.deadline, token) ∈ queue.deadlines :=
        (represents.deadlines _ _).mpr ⟨registration.task, timer⟩
      refine ⟨represents.erase timer fun pair => ?_, ?_⟩
      · rw [Ordered.mem_erase, ne_eq, toLex_inj]
      · dsimp only
        rw [Ordered.find?_eq_some.mpr ⟨indexed, rfl⟩]
        rfl

end Represents

/-! ## Expiry -/

/-- Nothing is due before the first deadline. -/
theorem Represents.none_due (represents : Represents queue timers) {now : I}
    (later : ∀ deadline token, queue.deadlines.first? = some (deadline, token) → now < deadline) :
    timers.after (.popExpired now) = timers ∧ timers.Due now [] := by
  have future : ∀ token registration, timers token = some registration →
      now < registration.deadline := by
    intro token registration isActive
    have indexed : (registration.deadline, token) ∈ queue.deadlines :=
      (represents.deadlines _ _).mpr ⟨registration.task, isActive⟩
    cases first : queue.deadlines.first? with
    | none => exact absurd indexed (Ordered.first?_eq_none.mp first _)
    | some pair =>
        have least : toLex pair ≤ toLex (registration.deadline, token) :=
          Ordered.first?_le first indexed
        exact lt_of_lt_of_le (later pair.1 pair.2 first) (Prod.Lex.monotone_fst _ _ least)
  constructor
  · funext token
    change (timers token).filter _ = timers token
    cases timer : timers token with
    | none => rfl
    | some registration => simp [future token registration timer]
  · refine ⟨fun task token => ?_, .nil⟩
    constructor
    · intro member
      cases member
    · rintro ⟨deadline, due, isActive⟩
      exact absurd (future token _ isActive) (not_lt_of_ge due)

/-- The first timer is due, and the others are due without it. -/
theorem Timers.Due.cons {now deadline : I} {token : K} {task : T} (due : deadline ≤ now)
    (isActive : timers token = some ⟨deadline, task⟩)
    (first : ∀ other registration, other ≠ token → timers other = some registration →
      toLex (deadline, token) < toLex (registration.deadline, other))
    {expired : List (ExpiredTimer K T)}
    (rest : Timers.Due (Function.update timers token none) now expired) :
    timers.Due now (⟨task, token⟩ :: expired) := by
  have kept : ∀ other registration, Function.update timers token none other = some registration →
      other ≠ token ∧ timers other = some registration := by
    intro other registration found
    by_cases same : other = token
    · rw [same, Function.update_self] at found
      cases found
    · rw [Function.update_of_ne same] at found
      exact ⟨same, found⟩
  constructor
  · intro otherTask other
    rw [List.mem_cons, rest.exactly]
    constructor
    · rintro (equal | ⟨otherDeadline, isDue, found⟩)
      · cases equal
        exact ⟨deadline, due, isActive⟩
      · exact ⟨otherDeadline, isDue, (kept _ _ found).2⟩
    · rintro ⟨otherDeadline, isDue, found⟩
      by_cases same : other = token
      · rw [same, isActive] at found
        cases found
        exact .inl (by rw [same])
      · exact .inr ⟨otherDeadline, isDue, by rw [Function.update_of_ne same, found]⟩
  · refine List.pairwise_cons.mpr ⟨?_, rest.ordered.imp ?_⟩
    · rintro ⟨otherTask, other⟩ member
      obtain ⟨otherDeadline, -, found⟩ := (rest.exactly _ _).mp member
      obtain ⟨differ, found⟩ := kept _ _ found
      exact ⟨_, _, isActive, found, first other _ differ found⟩
    · rintro left right ⟨earlier, later, isLeft, isRight, less⟩
      exact ⟨earlier, later, (kept _ _ isLeft).2, (kept _ _ isRight).2, less⟩

/-- The loop of `pop_expired` adds the timers that are due, and leaves the others. -/
theorem Represents.popWhile (represents : Represents queue timers) (now : I)
    (expired : List (ExpiredTimer K T)) :
    ∃ queue' due, queue.popWhile now expired = .ok (queue', expired ++ due) ∧
      Represents queue' (timers.after (.popExpired now)) ∧ timers.Due now due := by
  induction size : queue.deadlines.items.length using Nat.strong_induction_on
    generalizing queue timers expired with
  | _ size ih =>
      rw [TimerQueue.popWhile]
      split
      · rename_i first
        obtain ⟨same, due⟩ := @none_due _ _ _ _ _ queue timers represents now
          (fun _ _ isFirst => by cases first.symm.trans isFirst)
        refine ⟨queue, [], by rw [List.append_nil]; rfl, ?_, due⟩
        rwa [same]
      · rename_i deadline token first
        split
        · rename_i future
          obtain ⟨same, due⟩ := @none_due _ _ _ _ _ queue timers represents now (by
            intro other _ isFirst
            rw [first] at isFirst
            cases isFirst
            exact future)
          refine ⟨queue, [], by rw [List.append_nil]; rfl, ?_, due⟩
          rwa [same]
        · rename_i reached
          obtain ⟨task, isActive⟩ :=
            (represents.deadlines deadline token).mp (Ordered.first?_mem first)
          have found := represents.active token
          rw [isActive] at found
          have popped := represents.erase isActive fun pair => Ordered.mem_popFirst first
          have shorter := Ordered.length_popFirst first
          rw [size] at shorter
          obtain ⟨queue', due, ran, represents', isDue⟩ :=
            ih _ shorter popped (expired ++ [⟨task, token⟩]) rfl
          rw [found, Option.map_some, expect_some, ok_bind]
          dsimp only
          rw [ensure_of rfl, ok_bind]
          refine ⟨queue', ⟨task, token⟩ :: due, ?_, ?_, ?_⟩
          · rw [ran, List.append_assoc, List.singleton_append]
          · have same : (Timers.after (Function.update timers token none) (.popExpired now)) =
                timers.after (.popExpired now) := by
              funext other
              by_cases own : other = token
              · simp [Timers.after, own, isActive, Option.filter, reached]
              · simp [Timers.after, own]
            rwa [← same]
          · apply Timers.Due.cons (le_of_not_gt reached) isActive ?_ isDue
            intro other registration differ isOther
            apply Ordered.lt_of_mem_popFirst first
            refine (Ordered.mem_popFirst first).mpr
              ⟨(represents.deadlines _ _).mpr ⟨registration.task, isOther⟩, ?_⟩
            exact fun equal => differ (congrArg Prod.snd equal)

/-! ## All runs -/

/-- The two indexes of a queue agree with each other and with the active timers. -/
structure Exact (queue : TimerQueue I K T) (timers : Timers I K T) : Prop where
  /-- Every deadline belongs to one active timer, and every active timer has one deadline. -/
  paired : queue.deadlines.items.Perm
    (queue.active.items.map fun entry => (entry.2.deadline, entry.1))
  active : ∀ token registration,
    (token, registration) ∈ queue.active ↔ timers token = some registration
  /-- The next deadline is the least one of the active timers. -/
  next : ∀ deadline, queue.nextDeadline = some deadline ↔
    (∃ token task, timers token = some ⟨deadline, task⟩) ∧
      ∀ token registration, timers token = some registration → deadline ≤ registration.deadline

theorem Represents.paired (represents : Represents queue timers) :
    queue.deadlines.items.Perm
      (queue.active.items.map fun entry => (entry.2.deadline, entry.1)) := by
  have nodup : (queue.active.items.map fun entry => (entry.2.deadline, entry.1)).Nodup := by
    refine List.Nodup.map_on ?_ Ordered.nodup
    intro left isLeft right isRight same
    exact Ordered.eq_of_key isLeft isRight (congrArg Prod.snd same)
  refine (List.perm_ext_iff_of_nodup Ordered.nodup nodup).mpr ?_
  rintro ⟨deadline, token⟩
  rw [Ordered.mem_items, represents.deadlines, List.mem_map]
  constructor
  · rintro ⟨task, isActive⟩
    exact ⟨(token, ⟨deadline, task⟩), represents.mem_active.mpr isActive, rfl⟩
  · rintro ⟨⟨other, registration⟩, member, equal⟩
    cases equal
    exact ⟨registration.task, represents.mem_active.mp member⟩

theorem Represents.next (represents : Represents queue timers) (deadline : I) :
    queue.nextDeadline = some deadline ↔
      (∃ token task, timers token = some ⟨deadline, task⟩) ∧
        ∀ token registration, timers token = some registration →
          deadline ≤ registration.deadline := by
  have least : ∀ pair, queue.deadlines.first? = some pair → ∀ token registration,
      timers token = some registration → pair.1 ≤ registration.deadline := by
    intro pair first token registration isActive
    have indexed := (represents.deadlines registration.deadline token).mpr ⟨_, isActive⟩
    have ordered : toLex pair ≤ toLex (registration.deadline, token) :=
      Ordered.first?_le first indexed
    exact Prod.Lex.monotone_fst _ _ ordered
  rw [TimerQueue.nextDeadline, Option.map_eq_some_iff]
  constructor
  · rintro ⟨⟨_, token⟩, first, rfl⟩
    obtain ⟨task, isActive⟩ := (represents.deadlines _ _).mp (Ordered.first?_mem first)
    exact ⟨⟨token, task, isActive⟩, least _ first⟩
  · rintro ⟨⟨token, task, isActive⟩, lower⟩
    cases first : queue.deadlines.first? with
    | none =>
        have indexed := (represents.deadlines deadline token).mpr ⟨task, isActive⟩
        exact absurd indexed (Ordered.first?_eq_none.mp first _)
    | some pair =>
        obtain ⟨other, found⟩ := (represents.deadlines pair.1 pair.2).mp (Ordered.first?_mem first)
        exact ⟨pair, rfl, le_antisymm (least pair first _ _ isActive) (lower _ _ found)⟩

theorem Represents.exact (represents : Represents queue timers) : Exact queue timers :=
  ⟨represents.paired, fun _ _ => represents.mem_active, represents.next⟩

/-- A call answers from the active timers. -/
theorem Represents.answer (represents : Represents queue timers) (call : Call I K T) :
    ∃ queue' answer, queue.answer call = .ok (queue', answer) ∧
      timers.Answers call answer ∧ Represents queue' (timers.after call) := by
  cases call with
  | schedule task token deadline =>
      obtain ⟨scheduled, flag⟩ := represents.schedule task token deadline
      exact ⟨_, _, rfl, congrArg Answer.flag flag, scheduled⟩
  | cancel token =>
      obtain ⟨cancelled, flag⟩ := represents.cancel token
      exact ⟨_, _, rfl, congrArg Answer.flag flag, cancelled⟩
  | popExpired now =>
      obtain ⟨queue', due, ran, popped, isDue⟩ := represents.popWhile now []
      refine ⟨queue', .expired due, ?_, ⟨due, rfl, isDue⟩, popped⟩
      rw [TimerQueue.answer, TimerQueue.popExpired, ran]
      rfl

theorem Represents.run (represents : Represents queue timers) (calls : List (Call I K T)) :
    ∃ queue' answers, queue.run calls = .ok (queue', answers) ∧
      timers.AnswersAll calls answers ∧ Represents queue' (timers.afterAll calls) := by
  induction calls generalizing queue timers with
  | nil => exact ⟨queue, [], rfl, rfl, represents⟩
  | cons call calls ih =>
      obtain ⟨queue', answer, answered, answers, represents'⟩ := represents.answer call
      obtain ⟨queue'', rest, ran, answersRest, represents''⟩ := ih represents'
      refine ⟨queue'', answer :: rest, ?_, ⟨answer, rest, rfl, answers, answersRest⟩, represents''⟩
      rw [TimerQueue.run, answered, ok_bind]
      dsimp only
      rw [ran]
      rfl

/-- A call schedules a token. -/
def Call.schedules (token : K) : Call I K T → Prop
  | .schedule _ other _ => other = token
  | _ => False

/-- An answer says that the timer of a token has expired. -/
def Answer.fires (token : K) : Answer K T → Prop
  | .expired timers => ∃ task, ⟨task, token⟩ ∈ timers
  | .flag _ => False

/-- A timer that is not active does not fire before it is scheduled. -/
theorem silent {token : K} (inactive : timers token = none) {calls : List (Call I K T)}
    (unscheduled : ∀ call ∈ calls, ¬ call.schedules token) {answers : List (Answer K T)}
    (answered : timers.AnswersAll calls answers) : ∀ answer ∈ answers, ¬ answer.fires token := by
  induction calls generalizing timers answers with
  | nil =>
      cases answered
      exact List.forall_mem_nil _
  | cons call calls ih =>
      obtain ⟨answer, rest, rfl, answers, answersRest⟩ := answered
      obtain ⟨here, later⟩ := List.forall_mem_cons.mp unscheduled
      have inactive' : timers.after call token = none := by
        cases call with
        | schedule _ other =>
            rw [Timers.after]
            cases timers other with
            | some => exact inactive
            | none =>
                dsimp only
                rw [Function.update_of_ne (Ne.symm here), inactive]
        | cancel other =>
            by_cases same : token = other
            · rw [Timers.after, same, Function.update_self]
            · rw [Timers.after, Function.update_of_ne same, inactive]
        | popExpired now =>
            change (timers token).filter _ = none
            rw [inactive]
            rfl
      refine List.forall_mem_cons.mpr ⟨?_, ih inactive' later answersRest⟩
      intro fires
      cases call with
      | popExpired now =>
          obtain ⟨expired, rfl, due⟩ := answers
          obtain ⟨task, member⟩ := fires
          obtain ⟨deadline, -, isActive⟩ := (due.exactly _ _).mp member
          rw [inactive] at isActive
          cases isActive
      | _ =>
          cases answers
          exact fires

/-- Every run of the timer queue answers exactly, and no assertion fails in it.  A token that is
active is not scheduled again, and after a cancel no timer of the token fires until then. -/
theorem timers_exact (calls : List (Call I K T)) :
    ∃ queue answers, TimerQueue.new.run calls = .ok (queue, answers) ∧
      Timers.AnswersAll (fun _ => none) calls answers ∧
      Exact queue (Timers.afterAll (fun _ => none) calls) ∧
      (∀ task token deadline registration, (token, registration) ∈ queue.active →
        queue.schedule task token deadline = (queue, false)) ∧
      ∀ token later, (∀ call ∈ later, ¬ call.schedules token) →
        ∃ queue' flag answers', queue.run (.cancel token :: later) =
            .ok (queue', .flag flag :: answers') ∧
          ∀ answer ∈ answers', ¬ answer.fires token := by
  obtain ⟨queue, answers, ran, answered, represents⟩ :=
    (represents_new : Represents (.new : TimerQueue I K T) _).run calls
  refine ⟨queue, answers, ran, answered, represents.exact, ?_, fun token later unscheduled => ?_⟩
  · intro task token deadline registration member
    rw [TimerQueue.schedule, Ordered.find?_eq_some.mpr ⟨member, rfl⟩]
  obtain ⟨queue', answers', ran', answered', -⟩ := represents.run (.cancel token :: later)
  obtain ⟨_, rest, rfl, rfl, answeredRest⟩ := answered'
  exact ⟨queue', _, rest, ran', silent (Function.update_self ..) unscheduled answeredRest⟩

end VThread.Timer

import Mathlib.Data.List.Induction
import VThread.Wait.Cell

/-!
# Events of wait generations

The evidence that wait cells record, and what it means for a sequence of it to be causal.
-/

namespace VThread.Recorded

open VThread.Wait

/-- `WaitKey`: a wait and one of its generations. -/
abbrev WaitKey := ParkToken

inductive WakeOrigin where
  | external
  | carrier (id : Nat)
  deriving DecidableEq, Repr

inductive WakeRejection where
  | noWait
  | noActiveWait
  | retiredGeneration
  | alreadySelected
  deriving DecidableEq, Repr

/-- `RuntimeEventKind`: the events of wait generations. -/
inductive EventKind (τ : Type) where
  | waitPublished (task : τ) (wait : WaitKey) (hasDeadline : Bool)
  | wakeOffered (task : τ) (wait : WaitKey) (cause : WakeCause) (origin : WakeOrigin)
  | wakeSelected (task : τ) (wait : WaitKey) (cause : WakeCause) (origin : WakeOrigin)
  | wakeRejected (task : τ) (wait : WaitKey) (cause : WakeCause) (origin : WakeOrigin)
      (reason : WakeRejection)
  | resumed (task : τ) (wait : WaitKey) (cause : WakeCause)
  deriving DecidableEq, Repr

namespace EventKind

variable {τ : Type}

def publication? (wait : WaitKey) : EventKind τ → Option (τ × Bool)
  | .waitPublished task key hasDeadline => if key = wait then some (task, hasDeadline) else none
  | _ => none

def selection? (wait : WaitKey) : EventKind τ → Option (τ × WakeCause)
  | .wakeSelected task key cause _ => if key = wait then some (task, cause) else none
  | _ => none

def resumption? (wait : WaitKey) : EventKind τ → Option (τ × WakeCause)
  | .resumed task key cause => if key = wait then some (task, cause) else none
  | _ => none

/-- The generation an offer or a selection is about. -/
def wake? : EventKind τ → Option WaitKey
  | .wakeOffered _ wait _ _ | .wakeSelected _ wait _ _ => some wait
  | _ => none

end EventKind

section Log

variable {τ : Type} (log : List (EventKind τ)) (wait : WaitKey)

/-- The publications of a generation, in sequence order. -/
def publications : List (τ × Bool) := log.filterMap (EventKind.publication? wait)

/-- The selections of a generation. -/
def selections : List (τ × WakeCause) := log.filterMap (EventKind.selection? wait)

/-- The resumptions of a generation. -/
def resumptions : List (τ × WakeCause) := log.filterMap (EventKind.resumption? wait)

variable (event : EventKind τ)

theorem filterMap_snoc {α : Type} (view : EventKind τ → Option α) :
    (log ++ [event]).filterMap view = log.filterMap view ++ (view event).toList := by
  rw [List.filterMap_append]
  cases seen : view event <;> simp [seen]

theorem publications_snoc : publications (log ++ [event]) wait =
    publications log wait ++ (event.publication? wait).toList :=
  filterMap_snoc log event _

theorem selections_snoc : selections (log ++ [event]) wait =
    selections log wait ++ (event.selection? wait).toList :=
  filterMap_snoc log event _

theorem resumptions_snoc : resumptions (log ++ [event]) wait =
    resumptions log wait ++ (event.resumption? wait).toList :=
  filterMap_snoc log event _

end Log

/-! ## Causal sequences -/

variable {τ : Type}

/-- What an event needs of the events before it. -/
def Allowed (earlier : List (EventKind τ)) : EventKind τ → Prop
  | .waitPublished _ wait _ => publications earlier wait = []
  | .wakeOffered _ wait _ _ => publications earlier wait ≠ []
  | .wakeSelected _ wait _ _ => publications earlier wait ≠ [] ∧ selections earlier wait = []
  | .wakeRejected .. => True
  | .resumed task wait cause =>
      selections earlier wait = [(task, cause)] ∧ resumptions earlier wait = []

/-- Every event is allowed by the events of smaller sequence numbers. -/
def Causal (log : List (EventKind τ)) : Prop :=
  ∀ (sequence : Nat) (event : EventKind τ), log[sequence]? = some event →
    Allowed (log.take sequence) event

section Causal

variable {log : List (EventKind τ)} {event : EventKind τ}

theorem causal_nil : Causal ([] : List (EventKind τ)) := by
  intro sequence event found
  cases found

theorem causal_snoc : Causal (log ++ [event]) ↔ Causal log ∧ Allowed log event := by
  constructor
  · intro causal
    constructor
    · intro sequence earlier found
      have within : sequence < log.length := (List.getElem?_eq_some_iff.mp found).choose
      have here := causal sequence earlier (by rw [List.getElem?_append_left within, found])
      rwa [List.take_append_of_le_length (Nat.le_of_lt within)] at here
    · have here := causal log.length event (by simp)
      rwa [List.take_left] at here
  · rintro ⟨causal, allowed⟩ sequence other found
    rcases Nat.lt_trichotomy sequence log.length with within | rfl | beyond
    · rw [List.getElem?_append_left within] at found
      rw [List.take_append_of_le_length (Nat.le_of_lt within)]
      exact causal sequence other found
    · rw [List.getElem?_concat_length] at found
      cases found
      rw [List.take_left]
      exact allowed
    · rw [List.getElem?_eq_none (by simp; omega)] at found
      cases found

/-- A generation has at most one event of each of these kinds. -/
theorem Causal.once (causal : Causal log) (wait : WaitKey) :
    (publications log wait).length ≤ 1 ∧ (selections log wait).length ≤ 1 ∧
      (resumptions log wait).length ≤ 1 := by
  induction log using List.reverseRecOn with
  | nil => exact ⟨Nat.zero_le _, Nat.zero_le _, Nat.zero_le _⟩
  | append_singleton log event ih =>
      obtain ⟨earlier, allowed⟩ := causal_snoc.mp causal
      obtain ⟨published, selected, resumed⟩ := ih earlier
      rw [publications_snoc, selections_snoc, resumptions_snoc]
      cases event with
      | waitPublished _ token =>
          by_cases equal : token = wait
          · subst equal
            rw [show publications log token = [] from allowed]
            simpa [EventKind.publication?, EventKind.selection?, EventKind.resumption?] using
              ⟨selected, resumed⟩
          · simpa [EventKind.publication?, EventKind.selection?, EventKind.resumption?, equal]
              using ⟨published, selected, resumed⟩
      | wakeSelected _ token =>
          by_cases equal : token = wait
          · subst equal
            rw [allowed.2]
            simpa [EventKind.publication?, EventKind.selection?, EventKind.resumption?] using
              ⟨published, resumed⟩
          · simpa [EventKind.publication?, EventKind.selection?, EventKind.resumption?, equal]
              using ⟨published, selected, resumed⟩
      | resumed _ token =>
          by_cases equal : token = wait
          · subst equal
            rw [allowed.2]
            simpa [EventKind.publication?, EventKind.selection?, EventKind.resumption?] using
              ⟨published, selected⟩
          · simpa [EventKind.publication?, EventKind.selection?, EventKind.resumption?, equal]
              using ⟨published, selected, resumed⟩
      | _ =>
          simpa [EventKind.publication?, EventKind.selection?, EventKind.resumption?] using
            ⟨published, selected, resumed⟩

end Causal

end VThread.Recorded

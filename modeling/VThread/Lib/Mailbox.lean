import Mathlib.Data.List.Induction

/-!
# Mailboxes with a doorbell

What a queue of notices with a sleeping consumer promises: items come out in the order in
which they were linked, each once, and the first link after the consumer armed itself
rings.
-/

namespace VThread.Lib

universe u

/-- What the callers of a mailbox see. -/
inductive MailboxEvent (α : Type u) where
  | link (item : α) (rang : Bool)
  | pop (item : α)
  | empty
  | arm (ready : Bool)
  | disarm

namespace MailboxEvent

variable {α : Type u}

def linked : MailboxEvent α → Option α
  | .link item _ => some item
  | _ => none

def popped : MailboxEvent α → Option α
  | .pop item => some item
  | _ => none

/-- Events that end an arming. -/
def quiets : MailboxEvent α → Bool
  | .link _ _ | .disarm => true
  | _ => false

end MailboxEvent

structure Mailbox (α : Type u) where
  pending : List α
  armed : Bool

namespace Mailbox

variable {α : Type u}

/-- One event. -/
inductive Step : Mailbox α → MailboxEvent α → Mailbox α → Prop where
  | link (pending : List α) (armed : Bool) (item : α) :
      Step ⟨pending, armed⟩ (.link item armed) ⟨pending ++ [item], false⟩
  | pop (pending : List α) (armed : Bool) (item : α) :
      Step ⟨item :: pending, armed⟩ (.pop item) ⟨pending, armed⟩
  | empty (armed : Bool) : Step ⟨[], armed⟩ .empty ⟨[], armed⟩
  | ready (pending : List α) (armed : Bool) : pending ≠ [] →
      Step ⟨pending, armed⟩ (.arm true) ⟨pending, armed⟩
  | arm (armed : Bool) : Step ⟨[], armed⟩ (.arm false) ⟨[], true⟩
  | disarm (pending : List α) (armed : Bool) :
      Step ⟨pending, armed⟩ .disarm ⟨pending, false⟩

/-- A run from the empty mailbox. -/
inductive Run : List (MailboxEvent α) → Mailbox α → Prop where
  | nil : Run [] ⟨[], false⟩
  | snoc {trace : List (MailboxEvent α)} {mailbox mailbox' : Mailbox α}
      {event : MailboxEvent α} : Run trace mailbox → Step mailbox event mailbox' →
      Run (trace ++ [event]) mailbox'

variable {trace : List (MailboxEvent α)} {mailbox : Mailbox α}

theorem Run.of_append {before after : List (MailboxEvent α)}
    (run : Run (before ++ after) mailbox) : ∃ earlier, Run before earlier := by
  induction after using List.reverseRecOn generalizing mailbox with
  | nil =>
      rw [List.append_nil] at run
      exact ⟨mailbox, run⟩
  | append_singleton after event ih =>
      rw [← List.append_assoc] at run
      generalize whole : before ++ after ++ [event] = trace at run
      cases run with
      | nil => simp at whole
      | snoc run _ =>
          obtain ⟨same, -⟩ := List.append_inj' whole rfl
          rw [← same] at run
          exact ih run

theorem Step.unique {mailbox first second : Mailbox α} {event : MailboxEvent α}
    (left : Step mailbox event first) (right : Step mailbox event second) : first = second := by
  cases left <;> cases right <;> rfl

theorem Run.last {event : MailboxEvent α} (run : Run (trace ++ [event]) mailbox) :
    ∃ earlier, Run trace earlier ∧ Step earlier event mailbox := by
  generalize whole : trace ++ [event] = extended at run
  cases run with
  | nil => simp at whole
  | snoc run step =>
      obtain ⟨rfl, same⟩ := List.append_inj' whole rfl
      cases same
      exact ⟨_, run, step⟩

/-- What the callers saw determines the mailbox. -/
theorem Run.unique {other : Mailbox α} (run : Run trace mailbox) (again : Run trace other) :
    mailbox = other := by
  induction run generalizing other with
  | nil =>
      generalize empty : ([] : List (MailboxEvent α)) = trace at again
      cases again with
      | nil => rfl
      | snoc => simp at empty
  | snoc _ step ih =>
      obtain ⟨earlier, run, last⟩ := again.last
      cases ih run
      exact step.unique last

/-- What was linked is what was popped, followed by what is pending. -/
theorem Run.linked_eq (run : Run trace mailbox) :
    trace.filterMap MailboxEvent.linked =
      trace.filterMap MailboxEvent.popped ++ mailbox.pending := by
  induction run with
  | nil => rfl
  | snoc _ step ih =>
      rw [List.filterMap_append, List.filterMap_append, ih]
      cases step <;> simp [List.filterMap_cons, MailboxEvent.linked, MailboxEvent.popped]

/-- The consumer armed itself, and no link or disarm came after. -/
def Armed (trace : List (MailboxEvent α)) : Prop :=
  ∃ before after, trace = before ++ .arm false :: after ∧
    ∀ event ∈ after, event.quiets = false

theorem armed_snoc {event : MailboxEvent α} :
    Armed (trace ++ [event]) ↔
      event = .arm false ∨ event.quiets = false ∧ Armed trace := by
  constructor
  · intro armed
    obtain ⟨before, after, whole, quiet⟩ := armed
    rcases List.eq_nil_or_concat after with rfl | ⟨rest, last, rfl⟩
    · left
      obtain ⟨-, same⟩ := List.append_inj' whole rfl
      simpa using same
    · right
      have regrouped : trace ++ [event] = (before ++ .arm false :: rest) ++ [last] := by
        simp [whole]
      obtain ⟨same, lastSame⟩ := List.append_inj' regrouped rfl
      cases lastSame
      exact ⟨quiet event (by simp), before, rest, same, fun other member =>
        quiet other (by simp [member])⟩
  · intro armed
    rcases armed with rfl | ⟨quiet, before, after, rfl, quiets⟩
    · exact ⟨trace, [], rfl, by simp⟩
    · refine ⟨before, after ++ [event], by simp, ?_⟩
      intro other member
      rcases List.mem_append.1 member with inside | last
      · exact quiets other inside
      · rw [List.mem_singleton.1 last]
        exact quiet

theorem Run.armed_iff (run : Run trace mailbox) : mailbox.armed = true ↔ Armed trace := by
  induction run with
  | nil =>
      simp [Armed]
  | snoc _ step ih =>
      rw [armed_snoc]
      cases step <;> simp_all [MailboxEvent.quiets]

/-- A link rings exactly when the consumer is armed. -/
theorem Run.rings {before after : List (MailboxEvent α)} {item : α} {rang : Bool}
    (run : Run (before ++ .link item rang :: after) mailbox) :
    rang = true ↔ Armed before := by
  have regrouped : before ++ .link item rang :: after =
      (before ++ [.link item rang]) ++ after := by simp
  rw [regrouped] at run
  obtain ⟨earlier, first⟩ := run.of_append
  generalize whole : before ++ [MailboxEvent.link item rang] = trace at first
  cases first with
  | nil => simp at whole
  | snoc run step =>
      obtain ⟨same, lastSame⟩ := List.append_inj' whole rfl
      cases lastSame
      rw [same]
      cases step with
      | link => exact run.armed_iff

/-- When the mailbox was found empty, everything linked had been popped. -/
theorem Run.empty_eq {before after : List (MailboxEvent α)}
    (run : Run (before ++ .empty :: after) mailbox) :
    before.filterMap MailboxEvent.linked = before.filterMap MailboxEvent.popped := by
  have regrouped : before ++ .empty :: after =
      (before ++ [MailboxEvent.empty]) ++ after := by simp
  rw [regrouped] at run
  obtain ⟨earlier, first⟩ := run.of_append
  generalize whole : before ++ [MailboxEvent.empty] = trace at first
  cases first with
  | nil => simp at whole
  | snoc run step =>
      obtain ⟨same, lastSame⟩ := List.append_inj' whole rfl
      cases lastSame
      rw [same, run.linked_eq]
      cases step with
      | empty armed => simp

end Mailbox

end VThread.Lib

import Mathlib.Logic.Basic

/-!
# Computations that may panic

A panicking computation either returns a value or stops with the message of the
assertion that failed.  A specification of such a computation states that it
returns, so an assertion that can fail is never hidden by the model.
-/

namespace VThread

/-- A computation that returns, or panics with a message. -/
abbrev Checked := Except String

/-- `Option::expect`. -/
def expect {α : Type} (value : Option α) (message : String) : Checked α :=
  match value with
  | some value => .ok value
  | none => .error message

/-- `assert!`. -/
def ensure (condition : Prop) [Decidable condition] (message : String) : Checked Unit :=
  if condition then .ok () else .error message

@[simp] theorem expect_some {α : Type} (value : α) (message : String) :
    expect (some value) message = .ok value := rfl

@[simp] theorem expect_none {α : Type} (message : String) :
    expect (none : Option α) message = .error message := rfl

theorem ensure_of {condition : Prop} [Decidable condition] (holds : condition)
    (message : String) : ensure condition message = .ok () := by
  simp [ensure, holds]

@[simp] theorem ensure_eq_ok {condition : Prop} [Decidable condition]
    {message : String} : ensure condition message = .ok () ↔ condition := by
  by_cases holds : condition <;> simp [ensure, holds]

@[simp] theorem ok_bind {α β : Type} (value : α) (next : α → Checked β) :
    ((.ok value : Checked α) >>= next) = next value := rfl

@[simp] theorem error_bind {α β : Type} (message : String) (next : α → Checked β) :
    ((.error message : Checked α) >>= next) = .error message := rfl

/-- A computation returns exactly when its first part returns and the rest
returns on that result. -/
theorem bind_eq_ok {α β : Type} {first : Checked α} {next : α → Checked β}
    {result : β} :
    (first >>= next) = .ok result ↔
      ∃ value, first = .ok value ∧ next value = .ok result := by
  cases first with
  | error => simp
  | ok value => simp

end VThread

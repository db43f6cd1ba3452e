/-
**Steps that may fail.**

What is read, opened or asked for is read, opened or asked for step by step, and the first step with an
error ends it.  Where the result of two steps comes from is said here, and nothing else has to look
into the way in which steps are put together.

Main results:

* `JobShell.eq_ok_of_bind`, `JobShell.error_of_bind` — one step after another;
* `JobShell.eq_ok_of_map`, `JobShell.error_of_map`, `JobShell.eq_ok_of_mapError` — a step and what is
  made of its value or of its error.
-/

set_option autoImplicit false

namespace JobShell

variable {ε ε' α β : Type} {x : Except ε α}

/-- If one step after another gives a value, so does the first. -/
theorem eq_ok_of_bind {f : α → Except ε β} {b : β} (h : x >>= f = .ok b) :
    ∃ a, x = .ok a ∧ f a = .ok b := by
  cases x with
  | error e => cases h
  | ok a => exact ⟨a, rfl, h⟩

/-- If one step after another has an error, the first one has it or the second one. -/
theorem error_of_bind {f : α → Except ε β} {e : ε} (h : x >>= f = .error e) :
    x = .error e ∨ ∃ a, x = .ok a ∧ f a = .error e := by
  cases x with
  | error e' => exact .inl (congrArg Except.error (Except.error.inj h))
  | ok a => exact .inr ⟨a, rfl, h⟩

theorem eq_ok_of_map {f : α → β} {b : β} (h : x.map f = .ok b) : ∃ a, x = .ok a ∧ f a = b := by
  cases x with
  | error e => cases h
  | ok a => exact ⟨a, rfl, Except.ok.inj h⟩

theorem error_of_map {f : α → β} {e : ε} (h : x.map f = .error e) : x = .error e := by
  cases x with
  | error e' => exact congrArg Except.error (Except.error.inj h)
  | ok a => cases h

theorem eq_ok_of_mapError {f : ε → ε'} {a : α} (h : x.mapError f = .ok a) : x = .ok a := by
  cases x with
  | error e => cases h
  | ok a' => exact congrArg Except.ok (Except.ok.inj h)

end JobShell

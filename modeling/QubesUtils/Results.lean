/-
Computations that give a value or an error: when a step behind another one,
or a change of the value, gives a value, and when an error.
-/
import Mathlib.Logic.Basic

section

variable {ε α β : Type} {x : Except ε α} {b : β} {e : ε}

theorem bind_eq_ok {f : α → Except ε β} :
    (x >>= f) = .ok b ↔ ∃ a, x = .ok a ∧ f a = .ok b := by
  cases x with
  | error e => simp [bind, Except.bind]
  | ok a => simp [bind, Except.bind]

theorem bind_eq_error {f : α → Except ε β} :
    (x >>= f) = .error e ↔ x = .error e ∨ ∃ a, x = .ok a ∧ f a = .error e := by
  cases x with
  | error e => simp [bind, Except.bind]
  | ok a => simp [bind, Except.bind]

theorem map_eq_ok {f : α → β} :
    (do return f (← x)) = .ok b ↔ ∃ a, x = .ok a ∧ f a = b := by
  cases x with
  | error e => simp [bind, Except.bind]
  | ok a => simp [bind, Except.bind, pure, Except.pure]

theorem map_eq_error {f : α → β} :
    (do return f (← x)) = .error e ↔ x = .error e := by
  cases x with
  | error e => simp [bind, Except.bind]
  | ok a => simp [bind, Except.bind, pure, Except.pure]

end

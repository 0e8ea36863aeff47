import Mathlib

/-!
# Computations that end in a value or an error

Inversion of a sequence of fallible steps that ended in a value.
-/

namespace Mentra.Foundation.Outcome

universe u v

variable {ε : Type u} {α : Type v} {β : Type v}

/-- A sequence of two steps succeeds exactly when both do. -/
theorem bind_eq_ok_iff {first : Except ε α} {second : α → Except ε β} {result : β} :
    (first >>= second) = .ok result ↔ ∃ value, first = .ok value ∧ second value = .ok result := by
  cases first with
  | error error | ok value => simp [bind, Except.bind]

theorem map_eq_ok_iff {first : Except ε α} {change : α → β} {result : β} :
    first.map change = .ok result ↔ ∃ value, first = .ok value ∧ change value = result := by
  cases first with
  | error error | ok value => simp [Except.map]

/-! ## Forgetting the error -/

@[simp]
theorem toOption_bind (first : Except ε α) (second : α → Except ε β) :
    (first >>= second).toOption = first.toOption.bind fun value => (second value).toOption := by
  cases first <;> rfl

@[simp]
theorem toOption_map (first : Except ε α) (change : α → β) :
    (first.map change).toOption = first.toOption.map change := by
  cases first <;> rfl

end Mentra.Foundation.Outcome

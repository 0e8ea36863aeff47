import Mathlib

/-!
# Values that are in one place at a time

A value that cannot be copied is in one place or nowhere, and a place has at most one
value.  Both sides are recorded: where each value is, and what each place has.
-/

namespace Mentra.Foundation

open Function

universe u v

variable {τ : Type u} {π : Type v} {place : τ → Option π} {content : π → Option τ}

/-- Where the values are and what the places have agree. -/
def Placed (place : τ → Option π) (content : π → Option τ) : Prop :=
  ∀ spot value, content spot = some value ↔ place value = some spot

namespace Placed

variable [DecidableEq τ] [DecidableEq π] {value : τ} {source target : π}

/-- A value leaves its place for good. -/
theorem discard (placed : Placed place content) (was : place value = some source) :
    Placed (update place value none) (update content source none) := by
  intro spot other
  have here := (placed source value).mpr was
  have there := placed spot other
  grind [update_apply]

/-- A value that is nowhere enters a vacant place. -/
theorem enter (placed : Placed place content) (was : place value = none)
    (vacant : content target = none) :
    Placed (update place value (some target)) (update content target (some value)) := by
  intro spot other
  have there := placed spot other
  grind [update_apply]

/-- A value goes from its place to a vacant one. -/
theorem transfer (placed : Placed place content) (was : place value = some source)
    (vacant : content target = none) :
    Placed (update place value (some target))
      (update (update content source none) target (some value)) := by
  have left := placed.discard was
  have stillVacant : update content source none target = none := by
    rw [update_apply, vacant, ite_self]
  have entered := left.enter (update_self value none place) stillVacant
  rwa [update_idem] at entered

end Placed

end Mentra.Foundation

import Mathlib

/-!
# Machine-word sizes

Sizes are natural numbers.  The operations that look at the width of a word
are the checked and the saturating ones; `none` from a checked subtraction that
the source writes as a plain `-` is the arithmetic panic.
-/

namespace Mentra.Foundation.Usize

/-- The largest value of a 64-bit word. -/
def max : Nat := 2 ^ 64 - 1

def checkedSub (left right : Nat) : Option Nat :=
  if right ≤ left then some (left - right) else none

def checkedAdd (left right : Nat) : Option Nat :=
  if left + right ≤ max then some (left + right) else none

def saturatingAdd (left right : Nat) : Nat :=
  min (left + right) max

theorem checkedSub_eq_some {left right : Nat} (fits : right ≤ left) :
    checkedSub left right = some (left - right) :=
  if_pos fits

theorem checkedAdd_eq_some_iff {left right result : Nat} :
    checkedAdd left right = some result ↔ left + right ≤ max ∧ left + right = result := by
  unfold checkedAdd
  split
  · rw [Option.some.injEq]
    omega
  · simp only [reduceCtorEq, false_iff]
    omega

/-- A saturating sum is the exact sum cut off at the largest word. -/
theorem foldl_saturatingAdd (sizes : List Nat) (start : Nat) :
    sizes.foldl saturatingAdd (min start max) = min (start + sizes.sum) max := by
  induction sizes generalizing start with
  | nil => rfl
  | cons size sizes ih =>
    have step : saturatingAdd (min start max) size = min (start + size) max := by
      unfold saturatingAdd
      omega
    rw [List.foldl_cons, step, ih, List.sum_cons, Nat.add_assoc]

end Mentra.Foundation.Usize

import Mathlib

/-!
# Loops that emit

A loop over inputs keeps a state and emits outputs at every input.  The
induction over what a loop has emitted so far is `emit_invariant`.
-/

namespace Mentra.Foundation.Emission

variable {σ α τ : Type}

/-- Everything a loop emits, and the state it ends in. -/
def emit (step : σ → α → List τ × σ) : σ → List α → List τ × σ
  | state, [] => ([], state)
  | state, input :: inputs =>
    let rest := emit step (step state input).2 inputs
    ((step state input).1 ++ rest.1, rest.2)

variable {step : σ → α → List τ × σ}

@[simp]
theorem emit_nil (step : σ → α → List τ × σ) (state : σ) : emit step state [] = ([], state) :=
  rfl

theorem emit_append (state : σ) (first second : List α) :
    emit step state (first ++ second) =
      ((emit step state first).1 ++ (emit step (emit step state first).2 second).1,
        (emit step (emit step state first).2 second).2) := by
  induction first generalizing state with
  | nil => rfl
  | cons input first ih => simp only [List.cons_append, emit, ih, List.append_assoc]

/-- A relation between inputs, outputs and states that every step extends holds
after every loop that starts with it. -/
theorem emit_invariant {Holds : List α → List τ → σ → Prop}
    (extended : ∀ inputs outputs state input, Holds inputs outputs state →
      Holds (inputs ++ [input]) (outputs ++ (step state input).1) (step state input).2)
    {before : List α} {outputs : List τ} {state : σ} (initial : Holds before outputs state)
    (inputs : List α) :
    Holds (before ++ inputs) (outputs ++ (emit step state inputs).1)
      (emit step state inputs).2 := by
  induction inputs generalizing before outputs state with
  | nil => simpa using initial
  | cons input inputs ih =>
    have later := ih (extended before outputs state input initial)
    simpa only [emit, List.append_assoc, List.singleton_append] using later

/-- A relation between outputs and states that every step keeps is kept by every
loop. -/
theorem emit_keeps {Holds : List τ → σ → Prop}
    (kept : ∀ outputs state input, Holds outputs state →
      Holds (outputs ++ (step state input).1) (step state input).2)
    {outputs : List τ} {state : σ} (initial : Holds outputs state) (inputs : List α) :
    Holds (outputs ++ (emit step state inputs).1) (emit step state inputs).2 :=
  @emit_invariant _ _ _ step (fun _ => Holds) (fun _ => kept) [] outputs state initial inputs

end Mentra.Foundation.Emission

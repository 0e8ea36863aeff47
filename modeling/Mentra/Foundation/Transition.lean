import Mathlib

/-!
# Runs of a labelled partial transition

A step takes a state and an action and either fails or gives the next state.
A run feeds it a list of actions; failure at any action fails the run.  The one
induction over runs that every safety result needs is `Run.invariant`.
-/

namespace Mentra.Foundation.Transition

open Option

universe u v

variable {σ : Type u} {α : Type v}

/-- Feed a list of actions to a partial step. -/
def run (step : σ → α → Option σ) : σ → List α → Option σ
  | state, [] => some state
  | state, action :: actions => (step state action).bind fun next => run step next actions

/-- `target` is reached from `source` by some list of actions. -/
def Reachable (step : σ → α → Option σ) (source target : σ) : Prop :=
  ∃ actions, run step source actions = some target

@[simp]
theorem run_nil (step : σ → α → Option σ) (state : σ) : run step state [] = some state :=
  rfl

theorem run_cons_eq_some_iff (step : σ → α → Option σ) (state target : σ) (action : α)
    (actions : List α) :
    run step state (action :: actions) = some target ↔
      ∃ next, step state action = some next ∧ run step next actions = some target :=
  bind_eq_some_iff

variable {step : σ → α → Option σ} {source target : σ} {actions : List α}

/-- A property that every successful step keeps is kept by every run. -/
theorem run_invariant {Holds : σ → Prop}
    (keeps : ∀ state action next, Holds state → step state action = some next → Holds next)
    (initial : Holds source)
    (reached : run step source actions = some target) : Holds target := by
  induction actions generalizing source with
  | nil =>
    rw [run_nil, Option.some.injEq] at reached
    exact reached ▸ initial
  | cons action actions ih =>
    obtain ⟨next, first, rest⟩ := (run_cons_eq_some_iff _ _ _ _ _).mp reached
    exact ih (keeps source action next initial first) rest

theorem Reachable.invariant {Holds : σ → Prop}
    (keeps : ∀ state action next, Holds state → step state action = some next → Holds next)
    (initial : Holds source) (reachable : Reachable step source target) :
    Holds target := by
  obtain ⟨actions, reached⟩ := reachable
  exact run_invariant keeps initial reached

theorem run_append (step : σ → α → Option σ) (state : σ) (first second : List α) :
    run step state (first ++ second) = (run step state first).bind fun middle =>
      run step middle second := by
  induction first generalizing state with
  | nil => rfl
  | cons action first ih =>
    rw [List.cons_append, run, run, bind_assoc]
    congr 1
    funext next
    exact ih next

theorem Reachable.refl (step : σ → α → Option σ) (state : σ) : Reachable step state state :=
  ⟨[], rfl⟩

theorem Reachable.tail {middle : σ} {action : α}
    (reachable : Reachable step source middle) (last : step middle action = some target) :
    Reachable step source target := by
  obtain ⟨actions, reached⟩ := reachable
  refine ⟨actions ++ [action], ?_⟩
  rw [run_append, reached, bind_some, run_cons_eq_some_iff]
  exact ⟨target, last, rfl⟩

theorem exists_reachable_of_any {test : σ → Bool} (found : (run step source actions).any test) :
    ∃ target, Reachable step source target ∧ test target := by
  obtain ⟨target, reached, passed⟩ := (any_eq_true _ _).mp found
  exact ⟨target, ⟨actions, reached⟩, passed⟩

/-! ## Runs whose steps all meet a condition -/

/-- The steps taken in states in which they are allowed. -/
def guarded (step : σ → α → Option σ) (allows : σ → α → Bool) (state : σ) (action : α) : Option σ :=
  if allows state action then step state action else none

theorem guarded_eq_some_iff {allows : σ → α → Bool} {state next : σ} {action : α} :
    guarded step allows state action = some next ↔
      allows state action ∧ step state action = some next := by
  rw [guarded]
  split
  · rename_i allowed
    exact ⟨fun stepped => ⟨allowed, stepped⟩, fun both => both.2⟩
  · rename_i refused
    exact ⟨nofun, fun both => absurd both.1 refused⟩

end Mentra.Foundation.Transition

import Mathlib

/-!
# Rows under a history of events

An event takes the rows it concerns out of a list and adds rows of its own at the end.
After a whole history a row is there exactly if some event added it and no later one
took it out.
-/

namespace Mentra.Foundation

open List

universe u v

/-- What the events of a kind do to rows. -/
structure Ledger (ε : Type u) (ρ : Type v) where
  removes : ε → ρ → Bool
  adds : ε → List ρ

namespace Ledger

variable {ε : Type u} {ρ : Type v} (ledger : Ledger ε ρ)

def apply (rows : List ρ) (event : ε) : List ρ :=
  (rows.filter fun row => !ledger.removes event row) ++ ledger.adds event

/-- The row was added, and nothing removed it since. -/
def Survives (events : List ε) (row : ρ) : Prop :=
  ∃ before event after, events = before ++ event :: after ∧ row ∈ ledger.adds event ∧
    ∀ later ∈ after, ledger.removes later row = false

theorem not_survives_nil (row : ρ) : ¬ledger.Survives [] row := by
  rintro ⟨before, event, after, split, -⟩
  exact absurd split.symm (by simp)

variable {events : List ε}

theorem survives_concat {last : ε} {row : ρ} :
    ledger.Survives (events ++ [last]) row ↔
      ledger.Survives events row ∧ ledger.removes last row = false ∨ row ∈ ledger.adds last := by
  constructor
  · rintro ⟨before, event, after, split, added, kept⟩
    rcases eq_nil_or_concat after with rfl | ⟨front, final, rfl⟩
    · obtain ⟨-, isLast⟩ := append_inj' split rfl
      cases isLast
      exact .inr added
    · rw [concat_eq_append] at split kept
      rw [← cons_append, ← append_assoc] at split
      obtain ⟨isEvents, isLast⟩ := append_inj' split rfl
      cases isLast
      refine .inl ⟨⟨before, event, front, isEvents, added, ?_⟩, ?_⟩
      · intro later mem
        exact kept later (mem_append_left _ mem)
      · exact kept last (mem_append_right _ (mem_singleton_self last))
  · rintro (⟨⟨before, event, after, rfl, added, kept⟩, keeps⟩ | added)
    · refine ⟨before, event, after ++ [last], by simp, added, ?_⟩
      intro later mem
      rcases mem_append.mp mem with earlier | isLast
      · exact kept later earlier
      · rw [mem_singleton.mp isLast]
        exact keeps
    · exact ⟨events, last, [], rfl, added, fun _ mem => absurd mem not_mem_nil⟩

theorem mem_foldl_apply {row : ρ} :
    row ∈ events.foldl ledger.apply [] ↔ ledger.Survives events row := by
  induction events using List.reverseRecOn with
  | nil => exact iff_of_false not_mem_nil (ledger.not_survives_nil row)
  | append_singleton events last ih =>
    rw [foldl_append, foldl_cons, foldl_nil, apply, survives_concat, ← ih]
    simp

/-- A relation that what an event adds has to all that it leaves holds throughout. -/
theorem pairwise_foldl_apply {Apart : ρ → ρ → Prop}
    (among : ∀ event ∈ events, (ledger.adds event).Pairwise Apart)
    (fresh : ∀ event ∈ events, ∀ new ∈ ledger.adds event, ∀ old,
      ledger.removes event old = false → Apart old new) :
    (events.foldl ledger.apply []).Pairwise Apart := by
  induction events using List.reverseRecOn with
  | nil => exact .nil
  | append_singleton events last ih =>
    have isLast : last ∈ events ++ [last] := mem_append_right _ (mem_singleton_self last)
    have earlier := ih (fun event mem => among event (mem_append_left _ mem))
      (fun event mem => fresh event (mem_append_left _ mem))
    rw [foldl_append, foldl_cons, foldl_nil, apply, pairwise_append]
    refine ⟨earlier.sublist filter_sublist, among last isLast, ?_⟩
    intro old oldMem new newMem
    have left := (mem_filter.mp oldMem).2
    exact fresh last isLast new newMem old (Bool.not_eq_true' _ ▸ left)

end Ledger

end Mentra.Foundation

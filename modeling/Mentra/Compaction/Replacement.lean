import Mentra.Compaction.Pairing

/-!
# The replaced transcript

The order of a compacted path: salvaged user turns, salvaged delegation results,
the summary and the tail.  A user turn is no delegation result, so with distinct
ids the search for results that were copied already finds none.
-/

namespace Mentra.Compaction

open TranscriptItem List

variable {V : Type}

variable [DecidableEq V]

theorem addDelegationResults_eq_append {copied results : List (TranscriptItem V)}
    (distinct : results.Nodup) (apart : ∀ result ∈ results, result ∉ copied) :
    addDelegationResults copied results = copied ++ results := by
  induction results generalizing copied with
  | nil => exact (append_nil _).symm
  | cons result results ih =>
    rw [nodup_cons] at distinct
    rw [forall_mem_cons] at apart
    rw [addDelegationResults, foldl_cons, if_neg apart.1, ← addDelegationResults,
      ih distinct.2, append_assoc, singleton_append]
    intro other mem
    rw [mem_append, mem_singleton, not_or]
    refine ⟨apart.2 other mem, ?_⟩
    rintro rfl
    exact distinct.1 mem

theorem salvaged_eq_append {env : CompactionEnv V} {request : CompactionRequest V}
    (distinct : (request.transcript.items.map TranscriptItem.id).Nodup) :
    salvaged env request =
      selectRecentUserTurns env.approxTokenCount (compactedItems request.transcript.items)
          request.preserveRecentUserTokens ++
        ((compactedItems request.transcript.items).filter isDelegationResult).rtake
          request.preserveRecentDelegationResults := by
  rw [salvaged, selectRecentDelegationResults, ← rtake_eq_reverse_take_reverse]
  have results : (((compactedItems request.transcript.items).filter isDelegationResult).rtake
      request.preserveRecentDelegationResults).Sublist
        ((compactedItems request.transcript.items).filter isDelegationResult) :=
    drop_sublist _ _
  apply addDelegationResults_eq_append
  · exact distinct.of_map.sublist ((results.trans filter_sublist).trans (take_sublist _ _))
  · intro result mem isTurn
    have turns := (selectRecentUserTurns_recent env.approxTokenCount
      (compactedItems request.transcript.items) request.preserveRecentUserTokens).suffix
    have real := (mem_filter.mp (turns.subset isTurn)).2
    have delegated := (mem_filter.mp (results.subset mem)).2
    rw [isRealUserTurn] at real
    rw [isDelegationResult] at delegated
    split at real
    · rename_i kind
      rw [kind] at delegated
      cases delegated
    · cases real

/-- What a compaction leaves: the most recent user turns of the replaced part within the budget,
its last delegation results, the summary and the tail, up to parent links. -/
theorem compact_replaces {env : CompactionEnv V} {request : CompactionRequest V}
    {outcome : CompactionOutcome V}
    (distinct : (request.transcript.items.map TranscriptItem.id).Nodup)
    (compacted : compact env request = .ok (some outcome)) :
    ∃ replaced tail turns, request.transcript.items = replaced ++ tail ∧
      List.Forall₂ SameEntry outcome.transcript.items
        (turns ++ (replaced.filter isDelegationResult).rtake
            request.preserveRecentDelegationResults ++
          [.compactionSummary env.summaryId outcome.summary] ++ tail) ∧
      turns <:+ replaced.filter isRealUserTurn ∧
      (replaced.filter isRealUserTurn ≠ [] → turns ≠ []) ∧
      ((turns.map fun turn => env.approxTokenCount turn.text).sum ≤
          request.preserveRecentUserTokens ∨
        ∃ newest, turns = [newest] ∧
          request.preserveRecentUserTokens < env.approxTokenCount newest.text) ∧
      (∀ older next, replaced.filter isRealUserTurn = older ++ next :: turns →
        request.preserveRecentUserTokens ≤
            (turns.map fun turn => env.approxTokenCount turn.text).sum ∨
          request.preserveRecentUserTokens < env.approxTokenCount next.text +
            (turns.map fun turn => env.approxTokenCount turn.text).sum) ∧
      outcome.replacedItems = replaced.length ∧
      outcome.replacedItems + outcome.preservedItems = request.transcript.items.length := by
  obtain ⟨nonempty, transcript, -, replaced, preserved⟩ := compact_outcome compacted
  have recent := selectRecentUserTurns_recent env.approxTokenCount
    (compactedItems request.transcript.items) request.preserveRecentUserTokens
  refine ⟨_, _, _, (take_append_drop _ _).symm, ?_, recent.suffix, recent.newest,
    recent.within, recent.full, replaced, ?_⟩
  · rw [transcript, ← compactedItems, ← salvaged_eq_append distinct]
    exact linkFrom_sameEntry none _
  · have cut := congrArg List.length
      (take_append_drop (tailStart request.transcript.items) request.transcript.items)
    rw [length_append, length_drop] at cut
    rw [replaced, preserved, compactedItems, cut]

/-- A task call with its delegation, of which the last entry stays. -/
theorem delegatedCall_compact_replaces :
    ∃ outcome, compact (quietEnv ⟨"summary"⟩) ⟨DelegatedCall.delegatedCall, 100, 1, .localOnly⟩ =
        .ok (some outcome) ∧
      outcome.replacedItems + outcome.preservedItems = 5 := by
  obtain ⟨outcome, compacted⟩ : ∃ outcome, compact (quietEnv ⟨"summary"⟩)
      ⟨DelegatedCall.delegatedCall, 100, 1, .localOnly⟩ = .ok (some outcome) := ⟨_, rfl⟩
  obtain ⟨-, -, -, -, -, -, -, -, -, -, counts⟩ := compact_replaces (by decide) compacted
  exact ⟨outcome, compacted, counts⟩

end Mentra.Compaction

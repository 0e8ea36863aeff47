import Mentra.Compaction.Salvage

/-!
# Parent links across a compaction

A compaction builds its transcript out of salvaged entries, a new summary and
the old tail, and `AgentTranscript.new` only writes parent links that are
missing.  The tail's first entry therefore keeps the link to the entry the
summary replaced.  The result is a chain exactly when there is no tail.
-/

namespace Mentra

open Mentra.Foundation List Transition TranscriptItem
open Mentra.Foundation.ParentLinks

namespace AgentTranscript

variable {V : Type}

/-! ## Linking -/

variable (previous : Option EntryId)

@[simp]
theorem linkFrom_map_id (items : List (TranscriptItem V)) :
    (linkFrom previous items).map TranscriptItem.id = items.map TranscriptItem.id := by
  induction items generalizing previous with
  | nil => rfl
  | cons item items ih =>
    simp only [linkFrom, map_cons, ih]
    split <;> rfl

theorem lastKey_linkFrom (start : Option EntryId) (items : List (TranscriptItem V)) :
    lastKey TranscriptItem.id start (linkFrom previous items) =
      lastKey TranscriptItem.id start items := by
  have last := congrArg List.getLast? (linkFrom_map_id previous items)
  rw [getLast?_map, getLast?_map] at last
  simp only [lastKey, last]

theorem linkFrom_append (front rest : List (TranscriptItem V)) :
    linkFrom previous (front ++ rest) =
      linkFrom previous front ++ linkFrom (lastKey TranscriptItem.id previous front) rest := by
  induction front generalizing previous with
  | nil => rfl
  | cons item front ih =>
    rw [lastKey_cons]
    simp only [cons_append, linkFrom, ih]

/-! ## Branching away and back -/

/-- After a branch to any active entry, branching to the old leaf restores the
active path. -/
def BranchesBack (transcript : AgentTranscript V) : Prop :=
  ∀ item ∈ transcript.items, ∃ left after, transcript.branchFrom item.id = .ok (left, after) ∧
    ∀ leaf, transcript.leaf = some leaf →
      ∃ returned back, after.branchFrom leaf = .ok (returned, back) ∧ back.items = transcript.items

theorem WellFormed.branchesBack {transcript : AgentTranscript V}
    (wellFormed : transcript.WellFormed) : transcript.BranchesBack := by
  intro item mem
  obtain ⟨left, after, result, branched⟩ :=
    branchFrom_spec wellFormed (mem_append_left _ mem)
  refine ⟨left, after, result, ?_⟩
  intro leaf isLeaf
  obtain ⟨last, isLast, rfl⟩ := Option.map_eq_some_iff.mp isLeaf
  have lastMem : last ∈ transcript.entries :=
    mem_append_left _ (mem_of_getLast? isLast)
  have afterWellFormed := wellFormed.branched branched
  obtain ⟨returned, back, result', branched'⟩ :=
    branchFrom_spec afterWellFormed (branched.perm.mem_iff.mpr lastMem)
  refine ⟨returned, back, result', ?_⟩
  -- Both paths lead to the old leaf through the same entries.
  have oldPath : IsPath after.entries last transcript.items := by
    refine ⟨wellFormed.active, fun item mem => ?_, isLast⟩
    exact branched.perm.mem_iff.mpr (mem_append_left _ mem)
  exact branched'.path.unique afterWellFormed.distinct oldPath

end AgentTranscript

namespace Compaction

open AgentTranscript

variable {V : Type}

/-! ## Nothing is salvaged from a path summarized as a unit -/

/-- An assistant turn or tool exchange is neither kind of salvaged entry. -/
theorem not_salvageable {item : TranscriptItem V}
    (kind : item.kind.isAssistantTurn ∨ item.kind.isToolExchange) :
    item.isRealUserTurn = false ∧ item.isDelegationResult = false := by
  unfold TranscriptKind.isAssistantTurn TranscriptKind.isToolExchange at kind
  unfold isRealUserTurn isDelegationResult
  cases h : item.kind <;> simp_all

variable {items : List (TranscriptItem V)}

theorem SummarizedWhole.kinds (whole : SummarizedWhole items) :
    ∀ item ∈ items, item.kind.isAssistantTurn ∨ item.kind.isToolExchange := by
  unfold SummarizedWhole at whole
  split at whole
  · intro item mem
    rw [mem_singleton.mp mem]
    exact .inr whole
  · intro item mem
    rcases mem_pair.mp mem with rfl | rfl
    · exact .inl whole.1
    · exact .inr whole.2
  · exact whole.elim

theorem SummarizedWhole.cut_eq (whole : SummarizedWhole items) :
    compactedItems items = items ∧ items.drop (tailStart items) = [] := by
  have split : splitTurn items = true := by
    unfold SummarizedWhole at whole
    split at whole
    · simp [splitTurn, requiredTailStartForContinuation, endsInToolExchange, whole]
    · simp [splitTurn, requiredTailStartForContinuation, endsInToolExchange, whole.1, whole.2]
    · exact whole.elim
  simp [compactedItems, tailStart, split]

/-- A transcript that is only a summary is the empty one after a push. -/
theorem new_summary_wellFormed (id : EntryId) (summary : CompactionSummary) :
    (AgentTranscript.new [compactionSummary (V := V) id summary]).WellFormed := by
  have absent : (compactionSummary (V := V) id summary).id ∉ ({} : AgentTranscript V).ids := by
    simp [ids, entries]
  exact wellFormed_empty.push absent

/-! ## A tail breaks the chain -/

/-- The tail's first entry names an entry of the old path, never the summary. -/
theorem not_isChain_of_tail {front older rest : List (TranscriptItem V)}
    {first summary : TranscriptItem V} (chain : IsChain (older ++ first :: rest))
    (nonempty : older ≠ []) (fresh : summary.id ∉ older.map TranscriptItem.id) :
    ¬ IsChain (linkFrom none (front ++ [summary] ++ first :: rest)) := by
  intro linked
  obtain ⟨olderFront, last, rfl⟩ := (eq_nil_or_concat older).resolve_left nonempty
  rw [concat_eq_append] at chain fresh
  have oldParent : first.parentId = some last.id := by
    have parent := ((linked_append none _ _).mp chain).2.1
    rwa [lastKey_concat] at parent
  have newParent : first.parentId = some summary.id := by
    rw [linkFrom_append] at linked
    have parent := ((linked_append none _ _).mp linked).2
    rw [lastKey_linkFrom, lastKey_concat] at parent
    simpa [linkFrom, oldParent] using parent.1
  have same : last.id = summary.id := Option.some.inj (oldParent.symm.trans newParent)
  exact fresh (by simp [same])

/-- A cut path whose replacement is a chain has no tail. -/
theorem Cut.whole_of_isChain {compacted tail front : List (TranscriptItem V)}
    {summary : TranscriptItem V} (cut : Cut items compacted tail) (chain : IsChain items)
    (fresh : summary.id ∉ items.map TranscriptItem.id)
    (linked : IsChain (linkFrom none (front ++ [summary] ++ tail))) : SummarizedWhole items := by
  rw [mem_map, not_exists] at fresh
  cases cut with
  | whole _ unit => exact unit
  | exchange older assistant exchange nonempty calls answers =>
    refine absurd linked (not_isChain_of_tail chain nonempty ?_)
    rintro old
    obtain ⟨item, mem, same⟩ := mem_map.mp old
    exact fresh item ⟨mem_append_left _ mem, same⟩
  | last older before last apart =>
    have regroup : older ++ [before, last] = (older ++ [before]) ++ [last] := by simp
    rw [regroup] at chain fresh
    refine absurd linked (not_isChain_of_tail chain (by simp) ?_)
    rintro old
    obtain ⟨item, mem, same⟩ := mem_map.mp old
    exact fresh item ⟨mem_append_left _ mem, same⟩

section Engine

variable [DecidableEq V] {env : CompactionEnv V} {request : CompactionRequest V}

theorem salvaged_eq_nil (whole : SummarizedWhole (compactedItems request.transcript.items)) :
    salvaged env request = [] := by
  rw [eq_nil_iff_forall_not_mem]
  intro item mem
  obtain ⟨older, newer, split, kind⟩ := mem_salvaged_iff.mp mem
  have plain := not_salvageable (whole.kinds item (by simp [split]))
  rcases kind with turn | result
  · exact absurd turn.1 (by simp [plain.1])
  · exact absurd result.1 (by simp [plain.2])

/-- For a transcript grown by pushes and branch switches and a new summary id, the compacted
transcript is a chain on which one can branch back exactly when the whole path was summarized. -/
theorem reachable_compact_chain_iff {outcome : CompactionOutcome V}
    (reachable : Reachable treeStep ({} : AgentTranscript V) request.transcript)
    (fresh : env.summaryId ∉ request.transcript.ids)
    (compacted : compact env request = .ok (some outcome)) :
    (IsChain outcome.transcript.items ∧ outcome.transcript.BranchesBack) ↔
      SummarizedWhole request.transcript.items := by
  obtain ⟨nonempty, result⟩ := compact_eq_some compacted
  constructor
  · rintro ⟨linked, -⟩
    rw [result] at linked
    have freshActive : env.summaryId ∉ request.transcript.items.map TranscriptItem.id := by
      rw [ids, entries, map_append, mem_append, not_or] at fresh
      exact fresh.1
    exact (cut_of_compactedItems nonempty).whole_of_isChain
      (wellFormed_of_reachable reachable).active freshActive linked
  · intro whole
    obtain ⟨all, noTail⟩ := whole.cut_eq
    have summaryOnly : outcome.transcript =
        AgentTranscript.new [compactionSummary env.summaryId outcome.summary] := by
      rw [result, replacement, noTail, salvaged_eq_nil (all.symm ▸ whole)]
      rfl
    have wellFormed := new_summary_wellFormed (V := V) env.summaryId outcome.summary
    rw [summaryOnly]
    exact ⟨wellFormed.active, wellFormed.branchesBack⟩

end Engine

/-- A question, its answer, and a second question. -/
def askedAgain : AgentTranscript Unit where
  items :=
    [⟨⟨"ask"⟩, none, .userTurn, none, none⟩,
      ⟨⟨"answer"⟩, some ⟨"ask"⟩, .assistantTurn, none, none⟩,
      ⟨⟨"again"⟩, some ⟨"answer"⟩, .userTurn, none, none⟩]

/-- A bare call and its result. -/
def callAndResult : AgentTranscript Unit where
  items :=
    [⟨⟨"call"⟩, none, .assistantTurn, none, none⟩,
      ⟨⟨"result"⟩, some ⟨"call"⟩, .toolExchange none false, none, none⟩]

/-- The second question keeps its link to the dropped answer: a branch back to the first
question cannot be undone. -/
theorem askedAgain_compact_not_chain :
    Reachable treeStep {} askedAgain ∧ (⟨"summary"⟩ : EntryId) ∉ askedAgain.ids ∧
      ∃ outcome, compact (quietEnv ⟨"summary"⟩) ⟨askedAgain, 100, 0, .localOnly⟩ =
          .ok (some outcome) ∧
        ¬ IsChain outcome.transcript.items ∧
        (∃ left after, outcome.transcript.branchFrom ⟨"ask"⟩ = .ok (left, after) ∧
          after.branchFrom ⟨"again"⟩ = .error (.error (.brokenChain ⟨"again"⟩ ⟨"answer"⟩))) ∧
        ¬ outcome.transcript.BranchesBack := by
  have reachable : Reachable treeStep {} askedAgain :=
    ⟨[.push ⟨⟨"ask"⟩, none, .userTurn, none, none⟩,
      .push ⟨⟨"answer"⟩, none, .assistantTurn, none, none⟩,
      .push ⟨⟨"again"⟩, none, .userTurn, none, none⟩], by decide⟩
  refine ⟨reachable, by decide, _, rfl, ?_, ⟨_, _, rfl, rfl⟩, ?_⟩
  · intro chain
    exact absurd chain.2.2.1 (by decide)
  · intro back
    obtain ⟨left, after, branched, returns⟩ := back _ mem_cons_self
    cases branched
    obtain ⟨returned, restored, failed, -⟩ := returns ⟨"again"⟩ rfl
    cases failed

theorem callAndResult_compact_chain :
    Reachable treeStep {} callAndResult ∧
      ∃ outcome, compact (quietEnv ⟨"summary"⟩) ⟨callAndResult, 100, 0, .localOnly⟩ =
          .ok (some outcome) ∧
        IsChain outcome.transcript.items ∧ outcome.transcript.BranchesBack := by
  have reachable : Reachable treeStep {} callAndResult :=
    ⟨[.push ⟨⟨"call"⟩, none, .assistantTurn, none, none⟩,
      .push ⟨⟨"result"⟩, none, .toolExchange none false, none, none⟩], by decide⟩
  obtain ⟨outcome, compacted⟩ : ∃ outcome, compact (quietEnv ⟨"summary"⟩)
      ⟨callAndResult, 100, 0, .localOnly⟩ = .ok (some outcome) := ⟨_, rfl⟩
  refine ⟨reachable, outcome, compacted, ?_⟩
  exact (reachable_compact_chain_iff reachable (by decide) compacted).mpr ⟨rfl, rfl⟩

end Compaction

end Mentra

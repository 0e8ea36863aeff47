import Mentra.Compaction.Chain
import Mentra.Transcript.Branches

/-!
# Entries keep their links

Only the first entry of an active path may lack a parent.  On such a path the links that are
filled in when a transcript is put together are there already, so appending, branching and
compacting leave entries as they were recorded.
-/

namespace Mentra

open Foundation List
open Foundation.ParentLinks

variable {V : Type}

namespace AgentTranscript

/-- Every entry of the active path but the first names its parent. -/
def Anchored (transcript : AgentTranscript V) : Prop :=
  ∀ item ∈ transcript.items.tail, item.parentId ≠ none

theorem linkFrom_eq_self {previous : Option EntryId} {items : List (TranscriptItem V)}
    (links : ∀ item ∈ items, item.parentId ≠ none) : linkFrom previous items = items := by
  induction items generalizing previous with
  | nil => rfl
  | cons item rest ih =>
    have first := links item mem_cons_self
    have later : linkFrom (some item.id) rest = rest :=
      ih fun other mem => links other (mem_cons_of_mem _ mem)
    simp only [linkFrom, first, if_false, later]

theorem linkFrom_none_eq_self {items : List (TranscriptItem V)}
    (links : ∀ item ∈ items.tail, item.parentId ≠ none) : linkFrom none items = items := by
  cases items with
  | nil => rfl
  | cons item rest =>
    have later : linkFrom (some item.id) rest = rest := linkFrom_eq_self links
    rw [linkFrom, later]
    split
    · rename_i root
      rw [← root]
    · rfl

variable {transcript : AgentTranscript V}

/-- What is put together from its parts is the transcript they were taken from. -/
theorem Anchored.fromParts (anchored : transcript.Anchored) :
    fromParts transcript.items transcript.archive = transcript := by
  rw [AgentTranscript.fromParts, linkActivePath, linkFrom_none_eq_self anchored]

theorem Anchored.push (anchored : transcript.Anchored)
    (item : TranscriptItem V) : (transcript.push item).Anchored := by
  intro other mem
  cases items : transcript.items with
  | nil =>
    simp [AgentTranscript.push, items] at mem
  | cons first rest =>
    simp only [AgentTranscript.push, items, cons_append, tail_cons, mem_append,
      mem_singleton] at mem
    rcases mem with old | rfl
    · exact anchored other (by rw [items]; exact old)
    · simp [leaf, items, getLast?_cons]

/-! ## Branching -/

/-- Some entry with the id names a parent. -/
def HasParent (transcript : AgentTranscript V) (id : EntryId) : Prop :=
  ∃ item ∈ transcript.entries, item.id = id ∧ item.parentId ≠ none

/-- The walk towards the root goes on from every entry but the last it meets. -/
theorem Leads.hasParent {cursor : Option EntryId}
    {path : List EntryId} (leads : Leads transcript cursor path) :
    ∀ id ∈ path.dropLast, transcript.HasParent id := by
  induction leads with
  | done => exact fun id mem => absurd mem not_mem_nil
  | @next current item path found rest ih =>
    cases path with
    | nil => exact fun id mem => absurd mem not_mem_nil
    | cons parent path =>
      rw [dropLast_cons_cons, forall_mem_cons]
      refine ⟨⟨item, mem_of_find?_eq_some found, by simpa using find?_some found, ?_⟩, ih⟩
      intro root
      rw [root] at rest
      cases rest

/-- Branching moves entries between the active path and the archive. -/
theorem branchFrom_anchored {before after : AgentTranscript V} {id : EntryId} {left : Nat}
    (branched : before.branchFrom id = .ok (left, after)) (anchored : before.Anchored)
    (agree : ∀ item ∈ before.entries, ∀ other ∈ before.entries, item.id = other.id → item = other) :
    (∀ item ∈ after.entries, item ∈ before.entries) ∧ after.Anchored ∧ after.items ≠ [] := by
  have perm := branchFrom_perm branched
  refine ⟨fun item mem => perm.mem_iff.mp mem, ?_⟩
  rw [branchFrom] at branched
  split at branched
  · rename_i position found
    cases branched
    constructor
    · intro item mem
      exact anchored item ((take_sublist _ _).tail.subset mem)
    · intro empty
      obtain ⟨inside, -⟩ := findIdx?_eq_some_iff_getElem.mp found
      have short := congrArg List.length empty
      simp only [length_take, length_nil] at short
      omega
  · split at branched
    · split at branched
      · cases branched
      · rename_i walks
        obtain ⟨path, leads, rfl⟩ := leads_of_pathLoop walks
        split at branched
        · cases branched
        · rename_i restored rest taken
          cases branched
          have ids := (takePath_perm taken).1
          rw [append_nil] at ids
          constructor
          · intro item mem
            have inPath : item.id ∈ path.dropLast := by
              rw [← mem_reverse, ← tail_reverse, ← ids, ← map_tail]
              exact mem_map_of_mem mem
            obtain ⟨other, present, sameId, parent⟩ := leads.hasParent item.id inPath
            have moved := perm.mem_iff.mp (mem_append_left _ (mem_of_mem_tail mem))
            rw [agree item moved other present sameId.symm]
            exact parent
          · rintro rfl
            rw [map_nil, eq_comm, reverse_eq_nil_iff] at ids
            subst ids
            cases leads
    · cases branched

end AgentTranscript

/-! ## Compacting -/

namespace Compaction

/-- The tail a compaction keeps does not hold the first entry. -/
theorem keptTail_links {request : CompactionRequest V}
    (nonempty : compactedItems request.transcript.items ≠ [])
    (anchored : request.transcript.Anchored) :
    ∀ item ∈ request.transcript.items.drop (tailStart request.transcript.items),
      item.parentId ≠ none := by
  intro item mem
  have started : 0 < tailStart request.transcript.items :=
    Nat.pos_of_ne_zero fun zero => nonempty (by rw [compactedItems, zero, take_zero])
  apply anchored
  rw [← drop_one]
  exact (drop_sublist_drop_left _ started).subset mem

variable [DecidableEq V]

theorem exists_addDelegationResults (replacement results : List (TranscriptItem V)) :
    ∃ added, addDelegationResults replacement results = replacement ++ added ∧
      ∀ item ∈ added, item ∈ results := by
  induction results generalizing replacement with
  | nil => exact ⟨[], (append_nil _).symm, fun _ mem => absurd mem not_mem_nil⟩
  | cons result results ih =>
    by_cases present : result ∈ replacement
    · obtain ⟨added, same, mem⟩ := ih replacement
      refine ⟨added, ?_, fun item inAdded => mem_cons_of_mem _ (mem item inAdded)⟩
      rw [addDelegationResults, foldl_cons, if_pos present]
      exact same
    · obtain ⟨added, same, mem⟩ := ih (replacement ++ [result])
      refine ⟨result :: added, ?_, ?_⟩
      · rw [addDelegationResults, foldl_cons, if_neg present, append_cons replacement result added]
        exact same
      · intro item inAdded
        rcases mem_cons.mp inAdded with rfl | later
        · exact mem_cons_self
        · exact mem_cons_of_mem _ (mem item later)

variable {env : CompactionEnv V} {request : CompactionRequest V}

theorem mem_of_mem_salvaged {item : TranscriptItem V} (copied : item ∈ salvaged env request) :
    item ∈ request.transcript.items := by
  obtain ⟨older, newer, split, -⟩ := mem_salvaged_iff.mp copied
  have summarized : item ∈ compactedItems request.transcript.items := by
    rw [split]
    exact mem_append_right _ mem_cons_self
  exact mem_of_mem_take summarized

/-- The entry of a compaction's summary. -/
def summaryEntry (env : CompactionEnv V) (request : CompactionRequest V)
    (summary : CompactionSummary) : TranscriptItem V :=
  { TranscriptItem.compactionSummary env.summaryId summary with
    parentId := lastKey TranscriptItem.id none (salvaged env request) }

section

variable (anchored : request.transcript.Anchored)
  (roots : ∀ item ∈ request.transcript.items, item.parentId = none →
    item.isDelegationResult = false)
include anchored roots

/-- The salvaged entries but the first name their parents. -/
theorem salvaged_tail (env : CompactionEnv V) :
    ∀ item ∈ (salvaged env request).tail, item.parentId ≠ none := by
  intro item mem
  have turns := (selectRecentUserTurns_recent env.approxTokenCount (compactedItems
    request.transcript.items) request.preserveRecentUserTokens).suffix.sublist.trans filter_sublist
  obtain ⟨added, split, fromResults⟩ := exists_addDelegationResults
    (selectRecentUserTurns env.approxTokenCount (compactedItems request.transcript.items)
      request.preserveRecentUserTokens)
    (selectRecentDelegationResults (compactedItems request.transcript.items)
      request.preserveRecentDelegationResults)
  have result (inAdded : item ∈ added) : item.parentId ≠ none := by
    intro root
    obtain ⟨older, newer, onPath, salvaged, -⟩ :=
      mem_selectRecentDelegationResults_iff.mp (fromResults item inAdded)
    have present : item ∈ request.transcript.items := by
      apply mem_of_mem_take
      rw [← compactedItems, onPath]
      exact mem_append_right _ mem_cons_self
    rw [roots item present root] at salvaged
    cases salvaged
  rw [salvaged, split] at mem
  generalize selectRecentUserTurns env.approxTokenCount (compactedItems request.transcript.items)
    request.preserveRecentUserTokens = chosen at turns mem
  cases chosen with
  | nil => exact result (mem_of_mem_tail mem)
  | cons first rest =>
    rcases mem_append.mp mem with turn | inAdded
    · exact anchored item ((turns.trans (take_sublist _ _)).tail.subset turn)
    · exact result inAdded

/-- Of the entries of its replacement a compaction changes the new one only. -/
theorem compact_items {outcome : CompactionOutcome V}
    (compacted : compact env request = .ok (some outcome)) :
    outcome.transcript =
      ⟨salvaged env request ++ summaryEntry env request outcome.summary ::
        request.transcript.items.drop (tailStart request.transcript.items), []⟩ := by
  obtain ⟨nonempty, transcript⟩ := compact_eq_some compacted
  have kept : AgentTranscript.linkFrom (some env.summaryId)
      (request.transcript.items.drop (tailStart request.transcript.items)) =
        request.transcript.items.drop (tailStart request.transcript.items) :=
    AgentTranscript.linkFrom_eq_self (keptTail_links nonempty anchored)
  rw [transcript, replacement, AgentTranscript.new, AgentTranscript.linkActivePath,
    append_assoc, AgentTranscript.linkFrom_append,
    AgentTranscript.linkFrom_none_eq_self (salvaged_tail anchored roots env), singleton_append,
    AgentTranscript.linkFrom]
  exact congrArg (fun tail => AgentTranscript.mk (salvaged env request ++ _ :: tail) []) kept

/-- A compaction keeps the entries it copies and adds one for its summary. -/
theorem compact_anchored {outcome : CompactionOutcome V}
    (compacted : compact env request = .ok (some outcome)) :
    outcome.transcript.Anchored ∧ outcome.transcript.items ≠ [] ∧
      ∀ item ∈ outcome.transcript.entries,
        item ∈ request.transcript.entries ∨ item = summaryEntry env request outcome.summary := by
  have front := salvaged_tail anchored roots env
  have tail := keptTail_links (compact_eq_some compacted).1 anchored
  rw [compact_items anchored roots compacted]
  refine ⟨?_, append_ne_nil_of_right_ne_nil _ (cons_ne_nil _ _), ?_⟩
  · intro item mem
    cases copies : salvaged env request with
    | nil =>
      rw [copies] at mem
      exact tail item mem
    | cons first rest =>
      rw [copies] at front mem
      rcases mem_append.mp mem with copied | later
      · exact front item copied
      · rcases mem_cons.mp later with rfl | kept
        · simp [summaryEntry, lastKey, copies, getLast?_cons]
        · exact tail item kept
  · intro item mem
    rw [AgentTranscript.entries, append_nil, mem_append, mem_cons] at mem
    rcases mem with copied | rfl | kept
    · exact .inl (mem_append_left _ (mem_of_mem_salvaged copied))
    · exact .inr rfl
    · exact .inl (mem_append_left _ (mem_of_mem_drop kept))

end

end Compaction

end Mentra

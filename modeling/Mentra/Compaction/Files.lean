import Mentra.Compaction.Chain

/-!
# Files recorded across compactions

A summary's file list starts from that of the newest summary on the active path.  What
carries it from round to round is where summaries can be: the path has at most one, the one
made last, and it is in the preserved tail only if it is the whole path.
-/

namespace Mentra

open Mentra.Foundation List TranscriptItem
open Mentra.Foundation.Outcome (bind_eq_ok_iff)

namespace TranscriptItem

variable {V : Type}

/-- The summary an entry records. -/
def summary? (item : TranscriptItem V) : Option CompactionSummary :=
  match item.kind with
  | .compactionSummary summary => some summary
  | _ => none

variable {item : TranscriptItem V}

/-- Turns, tool exchanges and delegation results record no summary. -/
theorem summary?_eq_none (kind : item.kind.isAssistantTurn ∨ item.kind.isToolExchange ∨
    item.isRealUserTurn ∨ item.isDelegationResult) : item.summary? = none := by
  unfold TranscriptKind.isAssistantTurn TranscriptKind.isToolExchange isRealUserTurn
    isDelegationResult at kind
  unfold summary?
  cases h : item.kind <;> simp_all

end TranscriptItem

namespace AgentTranscript

variable {V : Type}

/-- Linking writes parents only. -/
@[simp]
theorem map_summary?_linkFrom (previous : Option EntryId) (items : List (TranscriptItem V)) :
    (linkFrom previous items).map summary? = items.map summary? := by
  induction items generalizing previous with
  | nil => rfl
  | cons item items ih =>
    simp only [linkFrom, map_cons, ih]
    split <;> rfl

end AgentTranscript

namespace Compaction

variable {V : Type}

/-! ## File lists -/

section FileLists

variable {seen fresh : List String} {path : String}

theorem prefix_addUnseen (seen fresh : List String) : seen <+: addUnseen seen fresh := by
  induction fresh generalizing seen with
  | nil => exact prefix_rfl
  | cons first rest ih =>
    rw [addUnseen, foldl_cons]
    split
    · exact ih seen
    · exact (prefix_append _ _).trans (ih (seen ++ [first]))

theorem addUnseen_nodup (distinct : seen.Nodup) : (addUnseen seen fresh).Nodup := by
  induction fresh generalizing seen with
  | nil => exact distinct
  | cons first rest ih =>
    rw [addUnseen, foldl_cons]
    split
    · exact ih distinct
    · rename_i unseen
      exact ih (concat_eq_append ▸ distinct.concat unseen)

theorem mem_addUnseen_iff : path ∈ addUnseen seen fresh ↔ path ∈ seen ∨ path ∈ fresh := by
  induction fresh generalizing seen with
  | nil => simp [addUnseen]
  | cons first rest ih =>
    rw [addUnseen, foldl_cons, mem_cons]
    split
    · rename_i listed
      rw [← addUnseen, ih]
      constructor
      · exact Or.imp_right .inr
      · rintro (old | rfl | new)
        · exact .inl old
        · exact .inl listed
        · exact .inr new
    · rw [← addUnseen, ih, mem_append, mem_singleton, or_assoc]

end FileLists

variable {items : List (TranscriptItem V)}

/-- The extracted files are those captured in some tool exchange. -/
theorem mem_extractContext_files_iff {env : CompactionEnv V} {path : String} :
    path ∈ (extractContext env items).filesTouched ↔
      ∃ item ∈ items, item.kind.isToolExchange ∧ path ∈ env.fileCaptures item.text := by
  induction items using List.reverseRecOn with
  | nil => simp [extractContext]
  | append_singleton items item ih =>
    simp only [extractContext, foldl_append, foldl_cons, foldl_nil] at ih ⊢
    split
    · rename_i exchange
      rw [mem_addUnseen_iff, ih]
      simp [exchange]
    · rename_i other
      rw [ih]
      simp [other]

/-- With one summary or none on the path, its list is the one carried on. -/
theorem carriedFiles_of_summaries {newest : Option CompactionSummary}
    (summaries : (items.map summary?).reduceOption = newest.toList) :
    carriedFiles items = (newest.map CompactionSummary.filesTouched).getD [] := by
  have files : carriedFiles items =
      ((items.reverse.findSome? summary?).map CompactionSummary.filesTouched).getD [] := by
    rw [carriedFiles, map_findSome?]
    congr 2
    funext item
    simp only [Function.comp_apply, summary?]
    cases item.kind <;> rfl
  have found : items.filterMap summary? = newest.toList := by
    rw [← summaries, List.reduceOption, filterMap_map, Function.id_comp]
  rw [files, ← head?_filterMap, filterMap_reverse, found]
  cases newest <;> rfl

/-! ## A session of appends and compactions -/

/-- An entry that is appended.  Only a compaction makes summary entries. -/
structure Appended (V : Type) where
  item : TranscriptItem V
  notSummary : item.summary? = none

/-- What happens to a session's transcript. -/
inductive SessionAction (V : Type)
  | append (entry : Appended V)
  | compact (env : CompactionEnv V) (preserveRecentUserTokens : Nat)
      (preserveRecentDelegationResults : Nat) (mode : CompactionMode)

/-- A transcript with the summaries made so far, oldest first. -/
structure Session (V : Type) where
  transcript : AgentTranscript V := {}
  summaries : List CompactionSummary := []

namespace Session

variable [DecidableEq V]

/-- A compaction that fails or finds nothing to replace changes nothing. -/
def step (session : Session V) : SessionAction V → Session V
  | .append entry => { session with transcript := session.transcript.push entry.item }
  | .compact env userTokens delegationResults mode =>
    match Compaction.compact env ⟨session.transcript, userTokens, delegationResults, mode⟩ with
    | .ok (some outcome) => ⟨outcome.transcript, session.summaries ++ [outcome.summary]⟩
    | _ => session

/-- The session after these actions, starting with an empty transcript. -/
def play (actions : List (SessionAction V)) : Session V :=
  actions.foldl step {}

/-- Where a session's summaries are. -/
structure Recorded (session : Session V) : Prop where
  /-- The path has the newest summary and no other. -/
  newest : (session.transcript.items.map summary?).reduceOption = session.summaries.getLast?.toList
  /-- A summary ends the path only if it is the whole path. -/
  alone : ∀ older before last,
    session.transcript.items.map summary? = older ++ [before, last] → last = none
  distinct : ∀ summary ∈ session.summaries.getLast?, summary.filesTouched.Nodup

end Session

/-- No summary is in the tail if none ends a longer path. -/
theorem Cut.tail_summary? {compacted tail : List (TranscriptItem V)}
    (cut : Cut items compacted tail)
    (alone : ∀ older before last, items.map summary? = older ++ [before, last] → last = none) :
    ∀ item ∈ tail, item.summary? = none := by
  cases cut with
  | whole _ unit =>
    intro item mem
    exact absurd mem not_mem_nil
  | exchange older assistant exchange nonempty calls answers =>
    intro item mem
    rcases mem_pair.mp mem with rfl | rfl
    · exact summary?_eq_none (.inl calls)
    · exact summary?_eq_none (.inr (.inl answers))
  | last older before last apart =>
    intro item mem
    rw [mem_singleton.mp mem]
    exact alone (older.map summary?) before.summary? last.summary? (by simp)

theorem Cut.whole_or_tail {compacted tail : List (TranscriptItem V)}
    (cut : Cut items compacted tail) : SummarizedWhole compacted ∨ tail ≠ [] := by
  cases cut with
  | whole _ unit => exact .inl unit
  | exchange older assistant exchange nonempty calls answers
  | last older before last apart => exact .inr (by simp)

section Engine

variable [DecidableEq V] {env : CompactionEnv V} {request : CompactionRequest V}
  {outcome : CompactionOutcome V}

theorem salvaged_summary? : ∀ item ∈ salvaged env request, item.summary? = none := by
  intro item mem
  obtain ⟨older, newer, split, kind⟩ := mem_salvaged_iff.mp mem
  exact summary?_eq_none (.inr (.inr (kind.imp And.left And.left)))

theorem eq_none_of_ends {front back : Nat} {summary : CompactionSummary}
    {older : List (Option CompactionSummary)} {before last : Option CompactionSummary}
    (ends : front = 0 ∨ back ≠ 0)
    (split : List.replicate front none ++ [some summary] ++ List.replicate back none =
      older ++ [before, last]) : last = none := by
  cases back with
  | zero =>
    rw [ends.resolve_right (not_not_intro rfl)] at split
    have lengths := congrArg List.length split
    simp at lengths
  | succ back =>
    rw [replicate_succ', ← append_assoc] at split
    have lasts := congrArg List.getLast? split
    rw [getLast?_concat] at lasts
    simpa using lasts.symm

/-- The summaries of a compacted path: the new one, if the tail has none. -/
theorem map_summary?_compact (compacted : compact env request = .ok (some outcome))
    (plainTail : ∀ item ∈ request.transcript.items.drop (tailStart request.transcript.items),
      item.summary? = none) :
    outcome.transcript.items.map summary? =
      List.replicate (salvaged env request).length none ++ [some outcome.summary] ++
        List.replicate
          (request.transcript.items.drop (tailStart request.transcript.items)).length none := by
  obtain ⟨nonempty, result⟩ := compact_eq_some compacted
  rw [result, AgentTranscript.new, AgentTranscript.linkActivePath,
    AgentTranscript.map_summary?_linkFrom, replacement, map_append, map_append,
    map_eq_replicate_iff.mpr salvaged_summary?, map_eq_replicate_iff.mpr plainTail]
  rfl

namespace Session

variable {session : Session V}

omit [DecidableEq V] in
theorem recorded_empty : Recorded ({} : Session V) where
  newest := rfl
  alone := by
    intro older before last split
    simp at split
  distinct := nofun

theorem Recorded.append (recorded : session.Recorded) (entry : Appended V) :
    (session.step (.append entry)).Recorded := by
  have marks : (session.step (.append entry)).transcript.items.map summary? =
      session.transcript.items.map summary? ++ [none] := by
    have plain : ({ entry.item with parentId := session.transcript.leaf } :
        TranscriptItem V).summary? = none := entry.notSummary
    rw [step, AgentTranscript.push, map_append, map_singleton, plain]
  constructor
  · rw [marks, reduceOption_append, recorded.newest]
    exact append_nil _
  · intro older before last split
    have ends := congrArg List.getLast? (marks.symm.trans split)
    simpa using ends.symm
  · exact recorded.distinct

section

variable {userTokens delegationResults : Nat} {mode : CompactionMode} (recorded : session.Recorded)
  (compacted : Compaction.compact env ⟨session.transcript, userTokens, delegationResults, mode⟩ =
    .ok (some outcome))
include recorded compacted

/-- The list a compaction writes, in a session that has recorded its summaries. -/
theorem Recorded.filesTouched :
    outcome.summary.filesTouched =
      addUnseen ((session.summaries.getLast?.map CompactionSummary.filesTouched).getD [])
        (extractContext env (compactedItems session.transcript.items)).filesTouched := by
  rw [(compact_outcome compacted).2.2.1, carriedFiles_of_summaries recorded.newest]
  rfl

theorem Recorded.nodup : outcome.summary.filesTouched.Nodup := by
  rw [recorded.filesTouched compacted]
  apply addUnseen_nodup
  cases last : session.summaries.getLast? with
  | none => exact nodup_nil
  | some previous => exact recorded.distinct previous last

theorem Recorded.compact :
    Recorded ⟨outcome.transcript, session.summaries ++ [outcome.summary]⟩ := by
  obtain ⟨nonempty, result⟩ := compact_eq_some compacted
  have plainTail := (cut_of_compactedItems nonempty).tail_summary? recorded.alone
  have ends : salvaged env ⟨session.transcript, userTokens, delegationResults, mode⟩ = [] ∨ _ :=
    (cut_of_compactedItems nonempty).whole_or_tail.imp_left salvaged_eq_nil
  have marks := map_summary?_compact compacted plainTail
  constructor
  · rw [marks]
    simp [reduceOption_append]
  · intro older before last split
    rw [marks] at split
    exact eq_none_of_ends (ends.imp length_eq_zero_iff.mpr length_eq_zero_iff.not.mpr)
      split
  · intro summary isLast
    rw [getLast?_concat, Option.mem_some_iff] at isLast
    exact isLast ▸ recorded.nodup compacted

end

theorem Recorded.step (recorded : session.Recorded) (action : SessionAction V) :
    (session.step action).Recorded := by
  cases action with
  | append entry => exact recorded.append entry
  | compact env userTokens delegationResults mode =>
    rw [Session.step]
    split
    · rename_i outcome compacted
      exact recorded.compact compacted
    · exact recorded

theorem recorded_play (actions : List (SessionAction V)) : (play actions).Recorded := by
  induction actions using List.reverseRecOn with
  | nil => exact recorded_empty
  | append_singleton actions action ih =>
    rw [play, foldl_concat]
    exact ih.step action

end Session

/-- After any appends and compactions, the next summary's file list has no repeats, continues
that of the summary before it, and has every file extracted from the entries it replaces. -/
theorem filesTouched_grows (actions : List (SessionAction V)) (env : CompactionEnv V)
    (userTokens delegationResults : Nat) (mode : CompactionMode)
    (compacted : compact env
        ⟨(Session.play actions).transcript, userTokens, delegationResults, mode⟩ =
      .ok (some outcome)) :
    outcome.summary.filesTouched.Nodup ∧
      (∀ previous, (Session.play actions).summaries.getLast? = some previous →
        previous.filesTouched <+: outcome.summary.filesTouched) ∧
      ∀ item ∈ compactedItems (Session.play actions).transcript.items,
        item.kind.isToolExchange →
          ∀ path ∈ env.fileCaptures item.text, path ∈ outcome.summary.filesTouched := by
  have recorded := Session.recorded_play actions
  have files := recorded.filesTouched compacted
  refine ⟨recorded.nodup compacted, ?_, ?_⟩
  · intro previous isLast
    rw [files, isLast]
    exact prefix_addUnseen _ _
  · intro item replaced exchange path captured
    rw [files, mem_addUnseen_iff]
    exact .inr (mem_extractContext_files_iff.mpr ⟨item, replaced, exchange, captured⟩)

end Engine

/-- An environment whose file expression finds the same paths in every text. -/
def findingEnv (summaryId : EntryId) (files : List String) : CompactionEnv Unit :=
  { quietEnv summaryId with fileCaptures _ := files }

/-- A question, a call with its result, a compaction that replaces them, and a
second call with its result. -/
def twoRounds : List (SessionAction Unit) :=
  [.append ⟨⟨⟨"ask"⟩, none, .userTurn, none, none⟩, rfl⟩,
    .append ⟨⟨⟨"read"⟩, none, .toolExchange none false, none, none⟩, rfl⟩,
    .append ⟨⟨⟨"answer"⟩, none, .assistantTurn, none, none⟩, rfl⟩,
    .compact (findingEnv ⟨"first"⟩ ["b.rs", "a.rs", "b.rs"]) 0 0 .localOnly,
    .append ⟨⟨⟨"edit"⟩, none, .toolExchange none false, none, none⟩, rfl⟩,
    .append ⟨⟨⟨"done"⟩, none, .assistantTurn, none, none⟩, rfl⟩]

theorem twoRounds_filesTouched_grows :
    ∃ outcome, compact (findingEnv ⟨"second"⟩ ["a.rs", "c.rs"])
        ⟨(Session.play twoRounds).transcript, 0, 0, .localOnly⟩ = .ok (some outcome) ∧
      (Session.play twoRounds).summaries.map CompactionSummary.filesTouched = [["b.rs", "a.rs"]] ∧
      outcome.summary.filesTouched = ["b.rs", "a.rs", "c.rs"] ∧
      outcome.summary.filesTouched.Nodup := by
  obtain ⟨outcome, compacted, files⟩ : ∃ outcome,
      compact (findingEnv ⟨"second"⟩ ["a.rs", "c.rs"])
        ⟨(Session.play twoRounds).transcript, 0, 0, .localOnly⟩ = .ok (some outcome) ∧
      outcome.summary.filesTouched = ["b.rs", "a.rs", "c.rs"] := ⟨_, rfl, by decide +kernel⟩
  refine ⟨outcome, compacted, by decide +kernel, files, ?_⟩
  exact (filesTouched_grows twoRounds _ 0 0 .localOnly compacted).1

end Compaction

end Mentra

import Mentra.Compaction.Anchored
import Mentra.FileStore.Core
import Mentra.Journal.Recovery

/-!
# Memories an agent saves

The operations after which an agent saves its memory, and what holds of every memory they
lead to.  The snapshot names entries by id, so an entry must not change once it is recorded.
A compaction could change one only by copying a delegation result without a parent;
delegation results are recorded during runs, when the transcript is not empty.
-/

namespace Mentra.FileStore

open Foundation List Option

variable {V : Type}

/-- What an agent does to its memory before it saves it. -/
inductive Operation (V : Type)
  | keep
  | journal (action : AgentMemory.Action V)
  | compact (engine : CompactionEnv V) (userTokens delegationResults : Nat) (mode : CompactionMode)

namespace Operation

/-- Entries other than messages are recorded during runs, and only an
interrupted turn is continued. -/
def permitted (memory : AgentMemory V) : Operation V → Bool
  | .journal (.appendItem _) => memory.state.run.isSome
  | .journal (.beginContinuation _) => memory.state.interruptedTurn
  | _ => true

/-- The ids drawn for new entries. -/
def drawn : Operation V → List EntryId
  | .journal (.beginRun _ _ id) => [id]
  | .journal (.appendMessage _ id) => [id]
  | .journal (.appendItem item) => [item.id]
  | .journal (.commitAssistantMessage _ id) => [id]
  | .journal (.recover id) => [id]
  | .compact engine _ _ _ => [engine.summaryId]
  | _ => []

variable [DecidableEq V]

def apply (memory : AgentMemory V) (operation : Operation V) : Option (AgentMemory V) :=
  if operation.permitted memory then
    match operation with
    | .keep => some memory
    | .journal action => memory.step action
    | .compact engine userTokens delegationResults mode =>
      let request := ⟨memory.state.transcript, userTokens, delegationResults, mode⟩
      match Compaction.compact engine request with
      | .ok (some outcome) =>
        some (memory.tryApplyCompaction memory.state.revision outcome.transcript).2
      | _ => none
  else none

end Operation

/-! ## Memories that can be stored by reference -/

structure Storable (state : AgentMemoryState V) : Prop where
  anchored : state.transcript.Anchored
  baselines : ∀ run ∈ state.run, run.baselineTranscript.Anchored
  agree : ∀ item ∈ entriesOf state, ∀ other ∈ entriesOf state, item.id = other.id → item = other
  roots : ∀ item ∈ entriesOf state, item.parentId = none → item.isDelegationResult = false
  occupied : state.run.isSome ∨ state.interruptedTurn → state.transcript.items ≠ []
  returns : state.interruptedTurn → ∀ run ∈ state.run, run.baselineTranscript.items ≠ []

theorem mem_entriesOf_iff {state : AgentMemoryState V} {item : TranscriptItem V} :
    item ∈ entriesOf state ↔
      item ∈ state.transcript.entries ∨
        ∃ run ∈ state.run, item ∈ run.baselineTranscript.entries := by
  rw [entriesOf, mem_append]
  cases state.run <;> simp

/-- The runs are those of `state` or were opened on its transcript. -/
structure Inherits (state next : AgentMemoryState V) : Prop where
  baselines : ∀ run ∈ next.run, run.baselineTranscript = state.transcript ∨
    ∃ before ∈ state.run, run.baselineTranscript = before.baselineTranscript
  interrupted : next.run.isSome → next.interruptedTurn → state.interruptedTurn

/-- At most one entry is new. -/
structure Derives (state next : AgentMemoryState V) (added : Option (TranscriptItem V)) : Prop
    extends Inherits state next where
  anchored : next.transcript.Anchored
  entries : ∀ item ∈ next.transcript.entries, item ∈ entriesOf state ∨ item ∈ added
  roots : ∀ item ∈ added, item.parentId = none → item.isDelegationResult = false
  occupied : next.run.isSome ∨ next.interruptedTurn → next.transcript.items ≠ []

namespace Inherits

variable {state next : AgentMemoryState V}

theorem of_none (noRun : next.run = none) : Inherits state next where
  baselines run isOpen := absurd (noRun ▸ isOpen) (not_mem_none run)
  interrupted isOpen := by simp [noRun] at isOpen

theorem of_run_eq (same : next.run = state.run)
    (interrupted : next.interruptedTurn → state.interruptedTurn) : Inherits state next where
  baselines run isOpen := .inr ⟨run, same ▸ isOpen, rfl⟩
  interrupted _ := interrupted

theorem of_opened {runId : String} (opened : next.run = some ⟨runId, state.transcript, false⟩)
    (interrupted : next.interruptedTurn → state.interruptedTurn) : Inherits state next where
  baselines run isOpen := by
    cases opened ▸ isOpen
    exact .inl rfl
  interrupted _ := interrupted

end Inherits

namespace Derives

variable {state next : AgentMemoryState V} {added : Option (TranscriptItem V)}

theorem entriesOf_next (derives : Derives state next added) :
    ∀ item ∈ entriesOf next, item ∈ entriesOf state ∨ item ∈ added := by
  intro item mem
  rcases mem_entriesOf_iff.mp mem with current | ⟨run, isOpen, inBaseline⟩
  · exact derives.entries item current
  · left
    rw [mem_entriesOf_iff]
    rcases derives.baselines run isOpen with same | ⟨before, wasOpen, same⟩
    · exact .inl (same ▸ inBaseline)
    · exact .inr ⟨before, wasOpen, same ▸ inBaseline⟩

theorem storable (derives : Derives state next added) (before : Storable state)
    (fresh : ∀ item ∈ added, item.id ∉ (entriesOf state).map TranscriptItem.id) :
    Storable next where
  anchored := derives.anchored
  baselines run isOpen := by
    rcases derives.baselines run isOpen with same | ⟨earlier, wasOpen, same⟩
    · exact same ▸ before.anchored
    · exact same ▸ before.baselines earlier wasOpen
  agree item mem other otherMem sameId := by
    rcases derives.entriesOf_next item mem with old | new
    · rcases derives.entriesOf_next other otherMem with otherOld | otherNew
      · exact before.agree item old other otherOld sameId
      · exact absurd (sameId ▸ mem_map_of_mem old) (fresh other otherNew)
    · rcases derives.entriesOf_next other otherMem with otherOld | otherNew
      · exact absurd (sameId ▸ mem_map_of_mem otherOld) (fresh item new)
      · exact mem_unique new otherNew
  roots item mem root := by
    rcases derives.entriesOf_next item mem with old | new
    · exact before.roots item old root
    · exact derives.roots item new root
  occupied := derives.occupied
  returns isInterrupted run isOpen := by
    have was := derives.interrupted (isSome_of_mem isOpen) isInterrupted
    rcases derives.baselines run isOpen with same | ⟨earlier, wasOpen, same⟩
    · exact same ▸ before.occupied (.inr was)
    · exact same ▸ before.returns was earlier wasOpen

end Derives

namespace Storable

variable {state next : AgentMemoryState V}

/-- The transcript stays, or is the one a run rolls back to. -/
theorem derives_none (storable : Storable state)
    (transcript : next.transcript = state.transcript ∨
      ∃ run ∈ state.run, next.transcript = run.baselineTranscript)
    (occupied : next.run.isSome ∨ next.interruptedTurn → next.transcript.items ≠ [])
    (inherits : Inherits state next) :
    Derives state next none where
  anchored := by
    rcases transcript with same | ⟨run, isOpen, same⟩
    · exact same ▸ storable.anchored
    · exact same ▸ storable.baselines run isOpen
  entries item mem := by
    left
    rw [mem_entriesOf_iff]
    rcases transcript with same | ⟨run, isOpen, same⟩
    · exact .inl (same ▸ mem)
    · exact .inr ⟨run, isOpen, same ▸ mem⟩
  roots item mem := absurd mem (not_mem_none item)
  occupied := occupied
  toInherits := inherits

/-- An entry is pushed; the first one is no delegation result. -/
theorem derives_push (storable : Storable state) {item : TranscriptItem V}
    (transcript : next.transcript = state.transcript.push item)
    (first : state.transcript.items = [] → item.isDelegationResult = false)
    (inherits : Inherits state next) :
    Derives state next (some { item with parentId := state.transcript.leaf }) where
  anchored := transcript ▸ storable.anchored.push item
  entries other mem := by
    rw [transcript, (AgentTranscript.entries_push_perm _ _).mem_iff, mem_cons] at mem
    rcases mem with rfl | old
    · exact .inr rfl
    · exact .inl (mem_entriesOf_iff.mpr (.inl old))
  roots := by
    rintro other ⟨⟩ root
    apply first
    simpa [AgentTranscript.leaf] using root
  occupied _ := by
    rw [transcript]
    exact append_ne_nil_of_right_ne_nil _ (cons_ne_nil _ _)
  toInherits := inherits

variable {id : EntryId}

theorem derives_message (storable : Storable state) {message : Message V}
    (transcript : next.transcript = state.transcript.push (TranscriptItem.ofMessage id message))
    (inherits : Inherits state next) :
    ∃ added, Derives state next added ∧ ∀ item ∈ added, item.id ∈ [id] := by
  refine ⟨_, storable.derives_push transcript ?_ inherits, ?_⟩
  · exact fun _ => TranscriptItem.ofMessage_isDelegationResult id message
  · rintro item ⟨⟩
    exact mem_singleton.mpr (TranscriptItem.ofMessage_id id message)

theorem derives_closed (storable : Storable state) (noRun : next.run = none)
    (transcript : (next.transcript = state.transcript ∨
        ∃ run ∈ state.run, next.transcript = run.baselineTranscript) ∨
      ∃ message, next.transcript = state.transcript.push (TranscriptItem.ofMessage id message))
    (occupied : next.interruptedTurn → next.transcript.items ≠ []) :
    ∃ added, Derives state next added ∧ ∀ item ∈ added, item.id ∈ [id] := by
  rcases transcript with kept | ⟨message, pushed⟩
  · refine ⟨none, storable.derives_none kept ?_ (.of_none noRun),
      fun item mem => absurd mem (not_mem_none item)⟩
    simpa [noRun] using occupied
  · exact storable.derives_message pushed (.of_none noRun)

theorem closeInterruptedTurn_items {unresolved : List String}
    (occupied : unresolved = [] → state.transcript.items ≠ []) :
    (AgentMemory.closeInterruptedTurn state unresolved id).transcript.items ≠ [] := by
  rw [AgentMemory.closeInterruptedTurn]
  split
  · exact append_ne_nil_of_right_ne_nil _ (cons_ne_nil _ _)
  · rename_i nothing
    apply occupied
    simpa [closingMessage] using nothing

variable {memory : AgentMemory V}

/-- A turn that recovery leaves to be continued has entries. -/
theorem recover_items (storable : Storable memory.state) (id : EntryId)
    (isInterrupted : (memory.recover id).1.state.interruptedTurn) :
    (memory.recover id).1.state.transcript.items ≠ [] := by
  unfold AgentMemory.recover at isInterrupted ⊢
  split at isInterrupted
  · -- No run was open: calls that nobody answered are closed.
    cases turn : TurnState.of memory.historyCache with
    | finished =>
      simp only [turn] at isInterrupted
      exact storable.occupied (.inr isInterrupted)
    | interrupted unresolved =>
      simp only [turn] at isInterrupted
      dsimp only
      split
      · rename_i nothing
        simp only [nothing, if_true] at isInterrupted
        exact storable.occupied (.inr isInterrupted)
      · rename_i something
        exact closeInterruptedTurn_items fun none => absurd (by simp [none]) something
  · rename_i run isOpen
    have occupied := storable.occupied (.inl (by simp [isOpen]))
    cases committed : run.assistantCommitted with
    | false =>
      simp only [committed, Bool.false_eq_true, if_false] at isInterrupted
      exact storable.returns isInterrupted run isOpen
    | true =>
      cases turn : TurnState.of memory.historyCache with
      | finished => exact occupied
      | interrupted unresolved => exact closeInterruptedTurn_items fun _ => occupied

theorem derives_recover (storable : Storable memory.state) (id : EntryId) :
    ∃ added, Derives memory.state (memory.recover id).1.state added ∧
      ∀ item ∈ added, item.id ∈ [id] := by
  have occupied := storable.recover_items id
  rcases AgentMemory.recover_cases memory id with
    ⟨run, isOpen, -, noRun, back⟩ | ⟨-, noRun, -, same | pushed⟩
  · exact storable.derives_closed noRun (.inl (.inr ⟨run, isOpen, back⟩)) occupied
  · exact storable.derives_closed noRun (.inl (.inl same)) occupied
  · exact storable.derives_closed noRun (.inr pushed) occupied

theorem derives_rollback (storable : Storable memory.state) :
    Derives memory.state memory.rollbackFailedRun.state none := by
  unfold AgentMemory.rollbackFailedRun
  split
  · rename_i run isOpen
    refine storable.derives_none (.inr ⟨run, isOpen, rfl⟩) ?_ (.of_none rfl)
    rintro (isOpen | isInterrupted)
    · cases isOpen
    · exact storable.returns isInterrupted run isOpen
  · exact storable.derives_none (.inl rfl) storable.occupied (.of_run_eq rfl id)

theorem derives_branch (storable : Storable state) {left : Nat} {transcript : AgentTranscript V}
    (branched : state.transcript.branchFrom id = .ok (left, transcript)) :
    Derives state
      (AgentMemory.synchronize { state with transcript, interruptedTurn := false }).state none := by
  have current : ∀ item ∈ state.transcript.entries, item ∈ entriesOf state :=
    fun item mem => mem_entriesOf_iff.mpr (.inl mem)
  obtain ⟨entries, anchored, occupied⟩ := AgentTranscript.branchFrom_anchored branched
    storable.anchored fun item mem other otherMem =>
      storable.agree item (current item mem) other (current other otherMem)
  exact
    { anchored
      entries := fun item mem => .inl (current item (entries item mem))
      roots := fun item mem => absurd mem (not_mem_none item)
      occupied := fun _ => occupied
      toInherits := .of_run_eq rfl nofun }

variable [DecidableEq V]

theorem derives_compact (storable : Storable state) {engine : CompactionEnv V}
    {userTokens delegationResults : Nat} {mode : CompactionMode} {outcome : CompactionOutcome V}
    (compacted : Compaction.compact engine
      ⟨state.transcript, userTokens, delegationResults, mode⟩ = .ok (some outcome)) :
    ∃ added, Derives state
        (AgentMemory.synchronize { state with transcript := outcome.transcript }).state added ∧
      ∀ item ∈ added, item.id ∈ [engine.summaryId] := by
  have current : ∀ item ∈ state.transcript.entries, item ∈ entriesOf state :=
    fun item mem => mem_entriesOf_iff.mpr (.inl mem)
  have roots : ∀ item ∈ state.transcript.items, item.parentId = none →
      item.isDelegationResult = false :=
    fun item mem => storable.roots item (current item (mem_append_left _ mem))
  obtain ⟨anchored, occupied, entries⟩ :=
    Compaction.compact_anchored storable.anchored roots compacted
  refine ⟨some (Compaction.summaryEntry engine
      ⟨state.transcript, userTokens, delegationResults, mode⟩ outcome.summary),
    { anchored, entries := ?_, roots := ?_, occupied := fun _ => occupied,
      toInherits := .of_run_eq rfl id }, ?_⟩
  · intro item mem
    rcases entries item mem with old | new
    · exact .inl (current item old)
    · exact .inr (congrArg some new.symm)
  · rintro item ⟨⟩ _
    rfl
  · rintro item ⟨⟩
    exact mem_singleton.mpr rfl

end Storable

/-! ## Every operation -/

open AgentMemory in
theorem derives_of_step {memory next : AgentMemory V} {action : Action V}
    (storable : Storable memory.state) (permitted : (Operation.journal action).permitted memory)
    (stepped : memory.step action = some next) :
    ∃ added, Derives memory.state next.state added ∧
      ∀ item ∈ added, item.id ∈ (Operation.journal action).drawn := by
  have nothing : ∀ item ∈ (none : Option (TranscriptItem V)),
      item.id ∈ (Operation.journal action).drawn :=
    fun item mem => absurd mem (not_mem_none item)
  have same (transcript : next.state.transcript = memory.state.transcript)
      (run : next.state.run = memory.state.run)
      (interrupted : next.state.interruptedTurn = memory.state.interruptedTurn) :
      Derives memory.state next.state none := by
    refine storable.derives_none (.inl transcript) ?_ (.of_run_eq run (interrupted ▸ id))
    rw [transcript, run, interrupted]
    exact storable.occupied
  cases action with
  | beginRun runId message id =>
    simp only [step] at stepped
    split at stepped
    · cases stepped
    · cases stepped
      exact storable.derives_message rfl (.of_opened rfl fun was => was)
  | beginContinuation runId =>
    cases stepped
    have occupied := storable.occupied (.inr permitted)
    exact ⟨none, storable.derives_none (.inl rfl) (fun _ => occupied) (.of_opened rfl id), nothing⟩
  | appendMessage message id =>
    simp only [step] at stepped
    split at stepped
    · cases stepped
    · cases stepped
      exact storable.derives_message rfl (.of_run_eq rfl fun was => was)
  | appendItem item =>
    simp only [step] at stepped
    split at stepped
    · cases stepped
    · cases stepped
      have occupied := storable.occupied (.inl permitted)
      refine ⟨_, storable.derives_push rfl (fun empty => absurd empty occupied)
        (.of_run_eq rfl id), ?_⟩
      rintro other ⟨⟩
      exact mem_singleton.mpr rfl
  | commitAssistantMessage message id =>
    simp only [step] at stepped
    split at stepped
    · cases stepped
    · cases stepped
      refine storable.derives_message rfl ⟨?_, fun _ was => was⟩
      intro run isOpen
      obtain ⟨before, wasOpen, rfl⟩ := map_eq_some_iff.mp isOpen
      exact .inr ⟨before, wasOpen, rfl⟩
  | updatePendingTurn pending | clearPendingTurn =>
    cases stepped
    exact ⟨none, same rfl rfl rfl, nothing⟩
  | branchFrom id =>
    simp only [step, AgentMemory.branchFrom] at stepped
    cases branched : memory.state.transcript.branchFrom id with
    | error fault =>
      rw [branched] at stepped
      cases stepped
    | ok result =>
      obtain ⟨left, transcript⟩ := result
      rw [branched] at stepped
      cases stepped
      exact ⟨none, storable.derives_branch branched, nothing⟩
  | rollbackFailedRun =>
    cases stepped
    exact ⟨none, storable.derives_rollback, nothing⟩
  | finishRun =>
    cases stepped
    refine ⟨none, storable.derives_none (.inl rfl) ?_ (.of_none rfl), nothing⟩
    rintro (isOpen | isInterrupted)
    · cases isOpen
    · cases isInterrupted
  | recover id =>
    simp only [step] at stepped
    split at stepped
    · cases stepped
    · cases stepped
      exact storable.derives_recover id

theorem storable_initial : Storable (AgentMemory.initial : AgentMemory V).state where
  anchored _ mem := absurd mem not_mem_nil
  baselines run mem := absurd mem (not_mem_none run)
  agree item mem := absurd mem not_mem_nil
  roots item mem := absurd mem not_mem_nil
  occupied := by
    rintro (isOpen | isInterrupted)
    · cases isOpen
    · cases isInterrupted
  returns isInterrupted := by cases isInterrupted

variable [DecidableEq V]

/-- An operation keeps a memory storable, and its new entry has the id drawn for
it. -/
theorem Operation.storable_apply {memory next : AgentMemory V} {operation : Operation V}
    (storable : Storable memory.state)
    (fresh : ∀ id ∈ operation.drawn, id ∉ (entriesOf memory.state).map TranscriptItem.id)
    (applied : operation.apply memory = some next) :
    Storable next.state ∧
      ∀ item ∈ entriesOf next.state, item ∈ entriesOf memory.state ∨ item.id ∈ operation.drawn := by
  have derived : ∃ added, Derives memory.state next.state added ∧
      ∀ item ∈ added, item.id ∈ operation.drawn := by
    unfold Operation.apply at applied
    split at applied
    · rename_i permitted
      cases operation with
      | keep =>
        cases applied
        exact ⟨none, storable.derives_none (.inl rfl) storable.occupied (.of_run_eq rfl id),
          fun item mem => absurd mem (not_mem_none item)⟩
      | journal action => exact derives_of_step storable permitted applied
      | compact engine userTokens delegationResults mode =>
        dsimp only at applied
        split at applied
        · rename_i outcome compacted
          rw [AgentMemory.tryApplyCompaction, if_pos rfl] at applied
          cases applied
          exact storable.derives_compact compacted
        · cases applied
    · cases applied
  obtain ⟨added, derives, ids⟩ := derived
  refine ⟨derives.storable storable fun item mem => fresh item.id (ids item mem), ?_⟩
  intro item mem
  rcases derives.entriesOf_next item mem with old | new
  · exact .inl old
  · exact .inr (ids item new)

end Mentra.FileStore

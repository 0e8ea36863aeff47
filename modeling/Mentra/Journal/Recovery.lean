import Mentra.Journal.Core

/-!
# Recovery after a crash

Every journal operation keeps the transcript a well-formed tree that contains the entries of
the open run's baseline.  Recovery settles on the baseline, when the open run committed
nothing, and otherwise on the current history, whose unanswered calls it closes.  It never
closes calls the baseline left unanswered.
-/

namespace Mentra

open Mentra.Foundation AgentTranscript List Option Transition

variable {V : Type}

/-! ## The last turn of a history -/

/-- The calls of the last assistant message. -/
def lastCalls (history : List (Message V)) : List String :=
  match lastTurn history with
  | some (assistant, _) => assistant.toolUseIds
  | none => []

/-- The ids answered by results after the last assistant message. -/
def resultsAfter (history : List (Message V)) : List String :=
  match lastTurn history with
  | some (_, after) => after.flatMap Message.toolResultIds
  | none => []

/-- The calls of the last assistant message that have no result, in call
order. -/
def missingCalls (history : List (Message V)) : List String :=
  (lastCalls history).filter (· ∉ resultsAfter history)

variable (history : List (Message V))

theorem lastTurn_concat {message : Message V} (other : message.role ≠ .assistant) :
    lastTurn (history ++ [message]) =
      (lastTurn history).map fun turn => (turn.1, turn.2 ++ [message]) := by
  induction history with
  | nil => simp [lastTurn, other]
  | cons first history ih =>
    rw [cons_append, lastTurn, lastTurn, ih]
    cases lastTurn history with
    | some turn => rfl
    | none =>
      simp only [map_none]
      split <;> rfl

/-- What the classification calls unresolved are the missing calls. -/
theorem turnState_unresolved {history : List (Message V)} {unresolved : List String}
    (interrupted : TurnState.of history = .interrupted unresolved) :
    unresolved = missingCalls history := by
  unfold TurnState.of at interrupted
  unfold missingCalls lastCalls resultsAfter
  cases turn : lastTurn history with
  | none =>
    simp only [turn, TurnState.interrupted.injEq] at interrupted
    exact interrupted.symm
  | some parts =>
    simp only [turn] at interrupted
    split at interrupted
    · cases interrupted
    · cases interrupted
      rfl

theorem turnState_finished {history : List (Message V)}
    (finished : TurnState.of history = .finished) : missingCalls history = [] := by
  unfold TurnState.of at finished
  unfold missingCalls lastCalls resultsAfter
  cases turn : lastTurn history with
  | none => simp [turn] at finished
  | some parts =>
    simp only [turn] at finished
    split at finished
    · rename_i done
      rw [Bool.and_eq_true, List.isEmpty_iff] at done
      exact done.1
    · cases finished

/-! ## Closing -/

/-- A history with its missing calls closed by error results. -/
def closeMissing (history : List (Message V)) : List (Message V) :=
  history ++ (closingMessage (missingCalls history)).toList

theorem closeMissing_eq_self {history : List (Message V)} (none : missingCalls history = []) :
    closeMissing history = history := by
  simp [closeMissing, closingMessage, none]

/-- A closing message answers exactly the calls it closes. -/
theorem closingMessage_eq_some {unresolved : List String} (nonempty : unresolved ≠ []) :
    ∃ message : Message V, closingMessage unresolved = some message ∧ message.role = .user ∧
      message.toolResultIds = unresolved := by
  refine ⟨_, by rw [closingMessage, if_neg (by simpa using nonempty)], rfl, ?_⟩
  rw [Message.toolResultIds, filterMap_map]
  exact filterMap_some

theorem lastCalls_closeMissing : lastCalls (closeMissing history) = lastCalls history := by
  by_cases none : missingCalls history = []
  · rw [closeMissing_eq_self none]
  · obtain ⟨message, closing, role, -⟩ := closingMessage_eq_some (V := V) none
    rw [lastCalls, closeMissing, closing, toList_some,
      lastTurn_concat history (by simp [role]), lastCalls]
    cases lastTurn history <;> rfl

/-- Closing adds one result for each missing call. -/
theorem resultsAfter_closeMissing :
    resultsAfter (closeMissing history) = resultsAfter history ++ missingCalls history := by
  by_cases none : missingCalls history = []
  · rw [closeMissing_eq_self none, none, append_nil]
  · obtain ⟨message, closing, role, answers⟩ := closingMessage_eq_some (V := V) none
    have grown : lastTurn (closeMissing history) =
        (lastTurn history).map fun turn => (turn.1, turn.2 ++ [message]) := by
      rw [closeMissing, closing, toList_some]
      exact lastTurn_concat history (by simp [role])
    rw [resultsAfter, grown, resultsAfter]
    cases turn : lastTurn history with
    | none => exact absurd (by simp [missingCalls, lastCalls, turn]) none
    | some parts => simp [answers]

theorem missingCalls_closeMissing : missingCalls (closeMissing history) = [] := by
  rw [missingCalls, lastCalls_closeMissing, resultsAfter_closeMissing, filter_eq_nil_iff]
  intro id mem
  by_cases answered : id ∈ resultsAfter history
  · simp [answered]
  · have missing : id ∈ missingCalls history := by simp [missingCalls, mem, answered]
    simp [missing]

/-- Every call of the last assistant message has exactly one result. -/
def AnsweredOnce (history : List (Message V)) : Prop :=
  ∀ id ∈ lastCalls history, (resultsAfter history).count id = 1

theorem missingCalls_eq_nil {history : List (Message V)} (once : AnsweredOnce history) :
    missingCalls history = [] := by
  rw [missingCalls, filter_eq_nil_iff]
  intro id mem
  have answered : id ∈ resultsAfter history := by
    rw [← count_pos_iff, once id mem]
    exact Nat.one_pos
  simp [answered]

/-- Closing answers every call once exactly when each call had one result, or
had none and occurs once. -/
theorem answeredOnce_closeMissing_iff :
    AnsweredOnce (closeMissing history) ↔
      ∀ id ∈ lastCalls history, (resultsAfter history).count id = 1 ∨
        ((resultsAfter history).count id = 0 ∧ (lastCalls history).count id = 1) := by
  rw [AnsweredOnce, lastCalls_closeMissing, resultsAfter_closeMissing]
  refine forall₂_congr fun id mem => ?_
  rw [count_append]
  by_cases answered : id ∈ resultsAfter history
  · have closed : (missingCalls history).count id = 0 := by
      rw [count_eq_zero]
      simp [missingCalls, answered]
    have positive := count_pos_iff.mpr answered
    omega
  · have closed : (missingCalls history).count id = (lastCalls history).count id := by
      rw [missingCalls, count_filter (by simpa using answered)]
    have none := count_eq_zero.mpr answered
    omega

/-! ## What recovery does -/

namespace AgentMemory

variable (memory : AgentMemory V)

/-- Recovery drops what the open run did: it had committed nothing. -/
def RollsBack : Prop :=
  ∃ run, memory.state.run = some run ∧ run.assistantCommitted = false

/-- The history recovery settles on, before calls are closed. -/
def settledHistory : List (Message V) :=
  match memory.state.run with
  | some run =>
    if run.assistantCommitted then memory.state.transcript.toMessages
    else run.baselineTranscript.toMessages
  | none => memory.state.transcript.toMessages

variable (state : AgentMemoryState V)

@[simp]
theorem synchronize_history : (synchronize state).historyCache = state.transcript.toMessages :=
  rfl

@[simp]
theorem synchronize_transcript : (synchronize state).state.transcript = state.transcript :=
  rfl

@[simp]
theorem synchronize_run : (synchronize state).state.run = state.run :=
  rfl

/-- Closing the missing calls of a state's own history. -/
theorem closeInterruptedTurn_toMessages (id : EntryId) :
    (closeInterruptedTurn state (missingCalls state.transcript.toMessages) id).transcript.toMessages
      = closeMissing state.transcript.toMessages := by
  unfold closeInterruptedTurn closeMissing
  cases closingMessage (V := V) (missingCalls state.transcript.toMessages) with
  | none => simp
  | some message => simp [toMessages_push]

/-- Closing leaves the transcript or pushes one entry. -/
theorem closeInterruptedTurn_transcript (unresolved : List String) (id : EntryId) :
    (closeInterruptedTurn state unresolved id).transcript = state.transcript ∨
      ∃ message, (closeInterruptedTurn state unresolved id).transcript =
        state.transcript.push (TranscriptItem.ofMessage id message) := by
  unfold closeInterruptedTurn
  split
  · exact .inr ⟨_, rfl⟩
  · exact .inl rfl

@[simp]
theorem closeInterruptedTurn_run (unresolved : List String)
    (id : EntryId) : (closeInterruptedTurn state unresolved id).run = state.run := by
  unfold closeInterruptedTurn
  split <;> rfl

/-- Recovery leaves the baseline of a run that committed nothing, or the current transcript with
its missing calls closed. -/
theorem recover_cases (id : EntryId) :
    (∃ run, memory.state.run = some run ∧ run.assistantCommitted = false ∧
        (memory.recover id).1.state.run = none ∧
        (memory.recover id).1.state.transcript = run.baselineTranscript) ∨
      (¬ memory.RollsBack ∧ (memory.recover id).1.state.run = none ∧
        (memory.recover id).1.historyCache = closeMissing memory.historyCache ∧
        ((memory.recover id).1.state.transcript = memory.state.transcript ∨
          ∃ message, (memory.recover id).1.state.transcript =
            memory.state.transcript.push (TranscriptItem.ofMessage id message))) := by
  have cached := memory.synced
  cases open_ : memory.state.run with
  | none =>
    refine .inr ⟨by simp [RollsBack, open_], ?_⟩
    unfold recover
    simp only [open_]
    cases turn : TurnState.of memory.historyCache with
    | finished =>
      refine ⟨open_, ?_, .inl rfl⟩
      exact (closeMissing_eq_self (turnState_finished turn)).symm
    | interrupted unresolved =>
      have missing := turnState_unresolved turn
      simp only
      split
      · rename_i empty
        rw [List.isEmpty_iff] at empty
        refine ⟨open_, ?_, .inl rfl⟩
        exact (closeMissing_eq_self (missing ▸ empty)).symm
      · refine ⟨by simp [open_], ?_, closeInterruptedTurn_transcript _ _ _⟩
        rw [synchronize_history, missing, cached, closeInterruptedTurn_toMessages]
  | some run =>
    cases committed : run.assistantCommitted with
    | false =>
      refine .inl ⟨run, rfl, committed, ?_⟩
      simp [recover, open_, committed]
    | true =>
      refine .inr ⟨by simp [RollsBack, open_, committed], ?_⟩
      unfold recover
      simp only [open_, committed, if_true]
      cases turn : TurnState.of memory.historyCache with
      | finished =>
        refine ⟨rfl, ?_, .inl rfl⟩
        rw [closeMissing_eq_self (turnState_finished turn), cached]
        rfl
      | interrupted unresolved =>
        have missing := turnState_unresolved turn
        refine ⟨by simp, ?_, closeInterruptedTurn_transcript _ _ _⟩
        rw [synchronize_history, missing, cached]
        exact closeInterruptedTurn_toMessages
          { memory.state with run := none, pendingTurn := none, resumableUserMessage := none }
          id

/-- With no open run and no missing call there is nothing to recover. -/
theorem recover_eq_self {memory : AgentMemory V} (closed : memory.state.run = none)
    (settled : missingCalls memory.historyCache = []) (id : EntryId) :
    (memory.recover id).1 = memory := by
  unfold recover
  simp only [closed]
  cases turn : TurnState.of memory.historyCache with
  | finished => rfl
  | interrupted unresolved =>
    have missing := turnState_unresolved turn
    simp [missing, settled]

/-- Two recoveries settle every journal: the first may fall back to a baseline that has
unanswered calls, the second closes them, and a third finds nothing to do. -/
theorem recover_settles_in_two (memory : AgentMemory V) (first second third : EntryId) :
    (((memory.recover first).1.recover second).1.recover third).1 =
      ((memory.recover first).1.recover second).1 := by
  have closed : (memory.recover first).1.state.run = none := by
    rcases recover_cases memory first with ⟨-, -, -, noRun, -⟩ | ⟨-, noRun, -⟩
    · exact noRun
    · exact noRun
  rcases recover_cases (memory.recover first).1 second with
    ⟨run, isOpen, -⟩ | ⟨-, noRun, answered, -⟩
  · rw [closed] at isOpen
    cases isOpen
  · apply recover_eq_self noRun
    rw [answered]
    exact missingCalls_closeMissing _

/-! ## Journals reached by any sequence of operations -/

/-- The operations a journal goes through.  Operations that add an entry carry
the id drawn for it. -/
inductive Action (V : Type)
  | beginRun (runId : String) (message : Message V) (id : EntryId)
  | beginContinuation (runId : String)
  | appendMessage (message : Message V) (id : EntryId)
  | appendItem (item : TranscriptItem V)
  | commitAssistantMessage (message : Message V) (id : EntryId)
  | updatePendingTurn (pending : PendingTurnState)
  | clearPendingTurn
  | branchFrom (id : EntryId)
  | rollbackFailedRun
  | finishRun
  | recover (id : EntryId)

/-- One operation; an entry's id is new to the transcript. -/
def step : Action V → Option (AgentMemory V)
  | .beginRun runId message id =>
    if id ∈ memory.state.transcript.ids then none else some (memory.beginRun runId message id)
  | .beginContinuation runId => some (memory.beginContinuation runId)
  | .appendMessage message id =>
    if id ∈ memory.state.transcript.ids then none else some (memory.appendMessage message id)
  | .appendItem item =>
    if item.id ∈ memory.state.transcript.ids then none else some (memory.appendTranscriptItem item)
  | .commitAssistantMessage message id =>
    if id ∈ memory.state.transcript.ids then none
    else some (memory.commitAssistantMessage message id)
  | .updatePendingTurn pending => some (memory.updatePendingTurn pending)
  | .clearPendingTurn => some memory.clearPendingTurn
  | .branchFrom id =>
    match memory.branchFrom id with
    | .ok (_, next) => some next
    | .error _ => none
  | .rollbackFailedRun => some memory.rollbackFailedRun
  | .finishRun => some memory.finishRun
  | .recover id =>
    if id ∈ memory.state.transcript.ids then none else some (memory.recover id).1

/-- A new agent's journal. -/
def initial : AgentMemory V :=
  AgentMemory.new {}

/-- The transcript and an open run's baseline are well-formed trees, and the transcript has
every entry of the baseline. -/
structure Sound (memory : AgentMemory V) : Prop where
  wellFormed : memory.state.transcript.WellFormed
  baseline : ∀ run, memory.state.run = some run → run.baselineTranscript.WellFormed ∧
    ∀ item ∈ run.baselineTranscript.entries, item ∈ memory.state.transcript.entries

theorem mem_entries_push {transcript : AgentTranscript V} {item : TranscriptItem V}
    (mem : item ∈ transcript.entries) (pushed : TranscriptItem V) :
    item ∈ (transcript.push pushed).entries :=
  (entries_push_perm transcript pushed).mem_iff.mpr (mem_cons_of_mem _ mem)

namespace Sound

variable {memory next : AgentMemory V}

/-- Growing the tree under the same baselines keeps soundness. -/
theorem grow (sound : Sound memory) (wellFormed : next.state.transcript.WellFormed)
    (grown : ∀ item ∈ memory.state.transcript.entries, item ∈ next.state.transcript.entries)
    (baselines : ∀ run, next.state.run = some run → ∃ before, memory.state.run = some before ∧
      before.baselineTranscript = run.baselineTranscript) : Sound next := by
  refine ⟨wellFormed, ?_⟩
  intro run isOpen
  obtain ⟨before, wasOpen, same⟩ := baselines run isOpen
  obtain ⟨baselineWellFormed, kept⟩ := sound.baseline before wasOpen
  rw [same] at baselineWellFormed kept
  exact ⟨baselineWellFormed, fun item mem => grown item (kept item mem)⟩

theorem opened (sound : Sound memory) (wellFormed : next.state.transcript.WellFormed)
    (grown : ∀ item ∈ memory.state.transcript.entries, item ∈ next.state.transcript.entries)
    (baselines : ∀ run, next.state.run = some run →
      run.baselineTranscript = memory.state.transcript) : Sound next := by
  refine ⟨wellFormed, ?_⟩
  intro run isOpen
  rw [baselines run isOpen]
  exact ⟨sound.wellFormed, grown⟩

theorem push (sound : Sound memory) {item : TranscriptItem V}
    (fresh : item.id ∉ memory.state.transcript.ids)
    (pushed : next.state.transcript = memory.state.transcript.push item)
    (baselines : ∀ run, next.state.run = some run → ∃ before, memory.state.run = some before ∧
      before.baselineTranscript = run.baselineTranscript) : Sound next := by
  refine sound.grow ?_ ?_ baselines
  · rw [pushed]
    exact sound.wellFormed.push fresh
  · intro other mem
    rw [pushed]
    exact mem_entries_push mem item

theorem closed (wellFormed : next.state.transcript.WellFormed) (noRun : next.state.run = none) :
    Sound next := by
  refine ⟨wellFormed, ?_⟩
  intro run isOpen
  rw [noRun] at isOpen
  cases isOpen

theorem recover (sound : Sound memory) {id : EntryId}
    (fresh : id ∉ memory.state.transcript.ids) : Sound (memory.recover id).1 := by
  rcases recover_cases memory id with
    ⟨run, isOpen, -, noRun, transcript⟩ | ⟨-, noRun, -, same | ⟨message, pushed⟩⟩
  · exact closed (transcript ▸ (sound.baseline run isOpen).1) noRun
  · exact closed (same ▸ sound.wellFormed) noRun
  · refine closed ?_ noRun
    rw [pushed]
    exact sound.wellFormed.push (by simpa using fresh)

end Sound

theorem step_sound (action : Action V) (next : AgentMemory V)
    (sound : Sound memory) (stepped : memory.step action = some next) : Sound next := by
  cases action with
  | beginRun runId message id =>
    simp only [step] at stepped
    split at stepped
    · cases stepped
    · rename_i fresh
      cases stepped
      refine sound.opened ?_ ?_ ?_
      · exact sound.wellFormed.push (by simpa using fresh)
      · exact fun item mem => mem_entries_push mem _
      · rintro run ⟨⟩
        rfl
  | beginContinuation runId =>
    cases stepped
    refine sound.opened sound.wellFormed (fun item mem => mem) ?_
    rintro run ⟨⟩
    rfl
  | appendMessage message id =>
    simp only [step] at stepped
    split at stepped
    · cases stepped
    · rename_i fresh
      cases stepped
      have freshItem : (TranscriptItem.ofMessage id message).id ∉ memory.state.transcript.ids := by
        simpa using fresh
      exact sound.push freshItem rfl fun run isOpen => ⟨run, isOpen, rfl⟩
  | appendItem item =>
    simp only [step] at stepped
    split at stepped
    · cases stepped
    · rename_i fresh
      cases stepped
      exact sound.push fresh rfl fun run isOpen => ⟨run, isOpen, rfl⟩
  | commitAssistantMessage message id =>
    simp only [step] at stepped
    split at stepped
    · cases stepped
    · rename_i fresh
      cases stepped
      have freshItem : (TranscriptItem.ofMessage id message).id ∉ memory.state.transcript.ids := by
        simpa using fresh
      refine sound.push freshItem rfl ?_
      intro run isOpen
      obtain ⟨before, wasOpen, rfl⟩ := map_eq_some_iff.mp isOpen
      exact ⟨before, wasOpen, rfl⟩
  | updatePendingTurn pending | clearPendingTurn =>
    cases stepped
    exact ⟨sound.wellFormed, sound.baseline⟩
  | branchFrom id =>
    simp only [step, AgentMemory.branchFrom] at stepped
    cases result : memory.state.transcript.branchFrom id with
    | error fault => simp [result] at stepped
    | ok branched =>
      obtain ⟨left, after⟩ := branched
      simp only [result, Option.some.injEq] at stepped
      subst stepped
      obtain ⟨item, -, -, moved⟩ := branchFrom_eq_ok sound.wellFormed result
      refine sound.grow (sound.wellFormed.branched moved) ?_ ?_
      · exact fun other mem => moved.perm.mem_iff.mpr mem
      · exact fun run isOpen => ⟨run, isOpen, rfl⟩
  | rollbackFailedRun =>
    cases stepped
    unfold rollbackFailedRun
    split
    · rename_i run isOpen
      exact .closed (sound.baseline run isOpen).1 rfl
    · rename_i noRun
      exact .closed sound.wellFormed noRun
  | finishRun =>
    cases stepped
    exact .closed sound.wellFormed rfl
  | recover id =>
    simp only [step] at stepped
    split at stepped
    · cases stepped
    · rename_i fresh
      cases stepped
      exact sound.recover fresh

theorem sound_initial : Sound (initial : AgentMemory V) :=
  .closed wellFormed_empty rfl

theorem sound_of_reachable {memory : AgentMemory V}
    (reachable : Reachable step initial memory) : Sound memory :=
  reachable.invariant step_sound sound_initial

/-! ## When a recovered journal is settled -/

/-- No open run, the missing calls of the settled history closed in call order, every call of
the last assistant message answered once, and every entry from before the open run still there. -/
structure Settled (memory recovered : AgentMemory V) : Prop where
  noRun : recovered.state.run = none
  closed : recovered.historyCache = closeMissing memory.settledHistory
  once : AnsweredOnce recovered.historyCache
  kept : ∀ run, memory.state.run = some run → ∀ item ∈ run.baselineTranscript.entries,
    item ∈ recovered.state.transcript.entries

/-- Recovery settles a journal for good exactly when each call of the last assistant message of
the history it settles on has one result, or has none, occurs once and is not in a baseline
rolled back to. -/
theorem reachable_recover_settled_iff {memory : AgentMemory V}
    (reachable : Reachable step initial memory) (id again : EntryId) :
    (Settled memory (memory.recover id).1 ∧
        ((memory.recover id).1.recover again).1.state.transcript =
          (memory.recover id).1.state.transcript) ↔
      ∀ call ∈ lastCalls memory.settledHistory,
        (resultsAfter memory.settledHistory).count call = 1 ∨
          ((resultsAfter memory.settledHistory).count call = 0 ∧
            (lastCalls memory.settledHistory).count call = 1 ∧ ¬ memory.RollsBack) := by
  have sound := sound_of_reachable reachable
  rcases recover_cases memory id with
    ⟨run, isOpen, uncommitted, noRun, transcript⟩ | ⟨stays, noRun, closed, grown⟩
  · have rollsBack : memory.RollsBack := ⟨run, isOpen, uncommitted⟩
    have settled : (memory.recover id).1.historyCache = memory.settledHistory := by
      rw [(memory.recover id).1.synced, transcript, settledHistory, isOpen]
      simp [uncommitted]
    simp only [rollsBack, not_true_eq_false, and_false, or_false]
    constructor
    · rintro ⟨recovered, -⟩
      exact settled ▸ recovered.once
    · intro once
      have nothing := missingCalls_eq_nil once
      refine ⟨⟨noRun, ?_, settled ▸ once, ?_⟩, ?_⟩
      · rw [settled, closeMissing_eq_self nothing]
      · intro other otherOpen item mem
        rw [isOpen, Option.some.injEq] at otherOpen
        rw [transcript, otherOpen]
        exact mem
      · rw [recover_eq_self noRun (settled ▸ nothing)]
  · have settled : memory.historyCache = memory.settledHistory := by
      rw [memory.synced, settledHistory]
      cases isOpen : memory.state.run with
      | none => rfl
      | some run =>
        cases committed : run.assistantCommitted with
        | true => simp [committed]
        | false => exact absurd ⟨run, isOpen, committed⟩ stays
    rw [settled] at closed
    simp only [stays, not_false_eq_true, and_true]
    rw [← answeredOnce_closeMissing_iff, ← closed]
    constructor
    · exact fun both => both.1.once
    · intro once
      refine ⟨⟨noRun, closed, once, ?_⟩, ?_⟩
      · intro run isOpen item mem
        have kept := (sound.baseline run isOpen).2 item mem
        rcases grown with same | ⟨message, pushed⟩
        · exact same ▸ kept
        · exact pushed ▸ mem_entries_push kept _
      · rw [recover_eq_self noRun (closed ▸ missingCalls_closeMissing _)]

/-- A turn with one call, answered and finished. -/
def answeredTurn : List (Action Unit) :=
  [.beginRun "first" (Message.user (.text "go")) ⟨"ask"⟩,
    .commitAssistantMessage (Message.assistant (.toolUse "A" "read" ())) ⟨"call"⟩,
    .appendMessage (Message.user (.toolResult "A" (.text "done") false)) ⟨"result"⟩,
    .commitAssistantMessage (Message.assistant (.text "ok")) ⟨"reply"⟩,
    .finishRun]

/-- A run opened on an unanswered call: a crash before the model answers leaves it unanswered,
and recovering again changes the transcript. -/
theorem branched_recover_not_settled :
    ∃ memory : AgentMemory Unit,
      run step initial (answeredTurn ++
        [.branchFrom ⟨"call"⟩, .beginRun "second" (Message.user (.text "again")) ⟨"again"⟩]) =
          some memory ∧
      ¬ AnsweredOnce (memory.recover ⟨"closing"⟩).1.historyCache ∧
      ((memory.recover ⟨"closing"⟩).1.recover ⟨"later"⟩).1.state.transcript ≠
        (memory.recover ⟨"closing"⟩).1.state.transcript := by
  refine ⟨_, rfl, ?_, by decide⟩
  intro once
  have count := once "A" (by decide)
  exact absurd count (by decide)

/-- A crash with the call running: it is closed as interrupted. -/
theorem running_recover_settled :
    ∃ memory : AgentMemory Unit,
      run step initial (answeredTurn.take 2) = some memory ∧
      Settled memory (memory.recover ⟨"closing"⟩).1 ∧
      ((memory.recover ⟨"closing"⟩).1.recover ⟨"later"⟩).1.state.transcript =
        (memory.recover ⟨"closing"⟩).1.state.transcript := by
  refine ⟨_, rfl, (reachable_recover_settled_iff ⟨answeredTurn.take 2, rfl⟩
    ⟨"closing"⟩ ⟨"later"⟩).mpr ?_⟩
  intro call mem
  have only : call ∈ ["A"] := mem
  rw [mem_singleton.mp only]
  refine .inr ⟨rfl, rfl, ?_⟩
  rintro ⟨run, isOpen, uncommitted⟩
  cases isOpen
  cases uncommitted

end AgentMemory

end Mentra

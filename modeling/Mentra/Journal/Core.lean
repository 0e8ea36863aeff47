import Mentra.Foundation.Usize
import Mentra.Transcript.Tree

/-!
# The memory journal

The per-agent journal of `mentra/src/memory/journal`: a transcript, the run in progress with
the transcript it would roll back to, and the bookkeeping around them.  Every operation ends
by writing the state to the store, whose answer changes nothing in memory.
-/

namespace Mentra

open Mentra.Foundation TranscriptItem

/-- A tool use still being streamed. -/
structure PendingToolUseSummary where
  id : String
  name : String
  inputJson : String
  complete : Bool
  deriving DecidableEq

structure PendingTurnState where
  currentText : String
  pendingToolUses : List PendingToolUseSummary
  deriving DecidableEq

/-- A run in progress. -/
structure RunMemoryState (V : Type) where
  runId : String
  baselineTranscript : AgentTranscript V
  assistantCommitted : Bool
  deriving DecidableEq

structure AgentMemoryState (V : Type) where
  transcript : AgentTranscript V := {}
  pendingTurn : Option PendingTurnState := none
  resumableUserMessage : Option (Message V) := none
  revision : Nat := 0
  run : Option (RunMemoryState V) := none
  interruptedTurn : Bool := false
  deriving DecidableEq

/-- The journal with its cached messages, which are always the transcript's. -/
structure AgentMemory (V : Type) where
  state : AgentMemoryState V
  historyCache : List (Message V)
  synced : historyCache = state.transcript.toMessages

/-- What recovery reports to the caller. -/
structure RecoveryOutcome where
  interrupted : Bool := false
  interruptedRunId : Option String := none

variable {V : Type}

/-! ## Where a transcript stands -/

/-- The last assistant message of a history and the messages after it. -/
def lastTurn : List (Message V) → Option (Message V × List (Message V))
  | [] => none
  | message :: rest =>
    match lastTurn rest with
    | some turn => some turn
    | none => if message.role = .assistant then some (message, rest) else none

inductive TurnState
  | finished
  | interrupted (unresolved : List String)

namespace TurnState

/-- `TurnState::of`: finished when the last message is an assistant message all
of whose calls have a result. -/
def of (history : List (Message V)) : TurnState :=
  match lastTurn history with
  | none => .interrupted []
  | some (assistant, after) =>
    let answered := after.flatMap Message.toolResultIds
    let unresolved := assistant.toolUseIds.filter (· ∉ answered)
    if unresolved.isEmpty && after.isEmpty then .finished else .interrupted unresolved

end TurnState

/-- What the result of a call that was running when the process stopped says. -/
def interruptedToolCallResult : String :=
  "The process stopped while this tool call was running, so its effect is unknown: it may have " ++
    "completed, partly run, or not run at all. It was not retried. Check the current state " ++
    "before repeating it."

/-- The user message closing the given calls with an error result each. -/
def closingMessage (unresolved : List String) : Option (Message V) :=
  if unresolved.isEmpty then none
  else some
    { role := .user
      content := unresolved.map fun id => .toolResult id (.text interruptedToolCallResult) true }

namespace AgentMemory

variable (state : AgentMemoryState V)

/-- `persist`: one more revision. -/
def persistState : AgentMemoryState V :=
  { state with revision := Usize.saturatingAdd state.revision 1 }

/-- A state whose cache was just rebuilt, written to the store. -/
def synchronize : AgentMemory V :=
  ⟨persistState state, state.transcript.toMessages, rfl⟩

def new : AgentMemory V :=
  ⟨state, state.transcript.toMessages, rfl⟩

variable (memory : AgentMemory V)

def history : List (Message V) :=
  memory.historyCache

/-- Open a run with its user message, which gets the entry id `id`. -/
def beginRun (runId : String) (userMessage : Message V) (id : EntryId) : AgentMemory V :=
  synchronize
    { memory.state with
      run := some ⟨runId, memory.state.transcript, false⟩
      pendingTurn := none
      resumableUserMessage := some userMessage
      transcript := memory.state.transcript.push (ofMessage id userMessage) }

def appendTranscriptItem (item : TranscriptItem V) : AgentMemory V :=
  synchronize { memory.state with transcript := memory.state.transcript.push item }

variable (message : Message V)

def appendMessage (id : EntryId) : AgentMemory V :=
  memory.appendTranscriptItem (ofMessage id message)

def updatePendingTurn (pending : PendingTurnState) : AgentMemory V :=
  { memory with state := persistState { memory.state with pendingTurn := some pending } }

def clearPendingTurn : AgentMemory V :=
  { memory with state := persistState { memory.state with pendingTurn := none } }

def commitAssistantMessage (id : EntryId) : AgentMemory V :=
  synchronize
    { memory.state with
      transcript := memory.state.transcript.push (ofMessage id message)
      pendingTurn := none
      run := memory.state.run.map fun run => { run with assistantCommitted := true } }

def rollbackFailedRun : AgentMemory V :=
  match memory.state.run with
  | some run =>
    synchronize
      { memory.state with
        run := none
        transcript := run.baselineTranscript
        pendingTurn := none }
  | none => synchronize { memory.state with pendingTurn := none }

/-- Open a run that continues the interrupted turn without a user message. -/
def beginContinuation (runId : String) : AgentMemory V :=
  { memory with
    state := persistState
      { memory.state with
        run := some ⟨runId, memory.state.transcript, false⟩
        pendingTurn := none } }

def finishRun : AgentMemory V :=
  { memory with
    state := persistState
      { memory.state with
        pendingTurn := none
        run := none
        resumableUserMessage := none
        interruptedTurn := false } }

/-- Close the given calls; the closing entry gets the id `id`. -/
def closeInterruptedTurn (unresolved : List String) (id : EntryId) : AgentMemoryState V :=
  match closingMessage unresolved with
  | some message =>
    { state with
      transcript := state.transcript.push (ofMessage id message)
      interruptedTurn := true }
  | none => { state with interruptedTurn := true }

/-- Settle a run the previous process left open. -/
def recover (id : EntryId) : AgentMemory V × RecoveryOutcome :=
  match memory.state.run with
  | none =>
    match TurnState.of memory.historyCache with
    | .interrupted unresolved =>
      if unresolved.isEmpty then (memory, {})
      else (synchronize (closeInterruptedTurn memory.state unresolved id), {})
    | .finished => (memory, {})
  | some run =>
    let state := { memory.state with run := none, pendingTurn := none }
    let state :=
      if run.assistantCommitted then
        let state := { state with resumableUserMessage := none }
        match TurnState.of memory.historyCache with
        | .finished => { state with interruptedTurn := false }
        | .interrupted unresolved => closeInterruptedTurn state unresolved id
      else { state with transcript := run.baselineTranscript }
    (synchronize state, ⟨true, some run.runId⟩)

/-- Move the transcript leaf back; how many entries left the active path. -/
def branchFrom (memory : AgentMemory V) (id : EntryId) : Except BranchFault (Nat × AgentMemory V) :=
  match memory.state.transcript.branchFrom id with
  | .error fault => .error fault
  | .ok (moved, transcript) =>
    .ok (moved, synchronize { memory.state with transcript, interruptedTurn := false })

/-- Replace the transcript by a compacted one unless the journal moved on. -/
def tryApplyCompaction (baseRevision : Nat)
    (transcript : AgentTranscript V) : Bool × AgentMemory V :=
  if memory.state.revision = baseRevision then
    (true, synchronize { memory.state with transcript })
  else (false, memory)

end AgentMemory

end Mentra

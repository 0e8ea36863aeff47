import Mentra.Agent.Core
import Mentra.Agent.Pending
import Mentra.Orchestrator.Round

/-!
# The turn runner

Model of `mentra/src/agent/runner.rs`: a round injects what arrived, compacts if it has to,
sends the projected history to the provider, puts the answer together and commits it, and runs
the tool calls it asks for.

As in the orchestrator, everything asked outside the agent is a field of the environment and
is asked at a moment of its own; `call` answers the runtime calls that only succeed or fail,
among them every write to the store.  The loop has no bound, so `runRounds` takes the number
of rounds to run at most.  The log records what was sent and received; no definition reads it.
-/

namespace Mentra

open Foundation Agent Program
open Orchestrator (RoundM ToolRuntime ToolExecutionOutcome)

/-! ## What a run meets -/

inductive TeamMessageKind
  | message
  | broadcast
  | request
  | response
  deriving DecidableEq

structure TeamMessage where
  kind : TeamMessageKind
  sender : String
  content : String
  timestamp : Nat
  requestId : Option String := none
  protocol : Option String := none
  approve : Option Bool := none
  deriving DecidableEq

inductive BackgroundTaskStatus
  | running
  | finished
  | failed
  | interrupted
  deriving DecidableEq

namespace BackgroundTaskStatus

def display : BackgroundTaskStatus → String
  | running => "running"
  | finished => "finished"
  | failed => "failed"
  | interrupted => "interrupted"

end BackgroundTaskStatus

structure BackgroundNotification where
  taskId : String
  command : String
  status : BackgroundTaskStatus
  outputPreview : String

/-- The commit points at which a strategy is asked. -/
inductive RoundBoundary
  | toolResultsCommitted
  | assistantMessageCommitted

structure RoundToolResult where
  toolUseId : String
  toolName : String
  isError : Bool

/-- A model or reasoning switch; how reasoning options look is the provider's. -/
structure RoundAdjustment where
  model : Option ModelInfo := none
  changesReasoning : Bool := false

inductive RoundDecision (V : Type)
  | «continue» (adjustment : RoundAdjustment)
  | inject (content : List (ContentBlock V)) (adjust : RoundAdjustment)
  | stop

structure RoundContext (V : Type) where
  boundary : RoundBoundary
  assistantMessage : Option (Message V)
  toolResults : List RoundToolResult
  roundsCompleted : Nat
  modelRequests : Nat
  transportRetries : Nat

inductive RoundFlow
  | «continue»
  | inject
  | stop

/-- Which bound ended a run without an error. -/
inductive EarlyEnd
  | stopRequested
  | tokenBudget

/-- Calls of the runtime that only succeed or fail. -/
inductive RuntimeCall
  | checkLimits
  | updateRunState (state : String)
  | saveAgentMemory
  | persistAgentRecord
  | refreshTasks
  | selectTransport
  | getProvider (provider : String)
  | modelRequestStarted (attempt : Nat)
  | modelRequestFinished (attempt : Nat) (success : Bool) (error : Option String)
  | modelResponseFinished (attempt : Nat) (success : Bool) (error stopReason : Option String)
      (usage : Option TokenUsage)
  | sleep
  | firstEvent
  | captureTaskState
  | startRunCheckpoint
  | finishRunCheckpoint
  | failRunCheckpoint (message : String)
  | requeueTeamMessages
  | restoreTaskState

/-- A stream as it will be received until it is closed. -/
abbrev ProviderEventStream (V : Type) :=
  List (Except ProviderError (ProviderEvent V))

/-- The orchestrator's environment for an agent: its operations are the
agent's own, and a tool acts on the agent only through its context. -/
structure ToolEnv (V : Type) [DecidableEq V] extends Orchestrator.Env (Agent V) V where
  notes : ∀ now call agent, (noteToolStarted now call agent).2 = agent
  takesIdle : ∀ agent, takeIdleRequested agent = agent.takeIdleRequested
  pages : ∀ toolUseId full agent,
    recordPagedToolResult toolUseId full agent = agent.recordPagedToolResult toolUseId full
  acts : ∀ agent name tool, resolveTool agent name = .visible tool →
    ∀ now context input other, ∃ actions : List (ContextAction V),
      (tool.handler.executeMutOutput now context input other).2 = actions.foldl perform other

/-- The options of a run and the runtime as a run meets them. -/
structure RunEnv (V : Type) [DecidableEq V] where
  tools : ToolEnv V
  call : Nat → RuntimeCall → Except RuntimeError Unit
  entryId : Nat → EntryId
  arrivals : Nat → List (Arrival V)
  stopRequested : Nat → Bool
  /-- The counter is shared with child runs. -/
  tokenBudgetExceeded : Nat → Bool
  maxRounds : Option Nat
  modelBudget : Nat
  retryBudget : Nat
  roundStrategy : Option (Nat → RoundContext V → RoundDecision V)
  readTeamInbox : Nat → Except RuntimeError (List TeamMessage)
  inboxJson : TeamMessage → String
  drainBackgroundNotifications : Nat → List BackgroundNotification
  compactionCall : Nat → CompactionCall V
  estimatedRequestTokens : Nat → List (Message V) → Nat
  recalledMemory : Nat → List (Message V) → Option String
  /-- A run bound that fired first, or what the provider answered. -/
  stream : Nat → List (Message V) →
    Except RuntimeError (Except ProviderError (ProviderEventStream V))
  debugDelta : ContentBlockDelta V → String

/-! ## The runner -/

/-- What was sent and received, newest first. -/
structure RunLog (V : Type) where
  /-- The histories handed to the provider, one for each attempt. -/
  requests : List (List (Message V)) := []
  turns : List (PendingAssistantTurn V) := []
  /-- How many requests had been made when one was sent again after the
  provider had refused it as too long. -/
  resends : List Nat := []

/-- The runner, with the agent inside its tool runtime. -/
structure TurnRunner (V : Type) where
  toolRuntime : ToolRuntime (Agent V) V
  modelRequests : Nat := 0
  transportRetries : Nat := 0
  earlyEnd : Option EarlyEnd := none
  log : RunLog V := {}

structure StreamedTurn (V : Type) where
  attempt : Nat
  pending : PendingAssistantTurn V

/-- Whether the round loop goes on. -/
inductive RoundEnd
  | again
  | done

abbrev RunM (V : Type) :=
  Program RuntimeError (TurnRunner V)

namespace TurnRunner

variable {V : Type}

/-- A runner set up at the given moment. -/
def new (agent : Agent V) (clock : Nat) : TurnRunner V where
  toolRuntime := { agent := { agent with ledger := agent.ledger.openRun }, clock }

def agent (runner : TurnRunner V) : Agent V :=
  runner.toolRuntime.agent

/-! ## Elementary steps -/

def onTools {α : Type} (program : RoundM (Agent V) V α) : RunM V α :=
  zoom toolRuntime (fun runner toolRuntime => { runner with toolRuntime }) program

def ask {α : Type} (question : Nat → α) : RunM V α :=
  onTools (Orchestrator.ask question)

def onAgent {α : Type} (operation : Nat → Agent V → α × Agent V) : RunM V α :=
  onTools (Orchestrator.onAgent operation)

def currentAgent : RunM V (Agent V) := do
  return (← get).agent

def recordEarlyEnd (earlyEnd : EarlyEnd) : RunM V PUnit :=
  modify fun runner => { runner with earlyEnd := runner.earlyEnd.or (some earlyEnd) }

section Environment

variable [DecidableEq V]

def call (env : RunEnv V) (runtimeCall : RuntimeCall) : RunM V Unit := do
  lift (← ask fun now => env.call now runtimeCall)

variable (env : RunEnv V)

/-- What other threads did meanwhile to the queues about to be read. -/
def arrive : RunM V Unit :=
  onAgent fun now agent => ((), (env.arrivals now).foldl receive agent)

/-- Change the agent in a way that is then saved with its memory. -/
def journal (change : EntryId → Agent V → Agent V) : RunM V Unit := do
  onAgent fun now agent => ((), change (env.entryId now) agent)
  call env .saveAgentMemory

def appendEntry (entry : EntryId → TranscriptItem V)
    (source : Source V := .elsewhere) : RunM V Unit :=
  journal env fun id agent => agent.appendTranscriptItem (entry id) source

/-! ## What a turn starts with -/

def formatInbox (message : TeamMessage) : String :=
  "<team-inbox>\n" ++ env.inboxJson message ++ "\n</team-inbox>"

def recordTeamMessages (env : RunEnv V) : List TeamMessage → RunM V Unit
  | [] => return ()
  | message :: rest => do
      appendEntry env fun id =>
        delegationRequestEntry id (formatInbox env message)
          { kind := .teammate, agentId := message.sender, agentName := message.sender,
            role := some "teammate", status := .requested, taskSummary := message.content,
            resultSummary := none, artifacts := [] } none
      recordTeamMessages env rest

def injectTeamInbox : RunM V Unit := do
  let messages ← lift (← ask env.readTeamInbox)
  recordTeamMessages env messages

def escapeBackgroundField (value : String) : String :=
  String.join (value.toList.map fun c =>
    if c = '\\' then "\\\\" else if c = '"' then "\\\"" else c.toString)

def formatBackgroundResults (notifications : List BackgroundNotification) : String :=
  let lines := notifications.map fun notification =>
    "[bg:" ++ notification.taskId ++ "] status=" ++ notification.status.display ++ " command=\"" ++
      escapeBackgroundField notification.command ++ "\" output=\"" ++
      escapeBackgroundField notification.outputPreview ++ "\""
  "<background-results>\n" ++ String.intercalate "\n" lines ++ "\n</background-results>"

def injectBackgroundNotifications : RunM V Unit := do
  let notifications ← ask env.drainBackgroundNotifications
  if notifications.isEmpty then return ()
  else appendEntry env fun id =>
    canonicalContextEntry id (formatBackgroundResults notifications)

def applyDeferredItem : DeferredItem → RunM V Unit
  | .context content =>
    appendEntry env (fun id => canonicalContextEntry id content) (.deferred (.context content))
  | .delegationResult content delegation edge =>
    appendEntry env (fun id => delegationResultEntry id content delegation edge)
      (.deferred (.delegationResult content delegation edge))
  | .subagentFinished id status => onAgent fun _ agent => ((), agent.settleSubagent id status)

def applyDeferredItems (env : RunEnv V) : List DeferredItem → RunM V Unit
  | [] => return ()
  | item :: rest => do
      applyDeferredItem env item
      applyDeferredItems env rest

/-- Take everything out of the queue and apply it in order.  An error leaves
the rest of it nowhere. -/
def applyDeferred : RunM V Unit := do
  arrive env
  let items ← onAgent fun _ agent => agent.drainDeferred
  applyDeferredItems env items

/-! ## Compaction -/

def compactHistory (env : RunEnv V) : RunM V Bool := do
  lift (← onAgent fun now agent => agent.compactHistory (env.compactionCall now))

/-- The attempts of `auto_compact_if_needed`, of which so many are left. -/
def autoCompact (env : RunEnv V) : Nat → RunM V Unit
  | 0 => return ()
  | left + 1 => do
      match ← Program.attempt (compactHistory env) with
      | .ok _ => return ()
      | .error error =>
        if error.isRunBound then throw error
        else if error.category = .retryable ∧ left ≠ 0 then do
          call env .sleep
          autoCompact env left
        else return ()

def autoCompactMaxAttempts : Nat := 3

def autoCompactIfNeeded [SerdeJson V] : RunM V Unit := do
  let agent ← currentAgent
  match agent.config.autoCompactThreshold agent.contextWindow with
  | none => return ()
  | some threshold =>
    let messages := agent.projectedToolResultHistory.messages
    let estimated ← ask fun now => env.estimatedRequestTokens now messages
    if estimated ≤ threshold then return () else autoCompact env autoCompactMaxAttempts

def compactAfterContextOverflow : RunM V Unit := do
  let _ ← compactHistory env
  return ()

/-! ## Sending a request -/

/-- The history a request carries. -/
def requestHistory [SerdeJson V] (agent : Agent V) (recalled : Option String) : List (Message V) :=
  agent.injectTeammateIdentity
    (agent.projectedToolResultHistory.messages ++
      (recalled.map fun text => Message.user (.text text)).toList)

/-- One attempt: count it, announce it, make it. -/
def attemptRequest (request : List (Message V)) (attempt : Nat) :
    RunM V (Except ProviderError (ProviderEventStream V)) := do
  call env .checkLimits
  modify fun runner => { runner with modelRequests := runner.modelRequests + 1 }
  call env (.modelRequestStarted attempt)
  modify fun runner =>
    { runner with log := { runner.log with requests := request :: runner.log.requests } }
  lift (← ask fun now => env.stream now request)

def checkModelBudget : RunM V PUnit := do
  if (← get).modelRequests ≥ env.modelBudget then throw (.modelBudgetExceeded env.modelBudget)

variable (attempt : Nat) (error : ProviderError)

def failedRequest : RunM V Unit :=
  call env (.modelRequestFinished attempt false (some (error.display env.tools.statusText)))

def acceptStream (stream : ProviderEventStream V) :
    RunM V (ProviderEventStream V × Nat) := do
  call env (.modelRequestFinished attempt true none)
  return (stream, attempt)

def giveUp {α : Type} : RunM V α := do
  failedRequest env attempt error
  throw (.failedToStreamResponse error)

def prepareRetry : RunM V Unit := do
  modify fun runner => { runner with transportRetries := runner.transportRetries + 1 }
  failedRequest env attempt error
  checkModelBudget env
  call env .sleep

/-- The loop of `open_model_stream`.  The first argument is how often it may
still retry; it is positive when the source's `attempt <= retry_budget`. -/
def openAttempts (env : RunEnv V) (request : List (Message V)) : Nat → Nat →
    RunM V (ProviderEventStream V × Nat)
  | 0, attempt => do
      match ← attemptRequest env request attempt with
      | .ok stream => acceptStream env attempt stream
      | .error error => giveUp env attempt error
  | retries + 1, attempt => do
      match ← attemptRequest env request attempt with
      | .ok stream => acceptStream env attempt stream
      | .error error =>
        if error.isTransient then do
          prepareRetry env attempt error
          openAttempts env request retries (attempt + 1)
        else giveUp env attempt error

def openModelStream [SerdeJson V] : RunM V (ProviderEventStream V × Nat) := do
  let agent ← currentAgent
  let recalled ← ask fun now =>
    env.recalledMemory now agent.projectedToolResultHistory.messages
  call env .selectTransport
  openAttempts env (requestHistory agent recalled) env.retryBudget 1

/-- Send once more after compacting, when the provider refused the request as
too long. -/
def reopenModelStream [SerdeJson V] : RunM V (ProviderEventStream V × Nat) := do
  compactAfterContextOverflow env
  modify fun runner =>
    { runner with
      log := { runner.log with resends := runner.modelRequests :: runner.log.resends } }
  openModelStream env

def openTurn [SerdeJson V] : RunM V (ProviderEventStream V × Nat) := do
  match ← Program.attempt (openModelStream env) with
  | .ok opened => return opened
  | .error (.failedToStreamResponse error) =>
    if error.isContextLengthExceeded then reopenModelStream env
    else throw (.failedToStreamResponse error)
  | .error error => throw error

/-! ## Receiving a turn -/

/-- Report a failed response and fail with it. -/
def failResponse {α : Type} (error : RuntimeError) :
    RunM V α := do
  call env (.modelResponseFinished attempt false (some (error.display env.tools.statusText))
    none none)
  throw error

/-- A failure of `program` is a failed response. -/
def responding {α : Type} (program : RunM V α) : RunM V α := do
  match ← Program.attempt program with
  | .ok value => return value
  | .error error => failResponse env attempt error

def updatePendingTurn (env : RunEnv V) (turn : PendingAssistantTurn V) : RunM V Unit :=
  journal env fun _ agent =>
    { agent with memory := agent.memory.updatePendingTurn turn.pendingState }

def receiveEvents [SerdeJson V] (env : RunEnv V) (attempt : Nat) : ProviderEventStream V →
    PendingAssistantTurn V → RunM V (PendingAssistantTurn V)
  | [], turn => return turn
  | event :: rest, turn => do
      responding env attempt (call env .checkLimits)
      let event ← responding env attempt (lift (event.mapError RuntimeError.failedToStreamResponse))
      let (_, turn) ← responding env attempt (lift (turn.apply env.debugDelta event))
      updatePendingTurn env turn
      receiveEvents env attempt rest turn

/-- What `stream_turn` does before it sends anything. -/
def prepareTurn [SerdeJson V] : RunM V Unit := do
  injectTeamInbox env
  injectBackgroundNotifications env
  applyDeferred env
  call env .refreshTasks
  autoCompactIfNeeded env

/-- What `stream_turn` does with the stream it opened. -/
def receiveTurn [SerdeJson V] (stream : ProviderEventStream V) (attempt : Nat) :
    RunM V (StreamedTurn V) := do
  updatePendingTurn env {}
  responding env attempt (call env .firstEvent)
  let pending ← receiveEvents env attempt stream {}
  return { attempt, pending }

def streamTurn [SerdeJson V] : RunM V (StreamedTurn V) := do
  checkModelBudget env
  prepareTurn env
  let (stream, attempt) ← openTurn env
  receiveTurn env stream attempt

/-! ## Committing -/

def commitAssistantMessage [SerdeJson V] (env : RunEnv V) (turn : PendingAssistantTurn V) :
    RunM V Unit := do
  let message ← lift turn.toMessage
  if message.content.isEmpty then
    journal env fun _ agent => { agent with memory := agent.memory.clearPendingTurn }
  else
    journal env fun id agent => agent.commitAssistantMessage message id

def truncateToolInput (input : String) (maxChars : Nat) : String :=
  if input.length > maxChars then String.ofList (input.toList.take maxChars) ++ "..." else input

variable (invalidToolUses : List InvalidToolUse)

def formatInvalidToolInputFeedback : String :=
  Text.trimEnd <|
    "One or more tool calls could not be executed because their JSON arguments were invalid. " ++
    "Please retry with valid JSON that matches the tool schema exactly.\n\n" ++
    String.join (invalidToolUses.map fun invalid =>
      "Tool '" ++ invalid.name ++ "' (" ++ invalid.id ++ ") failed to parse: " ++ invalid.error ++
        ".\nRaw arguments (truncated): " ++ truncateToolInput invalid.inputJson 240 ++ "\n\n")

def appendInvalidToolInputFeedback : RunM V Unit :=
  appendEntry env fun id =>
    .ofMessage id (.user (.text (formatInvalidToolInputFeedback invalidToolUses)))

def injectRoundContext (content : List (ContentBlock V))
    (source : Source V := .elsewhere) : RunM V Unit :=
  journal env fun id agent => agent.injectContent id content source

/-- The entry for the results of a round; empty details attach nothing. -/
def toolResultsEntry (id : EntryId) (execution : ToolExecutionOutcome V) : TranscriptItem V :=
  (TranscriptItem.ofMessage id ⟨.user, execution.results⟩).withDetails execution.details

def appendToolResults (execution : ToolExecutionOutcome V) : RunM V Unit :=
  journal env fun id agent => agent.appendTranscriptItem (toolResultsEntry id execution)

/-! ## Round boundaries -/

/-- Whether a stop or a spent token budget ends the run here. -/
def endsEarly : RunM V Bool := do
  if ← ask env.stopRequested then
    recordEarlyEnd .stopRequested
    return true
  else if ← ask env.tokenBudgetExceeded then
    recordEarlyEnd .tokenBudget
    return true
  else return false

variable (rounds : Nat)

def checkMaxRounds : RunM V Unit :=
  match env.maxRounds with
  | some limit => if rounds ≥ limit then throw (.maxRoundsExceeded limit) else return ()
  | none => return ()

def nextRequestIsAvailable : RunM V Bool := do
  call env .checkLimits
  if ← endsEarly env then return false
  else do
    checkMaxRounds env rounds
    checkModelBudget env
    return true

/-- Whether something waits in a queue, asked at this moment. -/
def isPending (pending : Agent V → Bool) : RunM V Bool := do
  arrive env
  return pending (← currentAgent)

/-- Take from a queue and inject what was taken; `none` when there was nothing. -/
def takeQueued (queue : SteeringQueue) : RunM V (Option RoundEnd) := do
  match ← onAgent fun _ agent => agent.drainQueue queue with
  | some entries =>
    injectRoundContext env entries.flatten (.queued queue entries)
    return some .again
  | none => return none

/-- Inject what waits in a queue, if a request can follow; `none` when there is
nothing to inject. -/
def injectQueued (queue : SteeringQueue) :
    RunM V (Option RoundEnd) := do
  if ← isPending env fun agent => agent.hasPending queue then
    if ← nextRequestIsAvailable env rounds then
      arrive env
      takeQueued env queue
    else return some .done
  else return none

def setModel (model : ModelInfo) : RunM V Unit := do
  call env (.getProvider model.provider)
  onAgent fun _ agent =>
    ((), { agent with model := model.id, contextWindow := model.contextWindow })
  call env .persistAgentRecord

def adjustModel : Option ModelInfo → RunM V Unit
  | some model => setModel env model
  | none => return ()

def applyRoundAdjustment (adjustment : RoundAdjustment) : RunM V Unit := do
  adjustModel env adjustment.model
  if adjustment.changesReasoning then call env .persistAgentRecord else return ()

def runRoundStrategy (strategy : Nat → RoundContext V → RoundDecision V)
    (boundary : RoundBoundary) (assistantMessage : Option (Message V))
    (toolResults : List RoundToolResult) (rounds : Nat) : RunM V RoundFlow := do
  let runner ← get
  let context : RoundContext V :=
    { boundary, assistantMessage, toolResults, roundsCompleted := rounds,
      modelRequests := runner.modelRequests, transportRetries := runner.transportRetries }
  match ← ask fun now => strategy now context with
  | RoundDecision.continue adjustment =>
    applyRoundAdjustment env adjustment
    return RoundFlow.continue
  | .inject content adjust =>
    applyRoundAdjustment env adjust
    injectRoundContext env content
    return .inject
  | .stop => return .stop

/-- What the strategy makes of a boundary; a run without one goes on. -/
def decideRound (boundary : RoundBoundary)
    (assistantMessage : Option (Message V)) (toolResults : List RoundToolResult) (rounds : Nat) :
    RunM V RoundFlow :=
  match env.roundStrategy with
  | some strategy =>
    runRoundStrategy env strategy boundary assistantMessage toolResults rounds
  | none => return RoundFlow.continue

variable (calls : List (ToolCall V))

def toolCallName (toolUseId : String) : String :=
  ((calls.reverse.find? fun call => call.id = toolUseId).map ToolCall.name).getD ""

def summarizeToolResults (results : List (ContentBlock V)) (calls : List (ToolCall V)) :
    List RoundToolResult :=
  results.filterMap fun block =>
    match block with
    | .toolResult toolUseId _ isError =>
      some { toolUseId, toolName := toolCallName calls toolUseId, isError }
    | _ => none

/-! ## The round loop -/

/-- Content was injected before the run would have stopped. -/
def persistInjected : RunM V RoundEnd := do
  call env .persistAgentRecord
  return .again

/-- The end of a round without tools, once the strategy has decided.  A run
does not return while a deferred item waits. -/
def finishDecided : RoundFlow → RunM V RoundEnd
  | .inject => persistInjected env
  | .stop => return .done
  | .continue => do
      if ← isPending env hasDeferred then
        if ← nextRequestIsAvailable env rounds then persistInjected env else return .done
      else return .done

/-- A round whose turn asked for no tool. -/
def finishTextRound : RunM V RoundEnd := do
  match ← injectQueued env rounds .steer with
  | some .again => persistInjected env
  | some .done => return .done
  | none =>
    match ← injectQueued env rounds .followUp with
    | some .again => persistInjected env
    | some .done => return .done
    | none =>
      let agent ← currentAgent
      let flow ← decideRound env .assistantMessageCommitted
        (agent.history.getLast?.filter (·.role = .assistant)) [] rounds
      finishDecided env rounds flow

/-- How a round with tools ends, once their results are recorded. -/
def endToolRound (execution : ToolExecutionOutcome V) : RunM V RoundEnd := do
  call env .persistAgentRecord
  if execution.endTurn then return .done
  else
    match ← injectQueued env rounds .steer with
    | some roundEnd => return roundEnd
    | none =>
      match ← decideRound env .toolResultsCommitted none
        (summarizeToolResults execution.results calls) rounds with
      | .stop => return .done
      | _ => return .again

/-- A round whose turn asked for tools. -/
def finishToolRound [SerdeJson V] :
    RunM V RoundEnd := do
  let execution ← onTools (Orchestrator.executeCalls env.tools.toEnv calls)
  appendToolResults env execution
  endToolRound env rounds calls execution

/-- A round whose turn had a tool use that could not be read.  Its other tool
uses are not run. -/
def finishInvalidRound :
    RunM V RoundEnd := do
  appendInvalidToolInputFeedback env invalidToolUses
  call env .persistAgentRecord
  return .again

/-- What a round does once its turn is committed. -/
def continueRound [SerdeJson V] (turn : PendingAssistantTurn V) : RunM V RoundEnd :=
  if !turn.invalidToolUses.isEmpty then finishInvalidRound env turn.invalidToolUses
  else if turn.readyToolCalls.isEmpty then finishTextRound env rounds
  else finishToolRound env rounds turn.readyToolCalls

/-- What a round does with the turn it received. -/
def finishRound [SerdeJson V] (streamed : StreamedTurn V) :
    RunM V RoundEnd := do
  modify fun runner =>
    { runner with log := { runner.log with turns := streamed.pending :: runner.log.turns } }
  responding env streamed.attempt (commitAssistantMessage env streamed.pending)
  call env (.modelResponseFinished streamed.attempt true none streamed.pending.stopReason
    streamed.pending.usage)
  continueRound env rounds streamed.pending

/-- Whether another round may start, after `rounds` earlier ones. -/
def beginRound : RunM V Bool := do
  call env .checkLimits
  if ← endsEarly env then return false
  else do
    checkMaxRounds env rounds
    call env (.updateRunState "awaiting_model")
    return true

def runRound [SerdeJson V] : RunM V RoundEnd := do
  if ← beginRound env rounds then do
    let streamed ← streamTurn env
    finishRound env (rounds + 1) streamed
  else return .done

/-- At most so many rounds; whether the loop ended. -/
def runRounds [SerdeJson V] (env : RunEnv V) : Nat → Nat → RunM V Bool
  | 0, _ => return false
  | bound + 1, rounds => do
      match ← runRound env rounds with
      | .done => return true
      | .again => runRounds env bound (rounds + 1)

/-- The round loop of a run, stopped after at most `bound` rounds. -/
def run [SerdeJson V] (bound : Nat) : RunM V Bool :=
  runRounds env bound 0

end Environment

end TurnRunner

/-! ## A quiet environment -/

section Quiet

variable {V : Type} [DecidableEq V]

/-- Nobody has tools, hooks or limits. -/
def quietToolEnv : ToolEnv V where
  agentId := "agent"
  agentName := Agent.name
  model := model
  historyLen agent := agent.history.length
  resolveTool _ _ := .missing
  noteToolStarted _ _ agent := (.ok (), agent)
  takeIdleRequested := takeIdleRequested
  recordPagedToolResult toolUseId full agent := agent.recordPagedToolResult toolUseId full
  checkLimits _ := .ok ()
  toolBudget := Usize.max
  resolveWorkingDirectory _ := "."
  preHooks _ := []
  executionHooks _ := []
  postHooks _ := []
  emitHook _ _ := .ok ()
  validateToolInput _ _ := .ok ()
  toolAuthorizer := none
  outputLimiter _ content := content
  pager := none
  joinNext _ := ⟨0, .ok 0⟩
  statusText := toString
  notes _ _ _ := rfl
  takesIdle _ := rfl
  pages _ _ _ := rfl
  acts := by rintro _ _ _ ⟨⟩

/-- An environment in which every runtime call succeeds and only the provider,
which answers as given, takes part. -/
def quietRunEnv (stream : Nat → List (Message V) →
    Except RuntimeError (Except ProviderError (ProviderEventStream V))) : RunEnv V where
  tools := quietToolEnv
  call _ _ := .ok ()
  entryId now := ⟨toString now⟩
  arrivals _ := []
  stopRequested _ := false
  tokenBudgetExceeded _ := false
  maxRounds := none
  modelBudget := Usize.max
  retryBudget := 0
  roundStrategy := none
  readTeamInbox _ := .ok []
  inboxJson _ := "[]"
  drainBackgroundNotifications _ := []
  compactionCall now := { engine := Compaction.quietEnv ⟨toString now⟩ }
  estimatedRequestTokens _ _ := 0
  recalledMemory _ _ := none
  stream
  debugDelta _ := ""

/-- An agent that was asked something and has answered nothing yet. -/
def askedAgent : Agent V where
  name := "agent"
  model := "model"
  memory := (AgentMemory.new {}).beginRun "run" (.user (.text "hello")) ⟨"user"⟩

/-- An agent that was asked nothing yet. -/
def idleAgent (config : CompactionConfig := {}) : Agent V where
  name := "agent"
  model := "model"
  config
  memory := .new {}

/-- The answer of a provider that says nothing but an empty text. -/
def textReply : ProviderEventStream V :=
  [.ok (.messageStarted "reply" "model" .assistant), .ok (.contentBlockStarted 0 .text),
    .ok (.contentBlockStopped 0), .ok .messageStopped]

end Quiet

end Mentra

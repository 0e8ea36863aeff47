import Mentra.Compaction.Core
import Mentra.Journal.Core
import Mentra.Memory.Projection
import Mentra.Tool.Core

/-!
# The agent

Model of the state a run of an agent works on: the journal, the queues of
`mentra/src/agent/{steering,deferred}.rs`, the subagent table and the compaction of
`mentra/src/agent/compact.rs`.  A tool can only do a `ContextAction` to the agent, another
thread only an `Arrival`.  The published snapshot, the event stream, tasks and statuses are
left out: no operation here reads them.

The ledger records what was pushed to the queues, where the entries of the transcript came
from and which of them compactions replaced.  No operation reads it.
-/

namespace Mentra

open Foundation Function

/-! ## Subagents and deferred items -/

inductive SpawnedAgentStatus
  | running
  | finished
  | failed (message : String)
  deriving DecidableEq

structure SpawnedAgentSummary where
  id : String
  name : String
  model : String
  status : SpawnedAgentStatus

/-- One thing left for an agent to find at its next round. -/
inductive DeferredItem
  | context (content : String)
  | delegationResult (content : String) (delegation : DelegationArtifact)
      (edge : Option DelegationEdge)
  | subagentFinished (id : String) (status : SpawnedAgentStatus)
  deriving DecidableEq

/-! ## Steering -/

/-- How many queued entries are injected at one boundary. -/
inductive QueueMode
  | all
  | oneAtATime

namespace QueueMode

/-- `drain`: what is taken from the queue and what stays. -/
def drain {α : Type} : QueueMode → List α → List α × List α
  | all, queue => (queue, [])
  | oneAtATime, queue => (queue.take 1, queue.drop 1)

theorem drain_append {α : Type} (mode : QueueMode) (queue : List α) :
    (mode.drain queue).1 ++ (mode.drain queue).2 = queue := by
  cases mode with
  | all => exact List.append_nil queue
  | oneAtATime => exact List.take_append_drop 1 queue

end QueueMode

structure SteeringQueues (V : Type) where
  steer : List (List (ContentBlock V)) := []
  followUp : List (List (ContentBlock V)) := []
  steerMode : QueueMode := .oneAtATime
  followUpMode : QueueMode := .oneAtATime

/-- One of the two queues. -/
inductive SteeringQueue
  | steer
  | followUp
  deriving DecidableEq

namespace SteeringQueues

variable {V : Type}

variable (queues : SteeringQueues V)

def waiting : SteeringQueue → List (List (ContentBlock V))
  | .steer => queues.steer
  | .followUp => queues.followUp

def mode : SteeringQueue → QueueMode
  | .steer => queues.steerMode
  | .followUp => queues.followUpMode

def setWaiting (entries : List (List (ContentBlock V))) :
    SteeringQueue → SteeringQueues V
  | .steer => { queues with steer := entries }
  | .followUp => { queues with followUp := entries }

theorem waiting_setWaiting (entries : List (List (ContentBlock V))) (queue : SteeringQueue) :
    (queues.setWaiting entries queue).waiting = update queues.waiting queue entries := by
  funext other
  cases queue <;> cases other <;> rfl

end SteeringQueues

/-! ## Settings -/

/-- When a request is compacted without being asked to. -/
inductive AutoCompactTrigger
  | thresholds
  | off
  | windowShareOnly

structure CompactionConfig where
  keepRecentToolResults : Nat := Usize.max
  projectedToolResultBudget : Option ProjectedToolResultBudget := none
  autoCompactTrigger : AutoCompactTrigger := .thresholds
  autoCompactThresholdTokens : Option Nat := some 50000
  autoCompactThresholdPercent : Option Nat := some 75
  mode : CompactionMode := .localOnly
  preserveRecentUserTokens : Nat := 20000
  preserveRecentDelegationResults : Nat := 8

namespace CompactionConfig

def windowShare (window percent : Nat) : Nat :=
  min (window * min percent 100) Usize.max / 100

def autoCompactThreshold (config : CompactionConfig) (contextWindow : Option Nat) : Option Nat :=
  match config.autoCompactTrigger with
  | .off => none
  | .windowShareOnly => do
      let window ← contextWindow
      let percent ← config.autoCompactThresholdPercent
      return windowShare window percent
  | .thresholds => do
      let fallback ← config.autoCompactThresholdTokens
      match contextWindow, config.autoCompactThresholdPercent with
      | some window, some percent => return windowShare window percent
      | _, _ => return fallback

end CompactionConfig

structure TeammateIdentity where
  role : String
  lead : String

/-- What a host asks a model to be switched to. -/
structure ModelInfo where
  id : String
  provider : String
  contextWindow : Option Nat

/-! ## The agent -/

/-- Where an entry of the transcript came from. -/
inductive Source (V : Type)
  | elsewhere
  | queued (queue : SteeringQueue) (entries : List (List (ContentBlock V)))
  | deferred (item : DeferredItem)

/-- An entry put on the transcript. -/
structure Recorded (V : Type) where
  source : Source V
  entry : TranscriptItem V

/-- What was pushed to the queues and what became of it. -/
structure Ledger (V : Type) where
  /-- Every deferred item pushed. -/
  pushed : List DeferredItem := []
  /-- The deferred items taken out of the queue in the last run. -/
  drained : List DeferredItem := []
  /-- The deferred items applied to the subagent table. -/
  settled : List DeferredItem := []
  /-- The entries pushed to the steer queue and not withdrawn by a clear. -/
  steered : List (List (ContentBlock V)) := []
  /-- The entries pushed to the follow-up queue and not withdrawn by a clear. -/
  followedUp : List (List (ContentBlock V)) := []
  /-- Content a host had entered as user messages in the last run. -/
  injected : List (List (ContentBlock V)) := []
  /-- Every entry put on the transcript by what was not rolled back. -/
  recorded : List (Recorded V) := []
  /-- Entries summarized and not copied by compactions. -/
  replaced : List (TranscriptItem V) := []

namespace Ledger

variable {V : Type}

variable (ledger : Ledger V)

def record (source : Source V) (entry : TranscriptItem V) : Ledger V :=
  { ledger with recorded := ledger.recorded ++ [⟨source, entry⟩] }

/-- The entries pushed to a queue. -/
def entered : SteeringQueue → List (List (ContentBlock V))
  | .steer => ledger.steered
  | .followUp => ledger.followedUp

def setEntered (entries : List (List (ContentBlock V))) :
    SteeringQueue → Ledger V
  | .steer => { ledger with steered := entries }
  | .followUp => { ledger with followedUp := entries }

theorem entered_setEntered (entries : List (List (ContentBlock V))) (queue : SteeringQueue) :
    (ledger.setEntered entries queue).entered = update ledger.entered queue entries := by
  funext other
  cases queue <;> cases other <;> rfl

/-- A run keeps its own account of what it drains and what hosts enter. -/
def openRun : Ledger V :=
  { ledger with drained := [], injected := [] }

end Ledger

/-- The agent as a run works on it.  `deferred` is its queue on the runtime. -/
structure Agent (V : Type) where
  name : String
  model : String
  contextWindow : Option Nat := none
  teammateIdentity : Option TeammateIdentity := none
  config : CompactionConfig := {}
  memory : AgentMemory V
  steering : SteeringQueues V := {}
  inflightSteer : List (List (ContentBlock V)) := []
  inflightFollowUp : List (List (ContentBlock V)) := []
  deferred : List DeferredItem := []
  subagents : List SpawnedAgentSummary := []
  idleRequested : Bool := false
  pagedToolResults : List (String × String) := []
  ledger : Ledger V := {}

/-- What one compaction meets outside the agent. -/
structure CompactionCall (V : Type) where
  engine : CompactionEnv V
  selectTransport : Except RuntimeError Unit := .ok ()
  emitProposed : Except RuntimeError Unit := .ok ()
  save : Except RuntimeError Unit := .ok ()

/-- What another thread does to the agent's queues. -/
inductive Arrival (V : Type)
  | steer (content : List (ContentBlock V))
  | followUp (content : List (ContentBlock V))
  | clearSteer
  | clearFollowUp
  | setSteerMode (mode : QueueMode)
  | setFollowUpMode (mode : QueueMode)
  | deferred (item : DeferredItem)

/-- What a tool does to the agent it runs for, through its `ToolContext`.  Ids
are drawn for the entries it records. -/
inductive ContextAction (V : Type)
  | recordDelegationRequest (id : EntryId) (content : String) (delegation : DelegationArtifact)
      (edge : Option DelegationEdge)
  | recordDelegationResult (id : EntryId) (content : String) (delegation : DelegationArtifact)
      (edge : Option DelegationEdge)
  | compactHistory (call : CompactionCall V)
  | registerSubagent (summary : SpawnedAgentSummary)
  | finishSubagent (id : String) (status : SpawnedAgentStatus)
  | requestIdle
  | pushDeferred (item : DeferredItem)

namespace Agent

variable {V : Type}

def history (agent : Agent V) : List (Message V) :=
  agent.memory.history

/-! ## Recording entries -/

variable (id : EntryId) (content : String)

/-- The entry a deferred message leaves. -/
def canonicalContextEntry : TranscriptItem V :=
  .canonicalContext id (.user (.text content))

def delegationRequestEntry (delegation : DelegationArtifact)
    (edge : Option DelegationEdge) : TranscriptItem V :=
  .delegationRequest id (.user (.text content)) delegation edge

def delegationResultEntry (delegation : DelegationArtifact)
    (edge : Option DelegationEdge) : TranscriptItem V :=
  .delegationResult id (.user (.text content)) delegation edge

/-- The entry a deferred item leaves on the transcript, if it leaves one. -/
def deferredEntry : DeferredItem → Option (TranscriptItem V)
  | .context content => some (canonicalContextEntry id content)
  | .delegationResult content delegation edge =>
    some (delegationResultEntry id content delegation edge)
  | .subagentFinished _ _ => none

theorem deferredEntry_message {id : EntryId} {item : DeferredItem} {entry : TranscriptItem V}
    (leaves : deferredEntry id item = some entry) :
    ∃ text, entry.message = some (.user (.text text)) := by
  cases item with
  | context content | delegationResult content delegation edge =>
    cases leaves
    exact ⟨content, rfl⟩
  | subagentFinished agentId status => cases leaves

def appendTranscriptItem (agent : Agent V) (item : TranscriptItem V)
    (source : Source V := .elsewhere) : Agent V :=
  { agent with
    memory := agent.memory.appendTranscriptItem item
    ledger := agent.ledger.record source item }

variable (agent : Agent V)

/-- Enter content a host supplied as a user message. -/
def injectContent (id : EntryId) (content : List (ContentBlock V))
    (source : Source V := .elsewhere) : Agent V :=
  { agent with
    memory := agent.memory.appendMessage ⟨.user, content⟩ id
    ledger :=
      { agent.ledger.record source (.ofMessage id ⟨.user, content⟩) with
        injected := agent.ledger.injected ++ [content] } }

def commitAssistantMessage (agent : Agent V) (message : Message V) (id : EntryId) : Agent V :=
  { agent with
    memory := agent.memory.commitAssistantMessage message id
    ledger := agent.ledger.record .elsewhere (.ofMessage id message) }

/-! ## Queues -/

def waiting (agent : Agent V) (queue : SteeringQueue) : List (List (ContentBlock V)) :=
  agent.steering.waiting queue

/-- What the run in progress took from a queue. -/
def inflight : SteeringQueue → List (List (ContentBlock V))
  | .steer => agent.inflightSteer
  | .followUp => agent.inflightFollowUp

def setInflight (entries : List (List (ContentBlock V))) :
    SteeringQueue → Agent V
  | .steer => { agent with inflightSteer := entries }
  | .followUp => { agent with inflightFollowUp := entries }

theorem inflight_setInflight (entries : List (List (ContentBlock V))) (queue : SteeringQueue) :
    (agent.setInflight entries queue).inflight = update agent.inflight queue entries := by
  funext other
  cases queue <;> cases other <;> rfl

variable (queue : SteeringQueue)

def hasPending : Bool :=
  !(agent.waiting queue).isEmpty

def hasDeferred : Bool :=
  !agent.deferred.isEmpty

/-- Take from a queue what its mode allows, one by one; the source hands over the concatenation. -/
def drainQueue : Option (List (List (ContentBlock V))) × Agent V :=
  let (entries, rest) := (agent.steering.mode queue).drain (agent.waiting queue)
  if entries.isEmpty then (none, agent)
  else
    (some entries,
      { agent with steering := agent.steering.setWaiting rest queue }.setInflight
        (agent.inflight queue ++ entries) queue)

def drainSteer : Option (List (List (ContentBlock V))) × Agent V :=
  agent.drainQueue .steer

def clearInflightSteering : Agent V :=
  { agent with inflightSteer := [], inflightFollowUp := [] }

/-- Put what the run consumed back in front of the queues. -/
def requeueInflightSteering : Agent V :=
  { agent with
    steering :=
      { agent.steering with
        steer := agent.inflightSteer ++ agent.steering.steer
        followUp := agent.inflightFollowUp ++ agent.steering.followUp }
    inflightSteer := []
    inflightFollowUp := [] }

def pushDeferred (item : DeferredItem) : Agent V :=
  { agent with
    deferred := agent.deferred ++ [item]
    ledger := { agent.ledger with pushed := agent.ledger.pushed ++ [item] } }

def drainDeferred : List DeferredItem × Agent V :=
  (agent.deferred,
    { agent with
      deferred := []
      ledger := { agent.ledger with drained := agent.ledger.drained ++ agent.deferred } })

/-- Empty content is not enqueued. -/
def enqueue (content : List (ContentBlock V)) : Agent V :=
  if content.isEmpty then agent
  else
    { agent with
      steering := agent.steering.setWaiting (agent.waiting queue ++ [content]) queue
      ledger := agent.ledger.setEntered (agent.ledger.entered queue ++ [content]) queue }

/-- Withdraw what still waits in a queue. -/
def clearQueue : Agent V :=
  { agent with
    steering := agent.steering.setWaiting [] queue
    ledger := agent.ledger.setEntered
      ((agent.ledger.entered queue).take
        ((agent.ledger.entered queue).length - (agent.waiting queue).length)) queue }

def receive : Arrival V → Agent V
  | .steer content => agent.enqueue .steer content
  | .followUp content => agent.enqueue .followUp content
  | .clearSteer => agent.clearQueue .steer
  | .clearFollowUp => agent.clearQueue .followUp
  | .setSteerMode mode => { agent with steering := { agent.steering with steerMode := mode } }
  | .setFollowUpMode mode =>
    { agent with steering := { agent.steering with followUpMode := mode } }
  | .deferred item => agent.pushDeferred item

/-! ## Subagents -/

def registerSubagent (summary : SpawnedAgentSummary) : Agent V :=
  match agent.subagents.findIdx? fun known => known.id = summary.id with
  | some position => { agent with subagents := agent.subagents.set position summary }
  | none => { agent with subagents := agent.subagents ++ [summary] }

def finishSubagent (id : String) (status : SpawnedAgentStatus) : Agent V :=
  match agent.subagents.findIdx? fun known => known.id = id with
  | some position =>
    { agent with
      subagents := agent.subagents.modify position fun summary => { summary with status } }
  | none => agent

/-- Apply a deferred item that settles a subagent. -/
def settleSubagent (id : String) (status : SpawnedAgentStatus) : Agent V :=
  let agent := agent.finishSubagent id status
  { agent with
    ledger :=
      { agent.ledger with
        settled := agent.ledger.settled ++ [.subagentFinished id status] } }

/-! ## Idling and paging -/

def takeIdleRequested : Bool × Agent V :=
  (agent.idleRequested, { agent with idleRequested := false })

/-- A later text under the same id hides the earlier one. -/
def recordPagedToolResult (toolUseId full : String) : Agent V :=
  { agent with pagedToolResults := (toolUseId, full) :: agent.pagedToolResults }

/-! ## The projected history -/

section Projection

variable [SerdeJson V]

def projectedToolResultHistory (agent : Agent V) : ProjectedToolResultHistory V :=
  (Memory.projectToolResultHistory agent.history agent.config.keepRecentToolResults
    agent.config.projectedToolResultBudget).get (by
      obtain ⟨result, projected, -⟩ := Memory.projectToolResultHistory_shape agent.history
        agent.config.keepRecentToolResults agent.config.projectedToolResultBudget
      rw [projected]
      rfl)

theorem projectedToolResultHistory_shape (agent : Agent V) :
    Memory.SameShape agent.history agent.projectedToolResultHistory.messages := by
  obtain ⟨result, projected, shape⟩ := Memory.projectToolResultHistory_shape agent.history
    agent.config.keepRecentToolResults agent.config.projectedToolResultBudget
  simp only [projectedToolResultHistory, projected, Option.get_some]
  exact shape

end Projection

/-- A teammate's short request opens with who it is. -/
def injectTeammateIdentity (messages : List (Message V)) : List (Message V) :=
  match agent.teammateIdentity with
  | none => messages
  | some identity =>
    if messages.length > 5 then messages
    else
      .user (.text ("<identity>You are teammate '" ++ agent.name ++ "' with role '" ++
        identity.role ++ "' on the team led by '" ++ identity.lead ++
        "'. Continue your assigned work and stay in character.</identity>")) ::
      .assistant (.text ("I am " ++ agent.name ++ ". Continuing.")) :: messages

/-! ## Compaction -/

section Compaction

variable [DecidableEq V]

def compactionRequest (agent : Agent V) : CompactionRequest V where
  transcript := agent.memory.state.transcript
  preserveRecentUserTokens := agent.config.preserveRecentUserTokens
  preserveRecentDelegationResults := agent.config.preserveRecentDelegationResults
  mode := agent.config.mode

variable (agent : Agent V)

/-- Put a compaction's transcript in place unless the journal moved on. -/
def applyCompaction (engine : CompactionEnv V) (baseRevision : Nat)
    (outcome : CompactionOutcome V) : Bool × Agent V :=
  match agent.memory.tryApplyCompaction baseRevision outcome.transcript with
  | (false, _) => (false, agent)
  | (true, memory) =>
    (true,
      { agent with
        memory
        ledger :=
          { agent.ledger.record .elsewhere
              (.compactionSummary engine.summaryId outcome.summary) with
            replaced := agent.ledger.replaced ++
              (Compaction.compactedItems agent.memory.state.transcript.items).diff
                (Compaction.salvaged engine agent.compactionRequest) } })

/-- `compact_history`; whether the transcript was replaced.  A store that fails
to save the new transcript leaves it in place. -/
def compactHistory (call : CompactionCall V) : Except RuntimeError Bool × Agent V :=
  if agent.history.isEmpty then (.ok false, agent)
  else
    let baseRevision := agent.memory.state.revision
    match call.selectTransport with
    | .error error => (.error error, agent)
    | .ok _ =>
      match Compaction.compact call.engine agent.compactionRequest with
      | .error error => (.error error, agent)
      | .ok none => (.ok false, agent)
      | .ok (some outcome) =>
        match call.emitProposed with
        | .error error => (.error error, agent)
        | .ok _ =>
          match agent.applyCompaction call.engine baseRevision outcome with
          | (false, agent) => (.ok false, agent)
          | (true, agent) => (call.save.map fun _ => true, agent)

/-- What a tool's action leaves of the agent. -/
def perform : ContextAction V → Agent V
  | .recordDelegationRequest id content delegation edge =>
    agent.appendTranscriptItem (delegationRequestEntry id content delegation edge)
  | .recordDelegationResult id content delegation edge =>
    agent.appendTranscriptItem (delegationResultEntry id content delegation edge)
  | .compactHistory call => (agent.compactHistory call).2
  | .registerSubagent summary => agent.registerSubagent summary
  | .finishSubagent id status => agent.finishSubagent id status
  | .requestIdle => { agent with idleRequested := true }
  | .pushDeferred item => agent.pushDeferred item

end Compaction

end Agent

end Mentra

import Mentra.Agent.Core

/-!
# What can happen to an agent

Every change to an agent is one of a few steps.  Three kinds are marked, so that a part of a
run can be said to take none of them: a turn is committed, the deferred queue is drained and
applied, a steering queue is taken from and delivered.

An invariant of runs is proved for each step once; `Moves` carries it over everything that
the queues, the tools and the compaction do.
-/

namespace Mentra

open List TranscriptItem

variable {V : Type}

/-- An entry holds what its source says. -/
def Recorded.Faithful (recorded : Recorded V) : Prop :=
  match recorded.source with
  | .elsewhere => True
  | .queued _ entries => recorded.entry.message = some ⟨.user, entries.flatten⟩
  | .deferred item => ∃ id, Agent.deferredEntry id item = some recorded.entry

namespace Agent

/-- The steps an account of a run may have to exclude. -/
inductive MarkedStep
  | turn
  | drain
  | take

/-- The transcript, the queues and the ledger are as before. -/
structure SameBooks (agent next : Agent V) : Prop where
  transcript : next.memory.state.transcript = agent.memory.state.transcript
  run : next.memory.state.run = agent.memory.state.run
  deferred : next.deferred = agent.deferred
  waiting : next.waiting = agent.waiting
  inflight : next.inflight = agent.inflight
  ledger : next.ledger = agent.ledger

/-- A turn's message was recorded by the run in progress. -/
structure RecordsTurn (item : TranscriptItem V) (agent next : Agent V) : Prop where
  transcript : next.memory.state.transcript = agent.memory.state.transcript.push item
  baseline : next.memory.state.run.map RunMemoryState.baselineTranscript =
    agent.memory.state.run.map RunMemoryState.baselineTranscript
  deferred : next.deferred = agent.deferred
  waiting : next.waiting = agent.waiting
  inflight : next.inflight = agent.inflight
  ledger : next.ledger = agent.ledger.record .elsewhere item

/-- Only the queues and the account of what was pushed to them differ. -/
structure QueuesOnly (agent next : Agent V) : Prop where
  memory : next.memory = agent.memory
  drained : next.ledger.drained = agent.ledger.drained
  settled : next.ledger.settled = agent.ledger.settled
  injected : next.ledger.injected = agent.ledger.injected
  recorded : next.ledger.recorded = agent.ledger.recorded
  replaced : next.ledger.replaced = agent.ledger.replaced

variable (agent : Agent V)

theorem queuesOnly_enqueue (queue : SteeringQueue)
    (content : List (ContentBlock V)) : QueuesOnly agent (agent.enqueue queue content) := by
  rw [enqueue]
  split
  · exact ⟨rfl, rfl, rfl, rfl, rfl, rfl⟩
  · cases queue with
    | steer | followUp => exact ⟨rfl, rfl, rfl, rfl, rfl, rfl⟩

theorem queuesOnly_receive (arrival : Arrival V) : QueuesOnly agent (agent.receive arrival) := by
  cases arrival with
  | steer content => exact queuesOnly_enqueue agent .steer content
  | followUp content => exact queuesOnly_enqueue agent .followUp content
  | clearSteer | clearFollowUp | setSteerMode mode
  | setFollowUpMode mode | deferred item => exact ⟨rfl, rfl, rfl, rfl, rfl, rfl⟩

theorem queuesOnly_drainQueue (queue : SteeringQueue) :
    QueuesOnly agent (agent.drainQueue queue).2 := by
  rw [drainQueue]
  dsimp only
  split
  · exact ⟨rfl, rfl, rfl, rfl, rfl, rfl⟩
  · cases queue with
    | steer | followUp => exact ⟨rfl, rfl, rfl, rfl, rfl, rfl⟩

/-- Only the subagent table and the account of what was settled differ. -/
structure TableOnly (agent next : Agent V) : Prop where
  memory : next.memory = agent.memory
  deferred : next.deferred = agent.deferred
  waiting : next.waiting = agent.waiting
  inflight : next.inflight = agent.inflight
  ledger : next.ledger = { agent.ledger with settled := next.ledger.settled }

theorem tableOnly_settleSubagent (id : String) (status : SpawnedAgentStatus) :
    TableOnly agent (agent.settleSubagent id status) ∧
      (agent.settleSubagent id status).ledger.settled =
        agent.ledger.settled ++ [.subagentFinished id status] := by
  unfold settleSubagent finishSubagent
  split
  · exact ⟨⟨rfl, rfl, rfl, rfl, rfl⟩, rfl⟩
  · exact ⟨⟨rfl, rfl, rfl, rfl, rfl⟩, rfl⟩

variable [DecidableEq V]

/-- One change to an agent; marked changes have to be allowed. -/
inductive Step (allowed : MarkedStep → Prop) : Agent V → Agent V → Prop
  | aside {agent next : Agent V} (same : SameBooks agent next) : Step allowed agent next
  | receive (agent : Agent V) (arrival : Arrival V) : Step allowed agent (agent.receive arrival)
  | note (agent : Agent V) (item : TranscriptItem V) (text : String)
      (message : item.message = some (.user (.text text))) :
      Step allowed agent (agent.appendTranscriptItem item)
  | inject (agent : Agent V) (id : EntryId) (content : List (ContentBlock V)) :
      Step allowed agent (agent.injectContent id content)
  | compact (agent : Agent V) (engine : CompactionEnv V) (outcome : CompactionOutcome V)
      (compacted : Compaction.compact engine agent.compactionRequest = .ok (some outcome)) :
      Step allowed agent (agent.applyCompaction engine agent.memory.state.revision outcome).2
  | turn {agent next : Agent V} (isAllowed : allowed .turn) (item : TranscriptItem V)
      (records : RecordsTurn item agent next) : Step allowed agent next
  | drain (isAllowed : allowed .drain) (agent : Agent V) : Step allowed agent agent.drainDeferred.2
  | settle (isAllowed : allowed .drain) (agent : Agent V) (id : String)
      (status : SpawnedAgentStatus) : Step allowed agent (agent.settleSubagent id status)
  | apply (isAllowed : allowed .drain) (agent : Agent V) (id : EntryId) (item : DeferredItem)
      (entry : TranscriptItem V) (leaves : deferredEntry id item = some entry) :
      Step allowed agent (agent.appendTranscriptItem entry (.deferred item))
  | take (isAllowed : allowed .take) (agent : Agent V) (queue : SteeringQueue) :
      Step allowed agent (agent.drainQueue queue).2
  | deliver (isAllowed : allowed .take) (agent : Agent V) (id : EntryId) (queue : SteeringQueue)
      (entries : List (List (ContentBlock V))) :
      Step allowed agent (agent.injectContent id entries.flatten (.queued queue entries))

/-- Sources whose entries only the marked steps record. -/
def SourceAllowed (allowed : MarkedStep → Prop) : Source V → Prop
  | .elsewhere => True
  | .queued _ _ => allowed .take
  | .deferred _ => allowed .drain

/-- What a step does to the transcript and to the account of it. -/
inductive Effect (allowed : MarkedStep → Prop) (agent next : Agent V) : Prop
  | quiet (transcript : next.memory.state.transcript = agent.memory.state.transcript)
      (recorded : next.ledger.recorded = agent.ledger.recorded)
      (replaced : next.ledger.replaced = agent.ledger.replaced)
  | records (last : Recorded V)
      (transcript : next.memory.state.transcript = agent.memory.state.transcript.push last.entry)
      (recorded : next.ledger.recorded = agent.ledger.recorded ++ [last])
      (replaced : next.ledger.replaced = agent.ledger.replaced) (faithful : last.Faithful)
      (isAllowed : SourceAllowed allowed last.source)
      (spoken : allowed .turn ∨ (∃ text, last.entry.message = some (.user (.text text))) ∨
        ∃ content ∈ next.ledger.injected, last.entry.message = some ⟨.user, content⟩)
  | compacts (engine : CompactionEnv V) (outcome : CompactionOutcome V)
      (compacted : Compaction.compact engine agent.compactionRequest = .ok (some outcome))
      (isNext : next = (agent.applyCompaction engine agent.memory.state.revision outcome).2)

section Effects

variable {allowed : MarkedStep → Prop} {agent next : Agent V}

theorem Effect.of_queuesOnly (same : QueuesOnly agent next) : Effect allowed agent next :=
  .quiet (congrArg (·.state.transcript) same.memory) same.recorded same.replaced

theorem Effect.of_inject {id : EntryId} {content : List (ContentBlock V)} {source : Source V}
    (faithful : Recorded.Faithful ⟨source, .ofMessage id ⟨.user, content⟩⟩)
    (isAllowed : SourceAllowed allowed source) :
    Effect allowed agent (agent.injectContent id content source) :=
  .records ⟨source, .ofMessage id ⟨.user, content⟩⟩ rfl rfl rfl faithful isAllowed
    (.inr (.inr ⟨content, mem_append_right _ mem_cons_self, ofMessage_message id _⟩))

/-- A step keeps the baseline of the run in progress, and what hosts entered. -/
theorem Step.effect (step : Step allowed agent next) :
    next.memory.state.run.map RunMemoryState.baselineTranscript =
        agent.memory.state.run.map RunMemoryState.baselineTranscript ∧
      agent.ledger.injected ⊆ next.ledger.injected ∧ Effect allowed agent next := by
  cases step with
  | aside same =>
    exact ⟨congrArg _ same.run, same.ledger ▸ Subset.refl _, .quiet same.transcript
      (congrArg (·.recorded) same.ledger) (congrArg (·.replaced) same.ledger)⟩
  | receive _ arrival =>
    have same := queuesOnly_receive agent arrival
    exact ⟨by rw [same.memory], same.injected ▸ Subset.refl _, .of_queuesOnly same⟩
  | note _ item text message =>
    exact ⟨rfl, Subset.refl _, .records ⟨.elsewhere, item⟩ rfl rfl rfl trivial trivial
      (.inr (.inl ⟨text, message⟩))⟩
  | inject _ id content =>
    exact ⟨rfl, subset_append_left _ _, .of_inject trivial trivial⟩
  | compact _ engine outcome compacted =>
    refine ⟨?_, ?_, .compacts engine outcome compacted rfl⟩
    · rw [applyCompaction, AgentMemory.tryApplyCompaction, if_pos rfl]
      rfl
    · rw [applyCompaction, AgentMemory.tryApplyCompaction, if_pos rfl]
      exact Subset.refl _
  | turn isAllowed item records =>
    exact ⟨records.baseline, records.ledger ▸ Subset.refl _, .records ⟨.elsewhere, item⟩
      records.transcript (congrArg (·.recorded) records.ledger)
      (congrArg (·.replaced) records.ledger) trivial trivial (.inl isAllowed)⟩
  | drain isAllowed => exact ⟨rfl, Subset.refl _, .quiet rfl rfl rfl⟩
  | settle isAllowed _ id status =>
    have same := (tableOnly_settleSubagent agent id status).1
    refine ⟨by rw [same.memory], ?_, .quiet (congrArg (·.state.transcript) same.memory)
      (congrArg (·.recorded) same.ledger) (congrArg (·.replaced) same.ledger)⟩
    rw [same.ledger]
    exact Subset.refl _
  | apply isAllowed _ id item entry leaves =>
    exact ⟨rfl, Subset.refl _, .records ⟨.deferred item, entry⟩ rfl rfl rfl ⟨id, leaves⟩ isAllowed
      (.inr (.inl (deferredEntry_message leaves)))⟩
  | take isAllowed _ queue =>
    have same := queuesOnly_drainQueue agent queue
    exact ⟨by rw [same.memory], same.injected ▸ Subset.refl _, .of_queuesOnly same⟩
  | deliver isAllowed _ id queue entries =>
    exact ⟨rfl, subset_append_left _ _, .of_inject (ofMessage_message id _) isAllowed⟩

end Effects

/-- Any number of steps. -/
def Moves (allowed : MarkedStep → Prop) : Agent V → Agent V → Prop :=
  Relation.ReflTransGen (Step allowed)

namespace Moves

variable {allowed : MarkedStep → Prop}

theorem refl (agent : Agent V) : Moves allowed agent agent :=
  Relation.ReflTransGen.refl

theorem trans {first second third : Agent V} (left : Moves allowed first second)
    (right : Moves allowed second third) : Moves allowed first third :=
  Relation.ReflTransGen.trans left right

theorem single {agent next : Agent V} (step : Step allowed agent next) : Moves allowed agent next :=
  Relation.ReflTransGen.single step

theorem foldl {α : Type} {change : Agent V → α → Agent V}
    (moves : ∀ agent action, Moves allowed agent (change agent action)) (agent : Agent V)
    (actions : List α) : Moves allowed agent (actions.foldl change agent) := by
  induction actions generalizing agent with
  | nil => exact refl agent
  | cons action actions ih => exact (moves agent action).trans (ih (change agent action))

end Moves

section Operations

variable (allowed : MarkedStep → Prop)

/-! ## Subagents, idling and paging -/

variable (agent : Agent V)

theorem moves_registerSubagent (summary : SpawnedAgentSummary) :
    Moves allowed agent (agent.registerSubagent summary) := by
  rw [registerSubagent]
  split
  · exact .single (.aside ⟨rfl, rfl, rfl, rfl, rfl, rfl⟩)
  · exact .single (.aside ⟨rfl, rfl, rfl, rfl, rfl, rfl⟩)

/-! ## Compaction and tools -/

theorem moves_compactHistory (call : CompactionCall V) :
    Moves allowed agent (agent.compactHistory call).2 := by
  unfold compactHistory
  split
  · exact .refl agent
  · dsimp only
    split
    · exact .refl agent
    · split
      · exact .refl agent
      · exact .refl agent
      · rename_i outcome compacted
        split
        · exact .refl agent
        · have moved : Step allowed agent _ := .compact agent call.engine outcome compacted
          split
          · rename_i applied
            rw [applied] at moved
            exact .single moved
          · rename_i applied
            rw [applied] at moved
            exact .single moved

theorem moves_perform (action : ContextAction V) : Moves allowed agent (agent.perform action) := by
  cases action with
  | recordDelegationRequest id content delegation edge
  | recordDelegationResult id content delegation edge =>
    exact .single (.note agent _ content rfl)
  | compactHistory call => exact moves_compactHistory allowed agent call
  | registerSubagent summary => exact moves_registerSubagent allowed agent summary
  | finishSubagent id status =>
    rw [perform, finishSubagent]
    split
    · exact .single (.aside ⟨rfl, rfl, rfl, rfl, rfl, rfl⟩)
    · exact .refl agent
  | requestIdle => exact .single (.aside ⟨rfl, rfl, rfl, rfl, rfl, rfl⟩)
  | pushDeferred item => exact .single (.receive agent (.deferred item))

end Operations

end Agent

end Mentra

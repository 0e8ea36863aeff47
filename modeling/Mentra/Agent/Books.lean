import Mentra.Agent.Steps
import Mentra.Compaction.Pairing

/-!
# The books of an agent

What the ledger says about the queues and the transcript:

* The entries of the transcript and those that compactions summarized are the ones recorded.
* What was pushed to a steering queue is what earlier runs delivered, what the run in
  progress took, and what still waits, in this order.
* What was pushed to the deferred queue waits, was applied, or is being applied.

That the entries a run took are delivered, and that no deferred item is on its way, holds
across the steps that do not take from the queue in question; the rest across all.
-/

namespace Mentra

open Foundation Function List AgentMemory Compaction

variable {V : Type}

/-- An entry without its link, which appending and compacting rewrite. -/
def TranscriptItem.unlinked (item : TranscriptItem V) : TranscriptItem V :=
  { item with parentId := none }

/-- The entries of a queue that a source stands for. -/
def Source.fromQueue (queue : SteeringQueue) : Source V → List (List (ContentBlock V))
  | .queued source entries => if source = queue then entries else []
  | _ => []

namespace Recorded

/-- The deferred item an entry of the transcript was left by. -/
def deferred? (recorded : Recorded V) : Option DeferredItem :=
  match recorded.source with
  | .deferred item => some item
  | _ => none

end Recorded

namespace Agent

/-- The queue entries on the transcript or summarized since, as they got there. -/
def delivered (agent : Agent V) (queue : SteeringQueue) : List (List (ContentBlock V)) :=
  agent.ledger.recorded.flatMap fun recorded => recorded.source.fromQueue queue

/-- The deferred items on the transcript or summarized since. -/
def applied (agent : Agent V) : List DeferredItem :=
  agent.ledger.recorded.filterMap Recorded.deferred?

/-- Nothing was pushed to the queues yet. -/
structure Fresh (agent : Agent V) : Prop where
  ledger : agent.ledger = {}
  deferred : agent.deferred = []
  inflight : ∀ queue, agent.inflight queue = []
  waiting : ∀ queue, agent.waiting queue = []

/-- The active path and the entries summarized are those recorded on top of
`base`. -/
structure RecordKept (base : List (TranscriptItem V)) (agent : Agent V) : Prop where
  entries : ((agent.memory.state.transcript.items ++ agent.ledger.replaced).map
    TranscriptItem.unlinked).Perm
      ((base ++ agent.ledger.recorded.map Recorded.entry).map TranscriptItem.unlinked)
  faithful : ∀ recorded ∈ agent.ledger.recorded, recorded.Faithful

namespace RecordKept

variable {base : List (TranscriptItem V)} {agent next : Agent V}

theorem of_same (kept : agent.RecordKept base)
    (items : next.memory.state.transcript.items = agent.memory.state.transcript.items)
    (recorded : next.ledger.recorded = agent.ledger.recorded)
    (replaced : next.ledger.replaced = agent.ledger.replaced) : next.RecordKept base := by
  constructor
  · rw [items, recorded, replaced]
    exact kept.entries
  · rw [recorded]
    exact kept.faithful

variable [DecidableEq V]

theorem push (kept : agent.RecordKept base) {item : TranscriptItem V} {source : Source V}
    (transcript : next.memory.state.transcript = agent.memory.state.transcript.push item)
    (recorded : next.ledger.recorded = agent.ledger.recorded ++ [⟨source, item⟩])
    (replaced : next.ledger.replaced = agent.ledger.replaced)
    (faithful : (⟨source, item⟩ : Recorded V).Faithful) : next.RecordKept base := by
  constructor
  · rw [transcript, recorded, replaced, perm_iff_count]
    intro entry
    have before := perm_iff_count.mp kept.entries entry
    simp only [AgentTranscript.push, map_append, count_append, map_cons, map_nil] at before ⊢
    have sameEntry : ({ item with parentId := agent.memory.state.transcript.leaf } :
        TranscriptItem V).unlinked = item.unlinked := rfl
    rw [sameEntry]
    omega
  · rw [recorded]
    intro other mem
    rcases mem_append.mp mem with old | new
    · exact kept.faithful other old
    · rw [mem_singleton.mp new]
      exact faithful

omit [DecidableEq V] in
theorem map_unlinked_linkFrom (previous : Option EntryId) (items : List (TranscriptItem V)) :
    (AgentTranscript.linkFrom previous items).map TranscriptItem.unlinked =
      items.map TranscriptItem.unlinked := by
  induction items generalizing previous with
  | nil => rfl
  | cons item items ih =>
    rw [AgentTranscript.linkFrom, map_cons, map_cons, ih]
    split
    · rfl
    · rfl

/-- A compaction moves entries from the path to the summarized ones and records
its summary. -/
theorem compact (kept : agent.RecordKept base) {engine : CompactionEnv V}
    {outcome : CompactionOutcome V}
    (compacted : compact engine agent.compactionRequest = .ok (some outcome)) :
    (agent.applyCompaction engine agent.memory.state.revision outcome).2.RecordKept base := by
  obtain ⟨-, transcript⟩ := compact_eq_some compacted
  have items : (outcome.transcript.items).map TranscriptItem.unlinked =
      (replacement engine agent.compactionRequest outcome.summary).map TranscriptItem.unlinked := by
    rw [transcript]
    exact map_unlinked_linkFrom none _
  rw [applyCompaction, tryApplyCompaction, if_pos rfl]
  constructor
  · rw [perm_iff_count]
    intro entry
    have before := perm_iff_count.mp kept.entries entry
    have cut := congrArg (List.count entry ∘ List.map TranscriptItem.unlinked)
      (take_append_drop (tailStart agent.memory.state.transcript.items)
        agent.memory.state.transcript.items)
    have salvage := perm_iff_count.mp ((salvaged_append_diff engine
      agent.compactionRequest).map TranscriptItem.unlinked) entry
    have same : agent.compactionRequest.transcript = agent.memory.state.transcript := rfl
    simp only [replacement, compactedItems, same, comp_apply,
      map_append, map_cons, map_nil, count_append] at before cut salvage items
    simp only [synchronize, persistState, Ledger.record, map_append,
      map_cons, map_nil, count_append, items, compactedItems]
    omega
  · intro other mem
    rcases mem_append.mp mem with old | new
    · exact kept.faithful other old
    · rw [mem_singleton.mp new]
      trivial

variable {allowed : MarkedStep → Prop}

theorem step (step : Step allowed agent next) (kept : agent.RecordKept base) :
    next.RecordKept base := by
  cases step.effect.2.2 with
  | quiet transcript recorded replaced =>
    exact kept.of_same (congrArg (·.items) transcript) recorded replaced
  | records last transcript recorded replaced faithful =>
    exact kept.push transcript recorded replaced faithful
  | compacts engine outcome compacted isNext =>
    rw [isNext]
    exact kept.compact compacted

end RecordKept

theorem Fresh.recordKept {agent : Agent V} (fresh : agent.Fresh) :
    agent.RecordKept agent.memory.state.transcript.items := by
  have entries : agent.memory.state.transcript.items ++ agent.ledger.replaced =
      agent.memory.state.transcript.items ++ agent.ledger.recorded.map Recorded.entry := by
    rw [fresh.ledger]
    rfl
  constructor
  · exact .of_eq (congrArg _ entries)
  · rw [fresh.ledger]
    exact fun _ mem => absurd mem not_mem_nil

/-! ## The run in progress -/

/-- A run is in progress that would be rolled back to `baseline`. -/
def RunsFrom (baseline : AgentTranscript V) (agent : Agent V) : Prop :=
  agent.memory.state.run.map RunMemoryState.baselineTranscript = some baseline

section Steps

variable {allowed : MarkedStep → Prop} {agent next : Agent V}

/-- The record is kept in a run that would be rolled back to `baseline`. -/
structure Recording (base : List (TranscriptItem V)) (baseline : AgentTranscript V)
    (agent : Agent V) : Prop where
  record : agent.RecordKept base
  runs : agent.RunsFrom baseline

theorem Recording.moves [DecidableEq V] {base : List (TranscriptItem V)}
    {baseline : AgentTranscript V}
    (moves : Moves allowed agent next) (recording : agent.Recording base baseline) :
    next.Recording base baseline := by
  induction moves with
  | refl => exact recording
  | tail _ step ih => exact ⟨ih.record.step step, step.effect.1.trans ih.runs⟩

/-! ## The steering queues -/

/-- What was pushed to the queues is what was delivered `before`, what the run in
progress took, and what waits. -/
def TakenInOrder (before : SteeringQueue → List (List (ContentBlock V))) (agent : Agent V) : Prop :=
  ∀ queue, agent.ledger.entered queue = before queue ++ agent.inflight queue ++ agent.waiting queue

/-- What the run in progress took is delivered, or is what is `coming` next. -/
def InflightDelivered (before : SteeringQueue → List (List (ContentBlock V))) (coming : Source V)
    (agent : Agent V) : Prop :=
  ∀ queue, agent.delivered queue ++ coming.fromQueue queue = before queue ++ agent.inflight queue

variable {before : SteeringQueue → List (List (ContentBlock V))}

section

variable (taken : agent.TakenInOrder before)
include taken

theorem TakenInOrder.of_same (entered : next.ledger.entered = agent.ledger.entered)
    (inflight : next.inflight = agent.inflight) (waiting : next.waiting = agent.waiting) :
    next.TakenInOrder before := by
  rw [TakenInOrder, entered, inflight, waiting]
  exact taken

/-- Only what concerns one queue has to be looked at when only that changed. -/
theorem TakenInOrder.of_update (queue : SteeringQueue)
    {entered inflight waiting : List (List (ContentBlock V))}
    (enteredThere : next.ledger.entered = update agent.ledger.entered queue entered)
    (inflightThere : next.inflight = update agent.inflight queue inflight)
    (waitingThere : next.waiting = update agent.waiting queue waiting)
    (inOrder : entered = before queue ++ inflight ++ waiting) : next.TakenInOrder before := by
  intro other
  rw [enteredThere, inflightThere, waitingThere]
  by_cases same : other = queue
  · rw [same, update_self, update_self, update_self]
    exact inOrder
  · rw [update_of_ne same, update_of_ne same, update_of_ne same]
    exact taken other

theorem TakenInOrder.enqueue (queue : SteeringQueue)
    (content : List (ContentBlock V)) : (agent.enqueue queue content).TakenInOrder before := by
  rw [Agent.enqueue]
  split
  · exact taken
  · refine taken.of_update queue (Ledger.entered_setEntered _ _ _)
      (update_eq_self queue agent.inflight).symm
      (SteeringQueues.waiting_setWaiting _ _ _) ?_
    rw [taken queue, append_assoc]

theorem TakenInOrder.clearQueue (queue : SteeringQueue) :
    (agent.clearQueue queue).TakenInOrder before := by
  refine taken.of_update queue (Ledger.entered_setEntered _ _ _)
    (update_eq_self queue agent.inflight).symm
    (SteeringQueues.waiting_setWaiting _ _ _) ?_
  rw [taken queue, length_append, Nat.add_sub_cancel, take_left, append_nil]

theorem TakenInOrder.receive (arrival : Arrival V) :
    (agent.receive arrival).TakenInOrder before := by
  cases arrival with
  | steer content => exact taken.enqueue .steer content
  | followUp content => exact taken.enqueue .followUp content
  | clearSteer => exact taken.clearQueue .steer
  | clearFollowUp => exact taken.clearQueue .followUp
  | setSteerMode mode | setFollowUpMode mode | deferred item => exact taken.of_same rfl rfl rfl

end

theorem drainQueue_cases (agent : Agent V) (queue : SteeringQueue) :
    agent.drainQueue queue = (none, agent) ∨
      ∃ entries rest next, agent.drainQueue queue = (some entries, next) ∧
        agent.waiting queue = entries ++ rest ∧ next.ledger = agent.ledger ∧
        next.waiting = update agent.waiting queue rest ∧
        next.inflight = update agent.inflight queue (agent.inflight queue ++ entries) := by
  have front := QueueMode.drain_append (agent.steering.mode queue) (agent.waiting queue)
  rw [drainQueue]
  generalize (agent.steering.mode queue).drain (agent.waiting queue) = drained at front
  obtain ⟨entries, rest⟩ := drained
  dsimp only
  split
  · exact .inl rfl
  · refine .inr ⟨entries, rest, _, rfl, front.symm, ?_, ?_, inflight_setInflight _ _ _⟩
    · cases queue <;> rfl
    · have kept : ({ agent with steering := agent.steering.setWaiting rest queue }.setInflight
          (agent.inflight queue ++ entries) queue).waiting =
          (agent.steering.setWaiting rest queue).waiting := by
        cases queue <;> rfl
      rw [kept]
      exact SteeringQueues.waiting_setWaiting _ _ _

theorem TakenInOrder.step [DecidableEq V] (step : Step allowed agent next)
    (taken : agent.TakenInOrder before) :
    next.TakenInOrder before := by
  cases step with
  | aside same =>
    exact taken.of_same (congrArg Ledger.entered same.ledger) same.inflight same.waiting
  | receive _ arrival => exact taken.receive arrival
  | note _ | inject _ | drain _ | apply _ | deliver _ => exact taken.of_same rfl rfl rfl
  | compact _ engine outcome compacted =>
    rw [applyCompaction, tryApplyCompaction, if_pos rfl]
    exact taken.of_same rfl rfl rfl
  | turn isAllowed item records =>
    have entered : next.ledger.entered = agent.ledger.entered := by
      rw [records.ledger]
      rfl
    exact taken.of_same entered records.inflight records.waiting
  | settle isAllowed _ id status =>
    have same := (tableOnly_settleSubagent agent id status).1
    have entered : (agent.settleSubagent id status).ledger.entered = agent.ledger.entered := by
      rw [same.ledger]
      rfl
    exact taken.of_same entered same.inflight same.waiting
  | take isAllowed _ queue =>
    rcases drainQueue_cases agent queue with empty |
      ⟨entries, rest, next, drained, front, ledger, waiting, inflight⟩
    · rw [empty]
      exact taken
    · have entered : next.ledger.entered =
          update agent.ledger.entered queue (agent.ledger.entered queue) := by
        rw [ledger, update_eq_self]
      rw [drained]
      refine taken.of_update queue entered inflight waiting ?_
      rw [taken queue, front]
      simp only [append_assoc]

theorem receive_inflight (agent : Agent V) (arrival : Arrival V) :
    (agent.receive arrival).inflight = agent.inflight := by
  have enqueued (queue : SteeringQueue) (content : List (ContentBlock V)) :
      (agent.enqueue queue content).inflight = agent.inflight := by
    rw [enqueue]
    split
    · rfl
    · rfl
  cases arrival with
  | steer content => exact enqueued .steer content
  | followUp content => exact enqueued .followUp content
  | _ => rfl

theorem Step.recorded_cases [DecidableEq V] (step : Step allowed agent next) :
    next.ledger.recorded = agent.ledger.recorded ∨
      ∃ last, next.ledger.recorded = agent.ledger.recorded ++ [last] ∧
        SourceAllowed allowed last.source := by
  cases step.effect.2.2 with
  | quiet transcript recorded replaced => exact .inl recorded
  | records last transcript recorded replaced faithful isAllowed =>
    exact .inr ⟨last, recorded, isAllowed⟩
  | compacts engine outcome compacted isNext =>
    rw [isNext, applyCompaction, tryApplyCompaction, if_pos rfl]
    exact .inr ⟨_, rfl, trivial⟩

theorem Step.delivered [DecidableEq V] (step : Step allowed agent next) (noTake : ¬ allowed .take)
    (queue : SteeringQueue) : next.delivered queue = agent.delivered queue := by
  rw [Agent.delivered, Agent.delivered]
  rcases step.recorded_cases with same | ⟨⟨source, entry⟩, last, isAllowed⟩
  · rw [same]
  · have none : source.fromQueue queue = [] := by
      cases source with
      | queued other entries => exact absurd isAllowed noTake
      | _ => rfl
    rw [last, flatMap_append, flatMap_singleton, none, append_nil]

theorem Step.applied [DecidableEq V] (step : Step allowed agent next) (noDrain : ¬ allowed .drain) :
    next.applied = agent.applied := by
  rw [Agent.applied, Agent.applied]
  rcases step.recorded_cases with same | ⟨⟨source, entry⟩, last, isAllowed⟩
  · rw [same]
  · have none : (⟨source, entry⟩ : Recorded V).deferred? = none := by
      cases source with
      | deferred item => exact absurd isAllowed noDrain
      | _ => rfl
    rw [last, filterMap_append, filterMap_cons_none none, filterMap_nil, append_nil]

theorem Step.inflight [DecidableEq V] (step : Step allowed agent next) (noTake : ¬ allowed .take) :
    next.inflight = agent.inflight := by
  cases step with
  | aside same => exact same.inflight
  | receive _ arrival => exact receive_inflight agent arrival
  | compact _ engine outcome compacted =>
    rw [applyCompaction, tryApplyCompaction, if_pos rfl]
    rfl
  | turn isAllowed item records => exact records.inflight
  | settle isAllowed _ id status => exact (tableOnly_settleSubagent agent id status).1.inflight
  | take isAllowed | deliver isAllowed => exact absurd isAllowed noTake
  | _ => rfl

theorem InflightDelivered.step [DecidableEq V] {coming : Source V} (step : Step allowed agent next)
    (noTake : ¬ allowed .take) (delivered : agent.InflightDelivered before coming) :
    next.InflightDelivered before coming := by
  intro queue
  rw [step.delivered noTake, step.inflight noTake]
  exact delivered queue

theorem InflightDelivered.record {source : Source V} {entry : TranscriptItem V}
    (coming : agent.InflightDelivered before source)
    (recorded : next.ledger.recorded = agent.ledger.recorded ++ [⟨source, entry⟩])
    (inflight : next.inflight = agent.inflight) : next.InflightDelivered before .elsewhere := by
  intro queue
  rw [inflight, ← coming queue, delivered, recorded, flatMap_append, flatMap_singleton]
  exact append_nil _

/-- What is taken from a queue is what is coming next. -/
theorem InflightDelivered.take {entries : List (List (ContentBlock V))} {queue : SteeringQueue}
    (delivered : agent.InflightDelivered before .elsewhere) (ledger : next.ledger = agent.ledger)
    (inflight : next.inflight = update agent.inflight queue (agent.inflight queue ++ entries)) :
    next.InflightDelivered before (.queued queue entries) := by
  intro other
  have earlier : agent.delivered other ++ [] = before other ++ agent.inflight other :=
    delivered other
  rw [append_nil] at earlier
  have same : next.delivered other = agent.delivered other := by
    rw [Agent.delivered, ledger]
    rfl
  rw [same, earlier, inflight, Source.fromQueue]
  split
  · rename_i here
    rw [here, update_self, append_assoc]
  · rename_i elsewhere
    rw [update_of_ne (Ne.symm elsewhere), append_nil]

/-! ## The deferred queue -/

/-- What had become of the deferred items when a run opened. -/
structure Accounts where
  applied : List DeferredItem
  settled : List DeferredItem
  lost : List DeferredItem

/-- What was pushed to the deferred queue waits, was applied, has settled a subagent, is being
applied (`pending`) or was lost before.  What the run took it has applied or settled, or it is
being applied. -/
structure Deferrals (before : Accounts) (pending : List DeferredItem) (agent : Agent V) :
    Prop where
  pushed : agent.ledger.pushed.Perm
    (agent.deferred ++ agent.applied ++ agent.ledger.settled ++ pending ++ before.lost)
  taken : ∃ applied settled, agent.applied = before.applied ++ applied ∧
    agent.ledger.settled = before.settled ++ settled ∧
    agent.ledger.drained.Perm (applied ++ settled ++ pending)

theorem receive_deferred (agent : Agent V) (arrival : Arrival V) :
    ∃ arrived, (agent.receive arrival).ledger.pushed = agent.ledger.pushed ++ arrived ∧
      (agent.receive arrival).deferred = agent.deferred ++ arrived := by
  have enqueued (queue : SteeringQueue) (content : List (ContentBlock V)) :
      ∃ arrived, (agent.enqueue queue content).ledger.pushed = agent.ledger.pushed ++ arrived ∧
        (agent.enqueue queue content).deferred = agent.deferred ++ arrived := by
    refine ⟨[], ?_⟩
    rw [append_nil, append_nil, enqueue]
    split
    · exact ⟨rfl, rfl⟩
    · cases queue <;> exact ⟨rfl, rfl⟩
  cases arrival with
  | steer content => exact enqueued .steer content
  | followUp content => exact enqueued .followUp content
  | deferred item => exact ⟨[item], rfl, rfl⟩
  | _ => exact ⟨[], (append_nil _).symm, (append_nil _).symm⟩

/-- Across a step that does not drain it, the deferred queue only grows. -/
structure DeferredGrows (agent next : Agent V) : Prop where
  drained : next.ledger.drained = agent.ledger.drained
  settled : next.ledger.settled = agent.ledger.settled
  arrived : ∃ arrived, next.ledger.pushed = agent.ledger.pushed ++ arrived ∧
    next.deferred = agent.deferred ++ arrived

theorem DeferredGrows.of_ledger (deferred : next.deferred = agent.deferred)
    (drained : next.ledger.drained = agent.ledger.drained)
    (settled : next.ledger.settled = agent.ledger.settled)
    (pushed : next.ledger.pushed = agent.ledger.pushed) : DeferredGrows agent next :=
  ⟨drained, settled, [], by rw [pushed, append_nil], by rw [deferred, append_nil]⟩

theorem Step.deferredGrows [DecidableEq V] (step : Step allowed agent next)
    (noDrain : ¬ allowed .drain) :
    DeferredGrows agent next := by
  cases step with
  | aside same =>
    exact .of_ledger same.deferred (congrArg (·.drained) same.ledger)
      (congrArg (·.settled) same.ledger) (congrArg (·.pushed) same.ledger)
  | receive _ arrival =>
    have same := queuesOnly_receive agent arrival
    exact ⟨same.drained, same.settled, receive_deferred agent arrival⟩
  | note _ item text message | inject _ id content => exact .of_ledger rfl rfl rfl rfl
  | compact _ engine outcome compacted =>
    rw [applyCompaction, tryApplyCompaction, if_pos rfl]
    exact .of_ledger rfl rfl rfl rfl
  | turn isAllowed item records =>
    exact .of_ledger records.deferred (congrArg (·.drained) records.ledger)
      (congrArg (·.settled) records.ledger) (congrArg (·.pushed) records.ledger)
  | drain isAllowed | settle isAllowed | apply isAllowed => exact absurd isAllowed noDrain
  | take isAllowed _ queue =>
    rw [drainQueue]
    dsimp only
    split
    · exact .of_ledger rfl rfl rfl rfl
    · cases queue <;> exact .of_ledger rfl rfl rfl rfl
  | deliver isAllowed => exact .of_ledger rfl rfl rfl rfl

variable {before : Accounts} {pending : List DeferredItem}

theorem Deferrals.step [DecidableEq V] (step : Step allowed agent next) (noDrain : ¬ allowed .drain)
    (deferrals : agent.Deferrals before pending) : next.Deferrals before pending := by
  have applied := step.applied noDrain
  obtain ⟨drained, settled, arrived, pushed, deferred⟩ := step.deferredGrows noDrain
  constructor
  · rw [applied, settled, pushed, deferred, perm_iff_count]
    intro item
    have earlier := perm_iff_count.mp deferrals.pushed item
    simp only [count_append] at earlier ⊢
    omega
  · rw [drained, applied, settled]
    exact deferrals.taken

/-- What is drained is about to be applied. -/
theorem Deferrals.drain (deferrals : agent.Deferrals before []) :
    agent.drainDeferred.2.Deferrals before agent.drainDeferred.1 := by
  obtain ⟨pushed, applied, settled, isApplied, isSettled, taken⟩ := deferrals
  constructor
  · rw [perm_iff_count]
    intro item
    have earlier := perm_iff_count.mp pushed item
    simp only [drainDeferred, Agent.applied, count_append, count_nil] at earlier ⊢
    omega
  · rw [append_nil] at taken
    exact ⟨applied, settled, isApplied, isSettled, taken.append_right agent.deferred⟩

theorem Deferrals.settle {id : String} {status : SpawnedAgentStatus}
    (deferrals : agent.Deferrals before (.subagentFinished id status :: pending)) :
    (agent.settleSubagent id status).Deferrals before pending := by
  obtain ⟨pushed, applied, settled, isApplied, isSettled, taken⟩ := deferrals
  obtain ⟨same, settledNow⟩ := tableOnly_settleSubagent agent id status
  have sameApplied : (agent.settleSubagent id status).applied = agent.applied := by
    rw [Agent.applied, same.ledger]
    rfl
  have samePushed : (agent.settleSubagent id status).ledger.pushed = agent.ledger.pushed :=
    congrArg (·.pushed) same.ledger
  have drained : (agent.settleSubagent id status).ledger.drained = agent.ledger.drained :=
    congrArg (·.drained) same.ledger
  constructor
  · rw [sameApplied, settledNow, samePushed, same.deferred, perm_iff_count]
    intro item
    have earlier := perm_iff_count.mp pushed item
    simp only [count_append, count_cons, count_nil] at earlier ⊢
    omega
  · refine ⟨applied, settled ++ [.subagentFinished id status], ?_, ?_, ?_⟩
    · rw [sameApplied, isApplied]
    · rw [settledNow, isSettled, append_assoc]
    · rw [drained]
      simpa using taken

theorem Deferrals.apply {item : DeferredItem} {entry : TranscriptItem V}
    (deferrals : agent.Deferrals before (item :: pending)) :
    (agent.appendTranscriptItem entry (.deferred item)).Deferrals before pending := by
  obtain ⟨pushed, applied, settled, isApplied, isSettled, taken⟩ := deferrals
  have last : (agent.appendTranscriptItem entry (.deferred item)).applied =
      agent.applied ++ [item] := by
    simp [Agent.applied, appendTranscriptItem, Ledger.record, Recorded.deferred?]
  constructor
  · rw [last, perm_iff_count]
    intro other
    have earlier := perm_iff_count.mp pushed other
    simp only [appendTranscriptItem, Ledger.record, count_append, count_cons,
      count_nil] at earlier ⊢
    omega
  · refine ⟨applied ++ [item], settled, ?_, isSettled, ?_⟩
    · rw [last, isApplied, append_assoc]
    · rw [perm_iff_count]
      intro other
      have earlier := perm_iff_count.mp taken other
      simp only [appendTranscriptItem, Ledger.record, count_append, count_cons, count_nil]
        at earlier ⊢
      omega

end Steps

end Agent

end Mentra

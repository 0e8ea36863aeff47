import Mentra.Runner.Lifecycle

/-!
# Deliveries of the steering queues

In the middle of a run the entries it took stand between those delivered before and those that
wait.  A run that finishes has delivered them; a run that is rolled back puts them in front of
the queue again.  Either way the entries pushed are the delivered ones followed by the waiting
ones.
-/

namespace Mentra

open Foundation Transition Program
open Foundation.Program (Keeps)
open Foundation.Transition (Reachable)

variable {V : Type}

namespace Agent

/-- In the middle of a run that started from `baseline`, before which `before`
had been delivered. -/
structure Going (base : List (TranscriptItem V))
    (before : SteeringQueue → List (List (ContentBlock V))) (baseline : AgentTranscript V)
    (coming : Source V) (agent : Agent V) : Prop where
  recording : agent.Recording base baseline
  taken : agent.TakenInOrder before
  delivered : agent.InflightDelivered before coming

/-- A run failed; what it took may not be delivered. -/
structure Stopped (before : SteeringQueue → List (List (ContentBlock V)))
    (baseline : AgentTranscript V) (agent : Agent V) : Prop where
  taken : agent.TakenInOrder before
  runs : agent.RunsFrom baseline

/-- Between runs, the entries pushed to a queue are those delivered, in the order
in which they were recorded on the transcript, followed by those that wait. -/
structure Rested (base : List (TranscriptItem V)) (agent : Agent V) : Prop where
  record : agent.RecordKept base
  entered : ∀ queue, agent.ledger.entered queue = agent.delivered queue ++ agent.waiting queue
  inflight : ∀ queue, agent.inflight queue = []

variable {base : List (TranscriptItem V)} {before : SteeringQueue → List (List (ContentBlock V))}
  {baseline : AgentTranscript V} {coming : Source V} {agent next : Agent V}

theorem Going.stopped (going : agent.Going base before baseline coming) :
    agent.Stopped before baseline :=
  ⟨going.taken, going.recording.runs⟩

section Moves

variable [DecidableEq V] {allowed : MarkedStep → Prop}

theorem Going.moves (moves : Moves allowed agent next) (noTake : ¬ allowed .take)
    (going : agent.Going base before baseline coming) :
    next.Going base before baseline coming := by
  induction moves with
  | refl => exact going
  | tail _ step ih =>
    exact ⟨ih.recording.moves (.single step), ih.taken.step step, ih.delivered.step step noTake⟩

end Moves

end Agent

namespace TurnRunner

variable [DecidableEq V] {base : List (TranscriptItem V)}
  {before : SteeringQueue → List (List (ContentBlock V))} {baseline : AgentTranscript V} {α : Type}

/-- The run goes on with everything delivered that it took. -/
abbrev Delivering (base : List (TranscriptItem V))
    (before : SteeringQueue → List (List (ContentBlock V))) (baseline : AgentTranscript V)
    (program : RunM V α) : Prop :=
  Keeps (fun runner => runner.agent.Going base before baseline .elsewhere)
    (fun runner => runner.agent.Stopped before baseline) program

theorem going_of_moves {coming : Source V} (start final : TurnRunner V)
    (moves : Agent.Moves (· ≠ .take) start.agent final.agent)
    (going : start.agent.Going base before baseline coming) :
    final.agent.Going base before baseline coming :=
  going.moves moves fun noTake => noTake rfl

theorem Driving.delivering {program : RunM V α} (drives : Driving (· ≠ .take) program) :
    Delivering base before baseline program :=
  drives.keeps going_of_moves fun _ going => going.stopped

theorem Following.delivering {program : RunM V α} (follows : Following (· ≠ .take) program) :
    Delivering base before baseline program :=
  (Driving.of_following follows).delivering

variable {env : RunEnv V}

/-- What was taken from a queue is delivered. -/
theorem injectRoundContext_delivers {queue : SteeringQueue}
    {entries : List (List (ContentBlock V))} {start : TurnRunner V}
    (going : start.agent.Going base before baseline (.queued queue entries)) :
    Ensures (injectRoundContext env entries.flatten (.queued queue entries))
      (fun _ runner => runner.agent.Going base before baseline .elsewhere)
      (fun _ runner => runner.agent.Going base before baseline .elsewhere) start := by
  have kept (middle final : TurnRunner V) (follows : Follows (· ≠ .take) middle final) :
      middle.agent.Going base before baseline .elsewhere →
        final.agent.Going base before baseline .elsewhere :=
    going_of_moves middle final follows.agent
  refine Following.journal_holds env kept fun id final agent _ => ?_
  rw [agent]
  have delivery : Agent.Step (fun _ => True) start.agent
      (start.agent.injectContent id entries.flatten (.queued queue entries)) :=
    .deliver trivial start.agent id queue entries
  obtain ⟨recording, taken, coming⟩ := going
  exact ⟨recording.moves (.single delivery), taken.step delivery, coming.record rfl rfl⟩

theorem takeQueued_delivering (queue : SteeringQueue) :
    Delivering base before baseline (takeQueued env queue) := by
  intro start going
  rw [takeQueued, ensures_bind]
  refine ensures_onAgent fun taken agent => ?_
  have take : Agent.Step (fun _ => True) start.agent (start.agent.drainQueue queue).2 :=
    .take trivial start.agent queue
  rcases start.agent.drainQueue_cases queue with empty |
    ⟨entries, rest, next, drained, front, ledger, waiting, inflight⟩
  · rw [empty] at agent ⊢
    change taken.agent.Going base before baseline .elsewhere
    rw [agent]
    exact going
  · rw [drained] at agent take ⊢
    have coming : taken.agent.Going base before baseline (.queued queue entries) := by
      rw [agent]
      obtain ⟨recording, taken, delivered⟩ := going
      exact ⟨recording.moves (.single take), taken.step take, delivered.take ledger inflight⟩
    apply (injectRoundContext_delivers coming).bind
    · exact fun _ _ going => going
    · exact fun _ _ going => going.stopped

variable (rounds : Nat)

theorem injectQueued_delivering (queue : SteeringQueue) :
    Delivering base before baseline (injectQueued env rounds queue) := by
  refine .bind (Following.isPending env _).delivering fun waiting => ?_
  split
  · refine .bind (Following.nextRequestIsAvailable env rounds).delivering fun available => ?_
    split
    · exact .bind (Following.arrive env).delivering fun _ => takeQueued_delivering queue
    · exact .pure _
  · exact .pure _

theorem finishTextRound_delivering :
    Delivering base before baseline (finishTextRound env rounds) := by
  refine .bind (injectQueued_delivering rounds .steer) fun steered => ?_
  split
  · exact (Following.persistInjected env).delivering
  · exact .pure _
  · refine .bind (injectQueued_delivering rounds .followUp) fun followed => ?_
    split
    · exact (Following.persistInjected env).delivering
    · exact .pure _
    · refine Following.delivering (.bind .currentAgent fun agent => ?_)
      exact .bind (.decideRound env _ _ _ rounds) fun flow => .finishDecided env rounds flow

theorem endToolRound_delivering (calls : List (ToolCall V))
    (execution : Orchestrator.ToolExecutionOutcome V) :
    Delivering base before baseline (endToolRound env rounds calls execution) := by
  refine .bind (Following.call env _).delivering fun _ => ?_
  split
  · exact .pure _
  · refine .bind (injectQueued_delivering rounds .steer) fun steered => ?_
    split
    · exact .pure _
    · refine .bind (Following.decideRound env _ _ _ rounds).delivering fun flow => ?_
      split
      · exact .pure _
      · exact .pure _

section Serde

variable [SerdeJson V]

theorem continueRound_delivering (turn : PendingAssistantTurn V) :
    Delivering base before baseline (continueRound env rounds turn) := by
  unfold continueRound
  split
  · exact (Following.finishInvalidRound env turn.invalidToolUses).delivering
  · split
    · exact finishTextRound_delivering rounds
    · refine .bind (Following.executeCalls env turn.readyToolCalls).delivering fun execution => ?_
      have appends : Following (· ≠ .take) (appendToolResults env execution) :=
        .appendToolResults env nofun execution
      exact .bind appends.delivering fun _ => endToolRound_delivering rounds _ execution

theorem finishRound_delivering (streamed : StreamedTurn V) :
    Delivering base before baseline (finishRound env rounds streamed) := by
  refine .bind (Driving.modify fun _ => rfl).delivering fun _ => ?_
  have commits : Following (· ≠ .take)
      (responding env streamed.attempt (commitAssistantMessage env streamed.pending)) :=
    .responding env streamed.attempt (.commitAssistantMessage env nofun streamed.pending)
  refine .bind commits.delivering fun _ => .bind (Following.call env _).delivering fun _ => ?_
  exact continueRound_delivering rounds streamed.pending

theorem runRounds_delivering (bound rounds : Nat) :
    Delivering base before baseline (runRounds env bound rounds) := by
  have streams : Driving (· ≠ .take) (streamTurn env) := .streamTurn env nofun
  exact keeps_runRounds (fun rounds => (Following.beginRound env rounds).delivering)
    (fun rounds => .bind streams.delivering (finishRound_delivering (rounds + 1))) bound rounds

end Serde

end TurnRunner

/-! ## Whole runs -/

/-- The source of the entry a run opens with. -/
def RunStart.source : RunStart V → Source V
  | .userTurn _ source => source
  | .continuation => .elsewhere

namespace Agent

/-- About to open a run; all it has taken so far is what it opens with. -/
structure Poised (base : List (TranscriptItem V)) (runStart : RunStart V) (agent : Agent V) :
    Prop where
  record : agent.RecordKept base
  taken : agent.TakenInOrder agent.delivered
  coming : agent.InflightDelivered agent.delivered runStart.source

variable {base : List (TranscriptItem V)} {before : SteeringQueue → List (List (ContentBlock V))}
  {baseline : AgentTranscript V} {agent next : Agent V} {runStart : RunStart V}

theorem Rested.taken (rested : agent.Rested base) : agent.TakenInOrder agent.delivered := by
  intro queue
  rw [rested.entered queue, rested.inflight queue, List.append_nil]

theorem Fresh.rested (fresh : agent.Fresh) : agent.Rested agent.memory.state.transcript.items := by
  refine ⟨fresh.recordKept, fun queue => ?_, fresh.inflight⟩
  rw [delivered, fresh.ledger, fresh.waiting queue]
  cases queue <;> rfl

theorem Rested.receive (rested : agent.Rested base) (arrival : Arrival V) :
    (agent.receive arrival).Rested base := by
  have same := queuesOnly_receive agent arrival
  have delivered : (agent.receive arrival).delivered = agent.delivered := by
    funext queue
    rw [Agent.delivered, Agent.delivered, same.recorded]
  have inflight (queue : SteeringQueue) : (agent.receive arrival).inflight queue = [] := by
    rw [receive_inflight]
    exact rested.inflight queue
  refine ⟨?_, fun queue => ?_, inflight⟩
  · exact rested.record.of_same (congrArg (·.state.transcript.items) same.memory) same.recorded
      same.replaced
  · rw [delivered, rested.taken.receive arrival queue, inflight queue, List.append_nil]

theorem Rested.requeue (rested : agent.Rested base) :
    agent.requeueInflightSteering.Rested base := by
  refine ⟨rested.record.of_same rfl rfl rfl, fun queue => ?_, fun queue => ?_⟩
  · have given : agent.requeueInflightSteering.waiting queue =
        agent.inflight queue ++ agent.waiting queue := by
      cases queue <;> rfl
    rw [given, rested.inflight queue]
    exact rested.entered queue
  · cases queue <;> rfl

theorem Rested.poised [DecidableEq V] (rested : agent.Rested base)
    (opens : agent.Opens next runStart) : next.Poised base runStart := by
  have settled : agent.InflightDelivered agent.delivered .elsewhere := by
    intro queue
    rw [rested.inflight queue]
    rfl
  cases opens with
  | userTurn content | continuation => exact ⟨rested.record, rested.taken, settled⟩
  | queued drained =>
    have take : Step (fun _ => True) agent agent.drainSteer.2 := .take trivial agent .steer
    rcases agent.drainQueue_cases .steer with empty |
      ⟨entries, rest, taken, front, -, ledger, -, inflight⟩
    · rw [drainSteer, empty] at drained
      cases drained
    · rw [drained] at take
      rw [drainSteer, front] at drained
      cases drained
      have delivered : next.delivered = agent.delivered := by
        funext queue
        rw [Agent.delivered, Agent.delivered, ledger]
      refine ⟨rested.record.step take, ?_, ?_⟩
      · rw [delivered]
        exact rested.taken.step take
      · rw [delivered]
        exact settled.take ledger inflight

theorem Poised.begun [DecidableEq V] (poised : next.Poised base runStart)
    (opens : agent.Opens next runStart) (runId : String) (id : EntryId) :
    ({ next with idleRequested := false }.beginRun runId id runStart).Going base next.delivered
      next.memory.state.transcript .elsewhere := by
  refine ⟨opens.recording poised.record runId id, ?_, ?_⟩
  · cases runStart with
    | userTurn message source | continuation => exact poised.taken.of_same rfl rfl rfl
  · cases runStart with
    | userTurn message source => exact poised.coming.record rfl rfl
    | continuation => exact poised.coming

/-- A run that is finished has delivered what it took. -/
theorem Going.finished (going : agent.Going base before baseline .elsewhere) :
    agent.finishRun.clearInflightSteering.Rested base := by
  obtain ⟨⟨record, -⟩, taken, delivered⟩ := going
  refine ⟨record.of_same rfl rfl rfl, fun queue => ?_, fun queue => ?_⟩
  · have entered : agent.ledger.entered queue = agent.delivered queue ++ agent.waiting queue := by
      rw [taken queue, ← delivered queue]
      exact congrArg (· ++ agent.waiting queue) (List.append_nil _)
    exact entered
  · cases queue <;> rfl

/-- A run that is rolled back has given back what it took. -/
theorem Stopped.rolledBack {origin : Agent V} (record : origin.RecordKept base)
    (stopped : agent.Stopped origin.delivered origin.memory.state.transcript) :
    (agent.abandonRun.rollbackFailedRun origin.ledger).Rested base := by
  obtain ⟨taken, runs⟩ := stopped
  refine ⟨runs.rolledBack record, fun queue => ?_, fun queue => ?_⟩
  · have given : (agent.abandonRun.rollbackFailedRun origin.ledger).waiting queue =
        agent.inflight queue ++ agent.waiting queue := by
      cases queue <;> rfl
    rw [given, ← List.append_assoc]
    exact taken queue
  · cases queue <;> rfl

variable [DecidableEq V] [SerdeJson V]

theorem Rested.act {action : AgentAction V} (rested : agent.Rested base)
    (acted : agent.act action = some next) : next.Rested base := by
  cases action with
  | arrive arrival =>
    cases acted
    exact rested.receive arrival
  | serve env bound runId clock request =>
    let opening := TurnRunner.new agent clock
    have openRested : opening.agent.Rested base :=
      ⟨rested.record.of_same rfl rfl rfl, rested.entered, rested.inflight⟩
    have ends : TurnRunner.EndsIn (fun _ agent => agent.Rested base)
        (TurnRunner.serve env bound runId request) opening := by
      refine TurnRunner.serve_endsIn request ?_ fun _ _ rested => rested.requeue
      intro next runStart opens runner reached
      subst reached
      have poised := openRested.poised opens
      exact TurnRunner.driveRun_endsIn (poised.begun opens runId)
        (TurnRunner.runRounds_delivering bound 0) (fun _ _ going => going.finished)
        fun _ _ stopped => stopped.rolledBack poised.record
    obtain ⟨result, runner, ran, isEnd, reached⟩ := exec_of_act_serve acted
    rw [← reached]
    exact (ensures_of_exec ends).1 result runner ran isEnd

/-- After any arrivals and runs, the entries pushed to a queue are those on the
transcript or summarized since, followed by those still in the queue. -/
theorem steering_delivered_or_waiting {start agent : Agent V} (fresh : start.Fresh)
    (reachable : Reachable act start agent) :
    agent.Rested start.memory.state.transcript.items :=
  reachable.invariant (fun _ _ _ rested acted => rested.act acted) fresh.rested

/-- What a rolled back run took is delivered by a later run, before what was
pushed after it. -/
theorem steers_delivered_after_rollback :
    ∃ agent : Agent Unit, Reachable act (idleAgent {}) agent ∧
      agent.delivered .steer = [[.text "first"], [.text "second"]] ∧ agent.Rested [] := by
  have ran : (run act (idleAgent {})
      [.arrive (.steer [.text "first"]), .serve refusingEnv 3 "one" 0 .runQueued,
        .arrive (.steer [.text "second"]), .serve crowdedEnv 3 "two" 100 .runQueued]).any
        (fun agent => agent.delivered .steer = [[.text "first"], [.text "second"]]) := by
    decide +kernel
  obtain ⟨agent, reachable, delivered⟩ := exists_reachable_of_any ran
  exact ⟨agent, reachable, of_decide_eq_true delivered,
    steering_delivered_or_waiting (fresh_idleAgent {}) reachable⟩

/-- A summary can take the place of an entry that was delivered. -/
theorem steer_summarized_away :
    ∃ agent : Agent Unit, Reachable act (idleAgent { preserveRecentUserTokens := 0 }) agent ∧
      [.text "first"] ∈ agent.ledger.steered ∧ [.text "first"] ∉ agent.waiting .steer ∧
      ∀ item ∈ agent.memory.state.transcript.items,
        item.message ≠ some ⟨.user, [.text "first"]⟩ := by
  have ran : (run act (idleAgent { preserveRecentUserTokens := 0 })
      [.arrive (.steer [.text "first"]), .arrive (.steer [.text "second"]),
        .serve crowdedEnv 3 "one" 0 .runQueued,
        .serve crowdedEnv 3 "two" 100 (.send [.text "third"])]).any fun agent : Agent Unit =>
          [.text "first"] ∈ agent.ledger.steered ∧ [.text "first"] ∉ agent.waiting .steer ∧
            ∀ item ∈ agent.memory.state.transcript.items,
              item.message ≠ some ⟨.user, [.text "first"]⟩ := by
    decide +kernel
  obtain ⟨agent, reachable, lost⟩ := exists_reachable_of_any ran
  exact ⟨agent, reachable, of_decide_eq_true lost⟩

end Agent

end Mentra

import Mentra.Agent.Books
import Mentra.Runner.Steps

/-!
# The life of a run

Model of `mentra/src/agent/lifecycle.rs` and of `run_queued`: how a run is opened, what a
runner that ended leaves to do, and how a failed run is rolled back.  A failure to open, to
finish or to roll back is an error of the programs here; how a finished or rolled back run
ended is their value.  What a rollback restores besides the journal and the queues lies behind
runtime calls.

What holds of every run is shown once, for any two properties of which one is kept while a run
goes on and the other is what it leaves when it fails.
-/

namespace Mentra

open Foundation Program

/-- How a run opens; a user message comes with its source for the ledger. -/
inductive RunStart (V : Type)
  | userTurn (message : Message V) (source : Source V)
  | continuation

/-- How a run that was not left half-way ended. -/
inductive RunResult (V : Type)
  | finished (message : Option (Message V))
  | rolledBack (error : RuntimeError)
  /-- The bound on the rounds of the model was reached. -/
  | unfinished

namespace RunResult

variable {V : Type}

/-- Whether the caller gets an error; a run without a final message is one. -/
def isErr : RunResult V → Bool
  | finished none | rolledBack _ => true
  | _ => false

/-- Whether the run ended. -/
def isEnd : RunResult V → Bool
  | unfinished => false
  | _ => true

end RunResult

/-- What a host asks of an idle agent. -/
inductive RunRequest (V : Type)
  | send (content : List (ContentBlock V))
  | resume
  | continueInterrupted
  | runQueued

namespace Agent

variable {V : Type}

def beginRun (agent : Agent V) (runId : String) (id : EntryId) : RunStart V → Agent V
  | .userTurn message source =>
    { agent with
      memory := agent.memory.beginRun runId message id
      ledger := agent.ledger.record source (.ofMessage id message) }
  | .continuation => { agent with memory := agent.memory.beginContinuation runId }

def finishRun (agent : Agent V) : Agent V :=
  { agent with memory := agent.memory.finishRun }

/-- Nothing a rolled back run recorded counts. -/
def rollbackFailedRun (agent : Agent V) (before : Ledger V) : Agent V :=
  { agent with
    memory := agent.memory.rollbackFailedRun
    ledger :=
      { agent.ledger with recorded := before.recorded, replaced := before.replaced } }

/-- A run that ended early gives back what it consumed. -/
def abandonRun (agent : Agent V) : Agent V :=
  { agent with idleRequested := false }.requeueInflightSteering

/-- How the runs a host asks for open, and the agent they open on. -/
inductive Opens (agent : Agent V) : Agent V → RunStart V → Prop
  | userTurn (content : List (ContentBlock V)) :
      Opens agent agent (.userTurn ⟨.user, content⟩ .elsewhere)
  | continuation : Opens agent agent .continuation
  | queued {entries : List (List (ContentBlock V))} {next : Agent V}
      (drained : agent.drainSteer = (some entries, next)) :
      Opens agent next (.userTurn ⟨.user, entries.flatten⟩ (.queued .steer entries))

section Record

variable {base : List (TranscriptItem V)} {agent next : Agent V} {runStart : RunStart V}

theorem Opens.moves [DecidableEq V] (opens : agent.Opens next runStart) :
    Moves (· ≠ .drain) agent next := by
  cases opens with
  | userTurn content | continuation => exact .refl agent
  | queued drained =>
    have take : Step (· ≠ .drain) agent agent.drainSteer.2 := .take nofun agent .steer
    rw [drained] at take
    exact .single take

/-- A run records the message it opens with on top of the transcript it would be
rolled back to. -/
theorem Opens.recording [DecidableEq V] (opens : agent.Opens next runStart)
    (record : next.RecordKept base) (runId : String) (id : EntryId) :
    ({ next with idleRequested := false }.beginRun runId id runStart).Recording base
      next.memory.state.transcript := by
  cases opens with
  | userTurn content => exact ⟨record.push rfl rfl rfl trivial, rfl⟩
  | continuation => exact ⟨record.of_same rfl rfl rfl, rfl⟩
  | queued drained =>
    exact ⟨record.push rfl rfl rfl (TranscriptItem.ofMessage_message id _), rfl⟩

theorem RunsFrom.rolledBack {origin : Agent V} (record : origin.RecordKept base)
    (runs : agent.RunsFrom origin.memory.state.transcript) :
    (agent.abandonRun.rollbackFailedRun origin.ledger).RecordKept base := by
  have restored : agent.memory.rollbackFailedRun.state.transcript =
      origin.memory.state.transcript := by
    obtain ⟨run, running, baseline⟩ := Option.map_eq_some_iff.mp runs
    rw [AgentMemory.rollbackFailedRun, running]
    exact baseline
  exact record.of_same (congrArg (·.items) restored) rfl rfl

end Record

end Agent

namespace TurnRunner

variable {V : Type} [DecidableEq V]

variable (env : RunEnv V)

def openRun (runId : String) (start : RunStart V) : RunM V Unit := do
  onAgent fun _ agent => ((), { agent with idleRequested := false })
  call env .refreshTasks
  call env .captureTaskState
  call env .startRunCheckpoint
  journal env fun id agent => agent.beginRun runId id start

def finalizeRun : RunM V Unit := do
  journal env fun _ agent => agent.finishRun
  call env .persistAgentRecord
  call env .finishRunCheckpoint

/-- Only the first failure and that of the team inbox are reported. -/
def handleFinalizationError {α : Type} (error : RuntimeError) : RunM V α := do
  onAgent fun _ agent => ((), agent.abandonRun)
  let requeued ← attempt (call env .requeueTeamMessages)
  let _ ← attempt (call env .persistAgentRecord)
  let _ ← attempt (call env (.failRunCheckpoint (error.display env.tools.statusText)))
  match requeued with
  | .ok _ => throw error
  | .error requeueError =>
    throw (.store (error.display env.tools.statusText ++
      "; additionally failed to requeue the team inbox: " ++
      requeueError.display env.tools.statusText))

def completeRun : RunM V (RunResult V) := do
  let agent ← currentAgent
  let finalMessage := agent.history.getLast?.filter (·.role = .assistant)
  match ← attempt (finalizeRun env) with
  | .error error => handleFinalizationError env error
  | .ok _ =>
    onAgent fun _ agent => ((), agent.clearInflightSteering)
    return .finished finalMessage

/-- What follows the rollback in memory.  A failure here replaces the error that
is reported. -/
def reportFailure (error : RuntimeError) : RunM V Unit := do
  call env .saveAgentMemory
  call env .persistAgentRecord
  call env (.failRunCheckpoint (error.display env.tools.statusText))

def rollBackRun (before : Ledger V) (error : RuntimeError) :
    RunM V (RunResult V) := do
  onAgent fun _ agent => ((), agent.abandonRun)
  call env .requeueTeamMessages
  call env .restoreTaskState
  onAgent fun _ agent => ((), agent.rollbackFailedRun before)
  match ← attempt (reportFailure env error) with
  | .ok _ => return .rolledBack error
  | .error failure => return .rolledBack failure

/-- The one path every run takes, with at most `bound` rounds. -/
def driveRun [SerdeJson V] (bound : Nat) (runId : String) (start : RunStart V) :
    RunM V (RunResult V) := do
  let agent ← currentAgent
  openRun env runId start
  match ← attempt (run env bound) with
  | .ok true => completeRun env
  | .ok false => return .unfinished
  | .error error => rollBackRun env agent.ledger error

/-- Start a run from the next queued steer.  Giving it back a second time is
idempotent and covers errors raised before the run was opened. -/
def runQueued [SerdeJson V] (bound : Nat) (runId : String) :
    RunM V (RunResult V) := do
  match ← onAgent fun _ agent => agent.drainSteer with
  | none => throw (.operationDenied "no queued steering input is available")
  | some entries =>
    let message : Message V := ⟨.user, entries.flatten⟩
    match ← attempt (driveRun env bound runId (.userTurn message (.queued .steer entries))) with
    | .ok result =>
      if result.isErr then onAgent fun _ agent => ((), agent.requeueInflightSteering)
      return result
    | .error error =>
      onAgent fun _ agent => ((), agent.requeueInflightSteering)
      throw error

def serve [SerdeJson V] (bound : Nat) (runId : String) :
    RunRequest V → RunM V (RunResult V)
  | .send content => driveRun env bound runId (.userTurn ⟨.user, content⟩ .elsewhere)
  | .resume => do
      let agent ← currentAgent
      match agent.memory.state.resumableUserMessage with
      | none => throw .noResumableTurn
      | some message =>
        driveRun env bound runId (.userTurn ⟨.user, message.content⟩ .elsewhere)
  | .continueInterrupted => do
      let agent ← currentAgent
      if agent.memory.state.interruptedTurn then driveRun env bound runId .continuation
      else throw .noInterruptedTurn
  | .runQueued => runQueued env bound runId

/-! ## What every run does -/

section Rules

open Foundation.Program (Ensures Keeps)

variable {Good Bad : Agent V → Prop} {Ended : RunResult V → Agent V → Prop} {env : RunEnv V}
  {start : TurnRunner V}

/-- If the run ended, it left the agent as `Ended` says. -/
abbrev EndsIn (Ended : RunResult V → Agent V → Prop) (program : RunM V (RunResult V))
    (start : TurnRunner V) : Prop :=
  Ensures program (fun result final => result.isEnd → Ended result final.agent)
    (fun _ _ => True) start

theorem openRun_ensures {runId : String} {runStart : RunStart V}
    (opened : ∀ id, Good ({ start.agent with idleRequested := false }.beginRun runId id runStart)) :
    Ensures (openRun env runId runStart) (fun _ final => Good final.agent) (fun _ _ => True)
      start := by
  let idle : Agent V := { start.agent with idleRequested := false }
  have spared {runner : TurnRunner V} (reached : runner.agent = idle) (runtimeCall : RuntimeCall) :=
    (Sparing.call env runtimeCall).holds (· = idle) reached
  rw [openRun, ensures_bind]
  refine ensures_onAgent fun first reached => ?_
  refine (spared reached .refreshTasks).bind (fun _ second reached => ?_) fun _ _ _ => trivial
  refine (spared reached .captureTaskState).bind (fun _ third reached => ?_) fun _ _ _ => trivial
  refine (spared reached .startRunCheckpoint).bind (fun _ fourth reached => ?_) fun _ _ _ => trivial
  rw [journal, ensures_bind]
  refine ensures_onAgent fun last changed => ?_
  have begun : Good last.agent := by
    rw [changed, reached]
    exact opened _
  exact ((Sparing.call env .saveAgentMemory).holds Good begun).weaken (fun _ _ good => good)
    fun _ _ _ => trivial

theorem finalizeRun_ensures (good : Good start.agent) :
    Ensures (finalizeRun env)
      (fun _ final => ∃ agent, Good agent ∧ final.agent = agent.finishRun) (fun _ _ => True)
      start := by
  have spared {runner : TurnRunner V} (reached : runner.agent = start.agent.finishRun)
      (runtimeCall : RuntimeCall) :=
    (Sparing.call env runtimeCall).holds (· = start.agent.finishRun) reached
  rw [finalizeRun, journal, bind_assoc, ensures_bind]
  refine ensures_onAgent fun first reached => ?_
  refine (spared reached .saveAgentMemory).bind (fun _ second reached => ?_) fun _ _ _ => trivial
  refine (spared reached .persistAgentRecord).bind (fun _ third reached => ?_) fun _ _ _ => trivial
  exact (spared reached .finishRunCheckpoint).weaken (fun _ _ last => ⟨start.agent, good, last⟩)
    fun _ _ _ => trivial

/-- A run that could not be finished is reported as failed. -/
theorem handleFinalizationError_fails {α : Type} (error : RuntimeError)
    (post : α → TurnRunner V → Prop) :
    Ensures (handleFinalizationError env error) post (fun _ _ => True) start := by
  have called (runtimeCall : RuntimeCall) (runner : TurnRunner V) :
      Ensures (attempt (call env runtimeCall)) (fun _ _ => True) (fun _ _ => True) runner :=
    ((Sparing.call env runtimeCall).attempt runner).weaken (fun _ _ _ => trivial)
      fun _ _ _ => trivial
  rw [handleFinalizationError, ensures_bind]
  refine ensures_onAgent fun first _ => ?_
  refine (called _ first).bind (fun requeued second _ => ?_) fun _ _ _ => trivial
  refine (called _ second).bind (fun _ third _ => ?_) fun _ _ _ => trivial
  refine (called _ third).bind (fun _ last _ => ?_) fun _ _ _ => trivial
  cases requeued with
  | ok _ | error requeueError => trivial

theorem completeRun_endsIn (good : Good start.agent)
    (finished : ∀ message agent, Good agent →
      Ended (.finished message) agent.finishRun.clearInflightSteering) :
    EndsIn Ended (completeRun env) start := by
  rw [EndsIn, completeRun, ensures_bind, ensures_currentAgent]
  rw [ensures_bind, ensures_attempt]
  refine (finalizeRun_ensures good).weaken ?_ fun error final _ =>
    handleFinalizationError_fails error _
  rintro ⟨⟩ final ⟨agent, good, reached⟩
  rw [ensures_bind]
  refine ensures_onAgent fun last cleared _ => ?_
  rw [cleared, reached]
  exact finished _ agent good

theorem rollBackRun_endsIn {before : Ledger V} (error : RuntimeError) (bad : Bad start.agent)
    (rolledBack : ∀ error agent, Bad agent →
      Ended (.rolledBack error) (agent.abandonRun.rollbackFailedRun before)) :
    EndsIn Ended (rollBackRun env before error) start := by
  have spared {runner : TurnRunner V} {agent : Agent V} (reached : runner.agent = agent)
      (runtimeCall : RuntimeCall) :=
    (Sparing.call env runtimeCall).holds (· = agent) reached
  rw [EndsIn, rollBackRun, ensures_bind]
  refine ensures_onAgent fun first reached => ?_
  refine (spared reached .requeueTeamMessages).bind (fun _ second reached => ?_)
    fun _ _ _ => trivial
  refine (spared reached .restoreTaskState).bind (fun _ third reached => ?_) fun _ _ _ => trivial
  rw [ensures_bind]
  refine ensures_onAgent fun fourth restored => ?_
  rw [reached] at restored
  have reports : Sparing (reportFailure env error) :=
    .bind (.call env _) fun _ => .bind (.call env _) fun _ => .call env _
  rw [ensures_bind, ensures_attempt]
  refine (reports.holds (· = start.agent.abandonRun.rollbackFailedRun before) restored).weaken
    (fun _ final reached _ => ?_) fun failure final reached _ => ?_
  · rw [reached]
    exact rolledBack error _ bad
  · rw [reached]
    exact rolledBack failure _ bad

variable [SerdeJson V] {bound : Nat} {runId : String}

/-- What is shown about the rounds of a run carries over to the whole run. -/
theorem driveRun_endsIn {runStart : RunStart V}
    (opened : ∀ id, Good ({ start.agent with idleRequested := false }.beginRun runId id runStart))
    (runs : Keeps (fun runner => Good runner.agent) (fun runner => Bad runner.agent)
      (run env bound))
    (finished : ∀ message agent, Good agent →
      Ended (.finished message) agent.finishRun.clearInflightSteering)
    (rolledBack : ∀ error agent, Bad agent →
      Ended (.rolledBack error) (agent.abandonRun.rollbackFailedRun start.agent.ledger)) :
    EndsIn Ended (driveRun env bound runId runStart) start := by
  rw [EndsIn, driveRun, ensures_bind, ensures_currentAgent]
  refine (openRun_ensures opened).bind (fun _ first good => ?_) fun _ _ _ => trivial
  rw [ensures_bind, ensures_attempt]
  refine (runs first good).weaken (fun ended final good => ?_) fun error final bad => ?_
  · cases ended with
    | true => exact completeRun_endsIn good finished
    | false => nofun
  · exact rollBackRun_endsIn error bad rolledBack

/-- What a run ends in also holds after its queue entries were given back a
second time. -/
theorem runQueued_endsIn
    (drives : ∀ entries next, start.agent.drainSteer = (some entries, next) →
      ∀ runner : TurnRunner V, runner.agent = next → EndsIn Ended (driveRun env bound runId
        (.userTurn ⟨.user, entries.flatten⟩ (.queued .steer entries))) runner)
    (requeued : ∀ result agent, Ended result agent → Ended result agent.requeueInflightSteering) :
    EndsIn Ended (runQueued env bound runId) start := by
  rw [EndsIn, runQueued, ensures_bind]
  refine ensures_onAgent fun first drained => ?_
  generalize taken : start.agent.drainSteer = steered at drained
  obtain ⟨_ | entries, next⟩ := steered
  · trivial
  · dsimp only
    rw [ensures_bind, ensures_attempt]
    refine (drives entries next taken first drained).weaken (fun result final ended => ?_)
      fun error final _ => ?_
    · dsimp only
      split
      · rw [ensures_bind]
        refine ensures_onAgent fun last givenBack isEnd => ?_
        rw [givenBack]
        exact requeued result _ (ended isEnd)
      · exact ended
    · dsimp only
      rw [ensures_bind]
      exact ensures_onAgent fun last _ => trivial

theorem serve_endsIn (request : RunRequest V)
    (drives : ∀ next runStart, start.agent.Opens next runStart →
      ∀ runner : TurnRunner V, runner.agent = next →
        EndsIn Ended (driveRun env bound runId runStart) runner)
    (requeued : ∀ result agent, Ended result agent → Ended result agent.requeueInflightSteering) :
    EndsIn Ended (serve env bound runId request) start := by
  cases request with
  | send content => exact drives _ _ (.userTurn content) start rfl
  | resume =>
    rw [EndsIn, serve, ensures_bind, ensures_currentAgent]
    split
    · trivial
    · exact drives _ _ (.userTurn _) start rfl
  | continueInterrupted =>
    rw [EndsIn, serve, ensures_bind, ensures_currentAgent]
    split
    · exact drives _ _ .continuation start rfl
    · trivial
  | runQueued => exact runQueued_endsIn (fun _ _ drained => drives _ _ (.queued drained)) requeued

end Rules

end TurnRunner

/-! ## Sequences of arrivals and runs -/

/-- What an agent meets between runs: something arrives, or it is asked for a
run in some environment. -/
inductive AgentAction (V : Type) [DecidableEq V]
  | arrive (arrival : Arrival V)
  | serve (env : RunEnv V) (bound : Nat) (runId : String) (clock : Nat) (request : RunRequest V)

namespace Agent

variable {V : Type} [DecidableEq V] [SerdeJson V]

/-- The agent after an arrival, or after a run that finished or was rolled
back. -/
def act (agent : Agent V) : AgentAction V → Option (Agent V)
  | .arrive arrival => some (agent.receive arrival)
  | .serve env bound runId clock request =>
    match (TurnRunner.serve env bound runId request).exec (.new agent clock) with
    | (.ok result, runner) => if result.isEnd then some runner.agent else none
    | (.error _, _) => none

theorem exec_of_act_serve {agent next : Agent V} {env : RunEnv V} {bound : Nat} {runId : String}
    {clock : Nat} {request : RunRequest V}
    (acted : agent.act (.serve env bound runId clock request) = some next) :
    ∃ result runner, (TurnRunner.serve env bound runId request).exec (.new agent clock) =
      (.ok result, runner) ∧ result.isEnd ∧ runner.agent = next := by
  rw [act] at acted
  split at acted
  · rename_i result runner ran
    split at acted
    · rename_i isEnd
      exact ⟨result, runner, ran, isEnd, Option.some.inj acted⟩
    · cases acted
  · cases acted

end Agent

/-! ## Two environments -/

/-- The provider refuses every request. -/
def refusingEnv : RunEnv Unit :=
  quietRunEnv fun _ _ => .ok (.error (.invalidResponse "refused"))

/-- Every request is over the threshold. -/
def crowdedEnv : RunEnv Unit :=
  { quietRunEnv fun _ _ => .ok (.ok textReply) with
    estimatedRequestTokens := fun _ _ => 60000 }

theorem Agent.fresh_idleAgent {V : Type} (config : CompactionConfig) :
    (idleAgent config : Agent V).Fresh :=
  ⟨rfl, rfl, fun queue => by cases queue <;> rfl, fun queue => by cases queue <;> rfl⟩

end Mentra

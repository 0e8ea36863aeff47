import Mentra.Runner.Lifecycle

/-!
# What a failed run leaves in memory

The memory changes before it is saved, and a failed run gives back what it consumed before the
journal is rolled back.  So a run that fails stays open at the save that opens it and at the
two calls in front of the rollback; any other failure leaves the transcript as it was.
-/

namespace Mentra

open Foundation Program
open Foundation.Program (Ensures Succeeds)

variable {V : Type}

namespace Agent

/-- The transcript is `transcript` and no run is open. -/
structure Restored (transcript : AgentTranscript V) (agent : Agent V) : Prop where
  transcript : agent.memory.state.transcript = transcript
  closed : agent.memory.state.run = none

variable {baseline : AgentTranscript V} {agent : Agent V}

theorem RunsFrom.not_restored (runs : agent.RunsFrom baseline) : ¬ agent.Restored baseline := by
  intro restored
  rw [RunsFrom, restored.closed] at runs
  cases runs

theorem RunsFrom.restored (runs : agent.RunsFrom baseline) (before : Ledger V) :
    (agent.rollbackFailedRun before).Restored baseline := by
  obtain ⟨run, running, from_baseline⟩ := Option.map_eq_some_iff.mp runs
  constructor
  · rw [rollbackFailedRun, AgentMemory.rollbackFailedRun, running]
    exact from_baseline
  · rw [rollbackFailedRun, AgentMemory.rollbackFailedRun, running]
    rfl

theorem RunsFrom.moves [DecidableEq V] {allowed : MarkedStep → Prop} {next : Agent V}
    (moves : Moves allowed agent next) (runs : agent.RunsFrom baseline) :
    next.RunsFrom baseline := by
  induction moves with
  | refl => exact runs
  | tail _ step ih => exact step.effect.1.trans ih

theorem runsFrom_beginRun (agent : Agent V) (runId : String) (id : EntryId)
    (runStart : RunStart V) :
    (agent.beginRun runId id runStart).RunsFrom agent.memory.state.transcript := by
  cases runStart with
  | userTurn message source | continuation => rfl

end Agent

namespace TurnRunner

variable [DecidableEq V]

/-- What `openRun` does before the memory changes. -/
def prepareRun (env : RunEnv V) : RunM V Unit := do
  onAgent fun _ agent => ((), { agent with idleRequested := false })
  call env .refreshTasks
  call env .captureTaskState
  call env .startRunCheckpoint

/-- What `rollBackRun` does before the memory is rolled back. -/
def giveBack (env : RunEnv V) : RunM V Unit := do
  onAgent fun _ agent => ((), agent.abandonRun)
  call env .requeueTeamMessages
  call env .restoreTaskState

/-- What `rollBackRun` does from then on. -/
def restoreMemory (env : RunEnv V) (before : Ledger V) (error : RuntimeError) :
    RunM V (RunResult V) := do
  onAgent fun _ agent => ((), agent.rollbackFailedRun before)
  match ← Program.attempt (reportFailure env error) with
  | .ok _ => return .rolledBack error
  | .error failure => return .rolledBack failure

variable (env : RunEnv V) (runId : String) (runStart : RunStart V)

theorem openRun_eq : openRun env runId runStart =
    prepareRun env >>= fun _ => journal env fun id agent => agent.beginRun runId id runStart := by
  simp only [openRun, prepareRun, bind_assoc]

theorem rollBackRun_eq (before : Ledger V) (error : RuntimeError) :
    rollBackRun env before error = giveBack env >>= fun _ => restoreMemory env before error := by
  unfold rollBackRun giveBack restoreMemory
  rw [bind_assoc]
  congr 1
  funext _
  exact (bind_assoc _ _ _).symm

variable {env runId runStart} {start : TurnRunner V} {baseline : AgentTranscript V}

omit [DecidableEq V] in
theorem exec_currentAgent (start : TurnRunner V) :
    currentAgent.exec start = (.ok start.agent, start) :=
  rfl

omit [DecidableEq V] in
/-- Changing the agent outside its memory and then calling the runtime leaves
the memory alone, however it ends. -/
theorem ensures_memory_of_sparing {change : Agent V → Agent V} {rest : RunM V Unit}
    (same : (change start.agent).memory = start.agent.memory) (spares : Sparing rest) :
    Ensures (onAgent (fun _ agent => ((), change agent)) >>= fun _ => rest)
      (fun _ final => final.agent.memory = start.agent.memory)
      (fun _ final => final.agent.memory = start.agent.memory) start := by
  rw [ensures_bind]
  refine ensures_onAgent fun middle changed => ?_
  refine spares.holds (·.memory = start.agent.memory) ?_
  rw [changed]
  exact same

theorem prepareRun_memory (env : RunEnv V) (start : TurnRunner V) : Ensures (prepareRun env)
    (fun _ final => final.agent.memory = start.agent.memory)
    (fun _ final => final.agent.memory = start.agent.memory) start :=
  ensures_memory_of_sparing rfl
    (.bind (.call env _) fun _ => .bind (.call env _) fun _ => .call env _)

/-- The run is open in memory whether or not that could be saved. -/
theorem journal_beginRun (same : start.agent.memory.state.transcript = baseline) :
    Ensures (journal env fun id agent => agent.beginRun runId id runStart)
      (fun _ final => final.agent.RunsFrom baseline) (fun _ final => final.agent.RunsFrom baseline)
      start := by
  rw [journal, ensures_bind]
  refine ensures_onAgent fun middle begun => ?_
  refine (Sparing.call env .saveAgentMemory).holds (·.RunsFrom baseline) ?_
  rw [begun, ← same]
  exact Agent.runsFrom_beginRun _ _ _ _

variable {error : RuntimeError}

/-- Once rolled back, the memory stays so whether or not that could be saved. -/
theorem restoreMemory_restored {before : Ledger V} (runs : start.agent.RunsFrom baseline) :
    Ensures (restoreMemory env before error) (fun _ final => final.agent.Restored baseline)
      (fun _ final => final.agent.Restored baseline) start := by
  have reports : Sparing (reportFailure env error) :=
    .bind (.call env _) fun _ => .bind (.call env _) fun _ => .call env _
  rw [restoreMemory, ensures_bind]
  refine ensures_onAgent fun middle rolledBack => ?_
  rw [ensures_bind, ensures_attempt]
  refine (reports.holds (·.Restored baseline) ?_).weaken (fun _ _ restored => restored)
    fun _ _ restored => restored
  rw [rolledBack]
  exact runs.restored before

theorem rollBackRun_restored_iff {before : Ledger V} (runs : start.agent.RunsFrom baseline) :
    ((rollBackRun env before error).exec start).2.agent.Restored baseline ↔
      Succeeds (giveBack env) start := by
  obtain ⟨given, refused⟩ := ensures_of_exec (show Ensures (giveBack env) _ _ start from
    ensures_memory_of_sparing rfl (.bind (.call env _) fun _ => .call env _))
  have still {final : TurnRunner V} (same : final.agent.memory = start.agent.memory) :
      final.agent.RunsFrom baseline := by
    rw [Agent.RunsFrom, same]
    exact runs
  rw [rollBackRun_eq, exec_bind, Succeeds]
  cases gaveBack : (giveBack env).exec start with
  | mk result final =>
    cases result with
    | error fault =>
      exact ⟨fun restored => absurd restored (still (refused _ _ gaveBack)).not_restored,
        by rintro ⟨_, ⟨⟩⟩⟩
    | ok value =>
      exact ⟨fun _ => ⟨value, rfl⟩, fun _ =>
        (restoreMemory_restored (still (given _ _ gaveBack))).final⟩

theorem openRun_runsFrom {opened : TurnRunner V}
    (begun : (openRun env runId runStart).exec start = (.ok (), opened)) :
    opened.agent.RunsFrom start.agent.memory.state.transcript :=
  (ensures_of_exec (openRun_ensures fun id => Agent.runsFrom_beginRun _ runId id runStart)).1
    () opened begun

/-- A run that could not be opened left the memory alone, or open. -/
theorem openRun_restored_iff {final : TurnRunner V}
    (refused : (openRun env runId runStart).exec start = (.error error, final)) :
    final.agent.Restored start.agent.memory.state.transcript ↔
      ¬ Succeeds (prepareRun env) start ∧ start.agent.memory.state.run = none := by
  obtain ⟨sameReady, sameUnready⟩ := ensures_of_exec (prepareRun_memory env start)
  rw [openRun_eq] at refused
  rcases exec_bind_eq_error_iff.mp refused with unready | ⟨⟨⟩, prepared, ready, unsaved⟩
  · have same : final.agent.memory = start.agent.memory := sameUnready _ _ unready
    constructor
    · rintro ⟨_, closed⟩
      exact ⟨not_succeeds_iff.mpr ⟨_, _, unready⟩, same ▸ closed⟩
    · rintro ⟨_, closed⟩
      exact ⟨congrArg (·.state.transcript) same, by rw [same, closed]⟩
  · have same : prepared.agent.memory = start.agent.memory := sameReady _ _ ready
    have runs : final.agent.RunsFrom start.agent.memory.state.transcript :=
      (ensures_of_exec (journal_beginRun (congrArg (·.state.transcript) same))).2 _ _ unsaved
    constructor
    · exact fun restored => absurd restored runs.not_restored
    · exact fun unready => absurd ⟨(), by rw [ready]⟩ unready.1

section Serde

variable [SerdeJson V] {bound : Nat}

/-- Open a run and let the turn runner go. -/
def attemptRun (env : RunEnv V) (bound : Nat) (runId : String) (runStart : RunStart V) :
    RunM V Bool := do
  openRun env runId runStart
  run env bound

variable {opened : TurnRunner V} {error : RuntimeError}

theorem run_runsFrom {stopped : TurnRunner V} (runs : opened.agent.RunsFrom baseline)
    (failed : (run env bound).exec opened = (.error error, stopped)) :
    stopped.agent.RunsFrom baseline :=
  (ensures_of_exec ((Driving.runRounds env bound 0).holds
    (fun _ _ moves runs => Agent.RunsFrom.moves moves runs) runs)).2 error stopped failed

theorem exec_driveRun_of_open
    (refused : (openRun env runId runStart).exec start = (.error error, opened)) :
    (driveRun env bound runId runStart).exec start = (.error error, opened) := by
  rw [driveRun, exec_bind, exec_currentAgent]
  dsimp only
  rw [exec_bind, refused]

theorem exec_driveRun_of_run {stopped : TurnRunner V}
    (begun : (openRun env runId runStart).exec start = (.ok (), opened))
    (failed : (run env bound).exec opened = (.error error, stopped)) :
    (driveRun env bound runId runStart).exec start =
      (rollBackRun env start.agent.ledger error).exec stopped := by
  rw [driveRun, exec_bind, exec_currentAgent]
  dsimp only
  rw [exec_bind, begun]
  dsimp only
  rw [exec_bind, exec_attempt, failed]

/-- The run was opened and saved and the runner failed where everything it
consumed can be given back; or nothing had happened yet. -/
def Recoverable (env : RunEnv V) (bound : Nat) (runId : String) (runStart : RunStart V)
    (start : TurnRunner V) : Prop :=
  (¬ Succeeds (prepareRun env) start ∧ start.agent.memory.state.run = none) ∨
    (Succeeds (openRun env runId runStart) start ∧
      ∀ error stopped, (attemptRun env bound runId runStart).exec start = (.error error, stopped) →
        Succeeds (giveBack env) stopped)

/-- A run that failed while it was opened or while it ran leaves the transcript
as it was, and no run open, exactly if its memory did not change before the
failure, or was saved when the run opened and could be reached by the
rollback. -/
theorem failedRun_restored_iff (env : RunEnv V) (bound : Nat) (runId : String)
    (runStart : RunStart V) (start : TurnRunner V)
    (failed : ¬ Succeeds (attemptRun env bound runId runStart) start) :
    ((driveRun env bound runId runStart).exec start).2.agent.Restored
        start.agent.memory.state.transcript ↔
      Recoverable env bound runId runStart start := by
  obtain ⟨error, stopped, attempted⟩ := not_succeeds_iff.mp failed
  rcases exec_bind_eq_error_iff.mp attempted with refused | ⟨⟨⟩, opened, begun, ran⟩
  · rw [exec_driveRun_of_open refused, openRun_restored_iff refused]
    constructor
    · exact .inl
    · rintro (unready | ⟨succeeds, _⟩)
      · exact unready
      · exact absurd succeeds (not_succeeds_iff.mpr ⟨_, _, refused⟩)
  · have runs : stopped.agent.RunsFrom start.agent.memory.state.transcript :=
      run_runsFrom (openRun_runsFrom begun) ran
    have succeeds : Succeeds (openRun env runId runStart) start := ⟨(), by rw [begun]⟩
    rw [exec_driveRun_of_run begun ran, rollBackRun_restored_iff runs]
    constructor
    · intro given
      refine .inr ⟨succeeds, fun _ _ same => ?_⟩
      rw [attempted] at same
      cases same
      exact given
    · rintro (⟨unready, _⟩ | ⟨_, given⟩)
      · rw [openRun_eq] at succeeds
        exact absurd succeeds.first unready
      · exact given error stopped attempted

/-- A user says hello. -/
def helloTurn : RunStart Unit :=
  .userTurn (.user (.text "hello")) .elsewhere

theorem refused_run_restored :
    ¬ Succeeds (attemptRun refusingEnv 1 "run" helloTurn) (.new idleAgent 0) ∧
      ((driveRun refusingEnv 1 "run" helloTurn).exec (.new idleAgent 0)).2.agent.Restored
        idleAgent.memory.state.transcript := by
  have failed : ¬ Succeeds (attemptRun refusingEnv 1 "run" helloTurn) (.new idleAgent 0) := by
    decide +kernel
  refine ⟨failed, (failedRun_restored_iff refusingEnv 1 "run" helloTurn _ failed).mpr (.inr ?_)⟩
  refine ⟨by decide +kernel, fun error stopped _ => ?_⟩
  exact isOk_iff_succeeds.mp rfl

end Serde

end TurnRunner

/-- The memory cannot be saved. -/
def unsavedEnv : RunEnv Unit :=
  { refusingEnv with
    call := fun _ runtimeCall =>
      match runtimeCall with
      | .saveAgentMemory => .error (.store "disk full")
      | _ => .ok () }

/-- The provider refuses every request, and the team inbox cannot be written. -/
def undeliveredEnv : RunEnv Unit :=
  { refusingEnv with
    call := fun _ runtimeCall =>
      match runtimeCall with
      | .requeueTeamMessages => .error (.store "disk full")
      | _ => .ok () }

/-- Either failure leaves the user's message on the transcript and the run
open. -/
theorem TurnRunner.failedRun_left_open :
    (¬ Succeeds (attemptRun unsavedEnv 1 "run" helloTurn) (.new idleAgent 0) ∧
      ¬ ((driveRun unsavedEnv 1 "run" helloTurn).exec (.new idleAgent 0)).2.agent.Restored
        idleAgent.memory.state.transcript) ∧
    ¬ Succeeds (attemptRun undeliveredEnv 1 "run" helloTurn) (.new idleAgent 0) ∧
      ¬ ((driveRun undeliveredEnv 1 "run" helloTurn).exec (.new idleAgent 0)).2.agent.Restored
        idleAgent.memory.state.transcript := by
  have leftOpen : ∀ env ∈ [unsavedEnv, undeliveredEnv],
      ((driveRun env 1 "run" helloTurn).exec
        (.new idleAgent 0)).2.agent.memory.state.run.isSome = true := by
    decide +kernel
  have failed : ∀ env ∈ [unsavedEnv, undeliveredEnv],
      ¬ Succeeds (attemptRun env 1 "run" helloTurn) (.new idleAgent 0) := by
    decide +kernel
  have unrestored : ∀ env ∈ [unsavedEnv, undeliveredEnv],
      ¬ ((driveRun env 1 "run" helloTurn).exec (.new idleAgent 0)).2.agent.Restored
        idleAgent.memory.state.transcript := by
    intro env listed restored
    have closed := leftOpen env listed
    rw [restored.closed] at closed
    cases closed
  exact ⟨⟨failed _ (by simp), unrestored _ (by simp)⟩, failed _ (by simp), unrestored _ (by simp)⟩

end Mentra

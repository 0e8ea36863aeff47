import Mentra.Runner.Lifecycle

/-!
# Items left for an agent

An item pushed to an agent's deferred queue leaves it when it is applied.  It is then on the
transcript, or among the entries a compaction summarized, or it has settled a subagent.  A run
that is rolled back takes its entries off the transcript and does not put their items back, so
exactly the items that such runs took and did not settle are lost.
-/

namespace Mentra

open Foundation Transition List Program
open Foundation.Program (Keeps)
open Foundation.Transition (Reachable guarded)

variable {V : Type}

namespace Agent

/-- Every item pushed is in the queue, on the transcript or summarized since, has
settled a subagent, or is among the lost ones. -/
structure Filed (base : List (TranscriptItem V)) (lost : List DeferredItem) (agent : Agent V) :
    Prop where
  record : agent.RecordKept base
  pushed : agent.ledger.pushed.Perm
    (agent.deferred ++ agent.applied ++ agent.ledger.settled ++ lost)

/-- In the middle of a run that started from `baseline`, with all it took
applied. -/
structure Applying (base : List (TranscriptItem V)) (baseline : AgentTranscript V)
    (before : Accounts) (agent : Agent V) : Prop where
  deferrals : agent.Deferrals before []
  recording : agent.Recording base baseline

/-- A run failed, perhaps before it had applied all it took. -/
structure Interrupted (base : List (TranscriptItem V)) (baseline : AgentTranscript V)
    (before : Accounts) (agent : Agent V) : Prop where
  deferrals : ∃ pending, agent.Deferrals before pending
  recording : agent.Recording base baseline

variable {base : List (TranscriptItem V)} {baseline : AgentTranscript V} {agent next : Agent V}
  {before : Accounts} {pending lost : List DeferredItem}

section Moves

variable [DecidableEq V] {allowed : MarkedStep → Prop}

theorem Deferrals.moves (moves : Moves allowed agent next) (noDrain : ¬ allowed .drain)
    (deferrals : agent.Deferrals before pending) : next.Deferrals before pending := by
  induction moves with
  | refl => exact deferrals
  | tail _ step ih => exact ih.step step noDrain

end Moves

end Agent

namespace TurnRunner

variable [DecidableEq V] {before : Agent.Accounts} {pending : List DeferredItem} {α : Type}

/-- The run goes on with every item it took applied. -/
abbrev Applying (before : Agent.Accounts) (program : RunM V α) : Prop :=
  Keeps (fun runner => runner.agent.Deferrals before [])
    (fun runner => ∃ pending, runner.agent.Deferrals before pending) program

theorem Driving.applying {program : RunM V α} (drives : Driving (· ≠ .drain) program) :
    Applying before program :=
  drives.keeps (fun _ _ moves deferrals => deferrals.moves moves fun noDrain => noDrain rfl)
    fun _ deferrals => ⟨[], deferrals⟩

theorem Following.applying {program : RunM V α} (follows : Following (· ≠ .drain) program) :
    Applying before program :=
  (Driving.of_following follows).applying

variable {env : RunEnv V}

/-- The item counts as applied even if its entry could not be saved. -/
theorem appendDeferred_applies {item : DeferredItem} {entry : EntryId → TranscriptItem V}
    {start : TurnRunner V} (deferrals : start.agent.Deferrals before (item :: pending)) :
    Ensures (appendEntry env entry (.deferred item))
      (fun _ runner => runner.agent.Deferrals before pending)
      (fun _ runner => ∃ pending, runner.agent.Deferrals before pending) start := by
  rw [appendEntry, journal, ensures_bind]
  refine ensures_onAgent fun changed agent => ?_
  have applied : changed.agent.Deferrals before pending := by
    rw [agent]
    exact deferrals.apply
  refine ((Sparing.call env .saveAgentMemory) changed).weaken (fun _ final same => ?_)
    fun _ final same => ?_
  · rw [same]
    exact applied
  · rw [same]
    exact ⟨pending, applied⟩

theorem applyDeferredItems_applies (items : List DeferredItem) (start : TurnRunner V)
    (deferrals : start.agent.Deferrals before items) :
    Ensures (applyDeferredItems env items)
      (fun _ runner => runner.agent.Deferrals before [])
      (fun _ runner => ∃ pending, runner.agent.Deferrals before pending) start := by
  induction items generalizing start with
  | nil => exact deferrals
  | cons item rest ih =>
    have applied : Ensures (applyDeferredItem env item)
        (fun _ runner => runner.agent.Deferrals before rest)
        (fun _ runner => ∃ pending, runner.agent.Deferrals before pending) start := by
      cases item with
      | context content | delegationResult content delegation edge =>
        exact appendDeferred_applies deferrals
      | subagentFinished id status =>
        refine ensures_onAgent fun settled agent => ?_
        rw [agent]
        exact deferrals.settle
    exact applied.bind (fun _ middle deferrals => ih middle deferrals) fun _ _ left => left

theorem applyDeferred_applying : Applying before (applyDeferred env) := by
  refine .bind (Following.arrive env).applying fun _ => ?_
  intro start deferrals
  rw [ensures_bind]
  refine ensures_onAgent fun drained agent => ?_
  apply applyDeferredItems_applies
  rw [agent]
  exact deferrals.drain

section Serde

variable [SerdeJson V]

theorem prepareTurn_applying : Applying before (prepareTurn env) := by
  refine .bind (Following.injectTeamInbox env).applying fun _ => ?_
  refine .bind (Following.injectBackgroundNotifications env).applying fun _ => ?_
  refine .bind applyDeferred_applying fun _ => .bind (Following.call env _).applying fun _ => ?_
  exact (Following.autoCompactIfNeeded env).applying

theorem streamTurn_applying : Applying before (streamTurn env) := by
  refine .bind (Following.checkModelBudget env).applying fun _ => ?_
  refine .bind prepareTurn_applying fun _ => .bind (Driving.openTurn env).applying fun opened => ?_
  exact (Following.receiveTurn env opened.1 opened.2).applying

theorem runRounds_applying (bound rounds : Nat) :
    Applying before (runRounds env bound rounds) := by
  refine keeps_runRounds (fun rounds => (Following.beginRound env rounds).applying)
    (fun rounds => .bind streamTurn_applying fun streamed => ?_) bound rounds
  have finishes : Driving (· ≠ .drain) (finishRound env (rounds + 1) streamed) :=
    .finishRound env nofun nofun (rounds + 1) streamed
  exact finishes.applying

/-- A run keeps the record and applies what it takes from the queue. -/
theorem run_applying (base : List (TranscriptItem V)) (baseline : AgentTranscript V) (bound : Nat) :
    Keeps (fun runner => runner.agent.Applying base baseline before)
      (fun runner => runner.agent.Interrupted base baseline before) (run env bound) := by
  intro start applying
  have records : Ensures (run env bound)
      (fun _ runner => runner.agent.Recording base baseline)
      (fun _ runner => runner.agent.Recording base baseline) start :=
    (Driving.runRounds env bound 0).holds (fun _ _ moves recording => recording.moves moves)
      applying.recording
  exact ((runRounds_applying bound 0 start applying.deferrals).both records).weaken
    (fun _ _ both => ⟨both.1, both.2⟩) fun _ _ both => ⟨both.1, both.2⟩

end Serde

end TurnRunner

/-! ## Whole runs -/

/-- What a run that was rolled back took from the deferred queue and did not settle; `settled`
had been settled before. -/
def RunResult.loses (settled : List DeferredItem) (agent : Agent V) :
    RunResult V → List DeferredItem
  | .rolledBack _ => agent.ledger.drained.diff (agent.ledger.settled.drop settled.length)
  | _ => []

namespace Agent

variable {base : List (TranscriptItem V)} {agent next : Agent V} {runStart : RunStart V}
  {before : Accounts} {lost : List DeferredItem}

theorem Fresh.filed (fresh : agent.Fresh) : agent.Filed agent.memory.state.transcript.items [] := by
  refine ⟨fresh.recordKept, ?_⟩
  rw [applied, fresh.ledger, fresh.deferred]
  exact .refl []

/-- How an agent's accounts stand when it opens a run. -/
def accounts (agent : Agent V) (lost : List DeferredItem) : Accounts :=
  ⟨agent.applied, agent.ledger.settled, lost⟩

/-- Nothing is on its way when a run opens. -/
theorem Filed.deferrals (filed : agent.Filed base lost) (idle : agent.ledger.drained = []) :
    agent.Deferrals (agent.accounts lost) [] := by
  constructor
  · rw [append_nil]
    exact filed.pushed
  · exact ⟨[], [], (append_nil _).symm, (append_nil _).symm, .of_eq idle⟩

theorem Filed.receive (filed : agent.Filed base lost) (arrival : Arrival V) :
    (agent.receive arrival).Filed base lost := by
  have same := queuesOnly_receive agent arrival
  obtain ⟨arrived, pushed, deferred⟩ := receive_deferred agent arrival
  have applied : (agent.receive arrival).applied = agent.applied := by
    rw [Agent.applied, Agent.applied, same.recorded]
  constructor
  · exact filed.record.of_same (congrArg (·.state.transcript.items) same.memory) same.recorded
      same.replaced
  · rw [pushed, deferred, applied, same.settled, perm_iff_count]
    intro item
    have earlier := perm_iff_count.mp filed.pushed item
    simp only [count_append] at earlier ⊢
    omega

theorem Filed.requeue (filed : agent.Filed base lost) :
    agent.requeueInflightSteering.Filed base lost :=
  ⟨filed.record.of_same rfl rfl rfl, filed.pushed⟩

theorem Deferrals.begun (opens : agent.Opens next runStart)
    (deferrals : next.Deferrals before []) (runId : String) (id : EntryId) :
    ({ next with idleRequested := false }.beginRun runId id runStart).Deferrals before [] := by
  have applied : ({ next with idleRequested := false }.beginRun runId id runStart).applied =
      next.applied := by
    cases opens with
    | continuation => rfl
    | _ =>
      rw [Agent.applied, beginRun, Ledger.record, filterMap_append]
      exact append_nil _
  cases runStart with
  | userTurn message source =>
    exact ⟨applied.symm ▸ deferrals.pushed, applied.symm ▸ deferrals.taken⟩
  | continuation => exact ⟨deferrals.pushed, deferrals.taken⟩

theorem Deferrals.finished (deferrals : agent.Deferrals before [])
    (record : agent.RecordKept base) :
    agent.finishRun.clearInflightSteering.Filed base before.lost := by
  refine ⟨record.of_same rfl rfl rfl, ?_⟩
  have pushed := deferrals.pushed
  rw [append_nil] at pushed
  exact pushed

/-- The entries of the items that a failed run applied are taken off the transcript, and those
it had still to apply are gone with it. -/
theorem Deferrals.rolledBack {origin : Agent V} (record : origin.RecordKept base)
    (runs : agent.RunsFrom origin.memory.state.transcript) {pending : List DeferredItem}
    (deferrals : agent.Deferrals before pending)
    (before_applied : before.applied = origin.applied) :
    (agent.abandonRun.rollbackFailedRun origin.ledger).Filed base (before.lost ++
      agent.ledger.drained.diff (agent.ledger.settled.drop before.settled.length)) := by
  obtain ⟨pushed, applied, settled, isApplied, isSettled, taken⟩ := deferrals
  refine ⟨runs.rolledBack record, ?_⟩
  have restored : (agent.abandonRun.rollbackFailedRun origin.ledger).applied = before.applied :=
    before_applied.symm
  have sameSettled : (agent.abandonRun.rollbackFailedRun origin.ledger).ledger.settled =
      before.settled ++ settled := isSettled
  rw [restored, sameSettled, isSettled, drop_left, perm_iff_count]
  intro item
  have count := perm_iff_count.mp pushed item
  have share := perm_iff_count.mp taken item
  rw [isApplied, isSettled] at count
  simp only [count_append, count_diff] at count share ⊢
  change agent.ledger.pushed.count item = agent.deferred.count item + _ + _ + _
  omega

variable [DecidableEq V] [SerdeJson V]

/-- What is lost by an action. -/
def lostBy (agent : Agent V) : AgentAction V → List DeferredItem
  | .arrive _ => []
  | .serve env bound runId clock request =>
    match (TurnRunner.serve env bound runId request).exec (.new agent clock) with
    | (.ok result, runner) => result.loses agent.ledger.settled runner.agent
    | (.error _, _) => []

/-- An action, with the account of what was lost by it and before it. -/
def actLosing (state : Agent V × List DeferredItem) (action : AgentAction V) :
    Option (Agent V × List DeferredItem) :=
  (state.1.act action).map fun next => (next, state.2 ++ state.1.lostBy action)

omit [SerdeJson V] in
theorem Filed.opens (filed : agent.Filed base lost) (idle : agent.ledger.drained = [])
    (opens : agent.Opens next runStart) :
    next.RecordKept base ∧ next.applied = agent.applied ∧
      next.Deferrals (agent.accounts lost) [] := by
  refine ⟨?_, ?_, (filed.deferrals idle).moves opens.moves fun noDrain => noDrain rfl⟩
  · have recorded (other : Agent V) (moves : Moves (· ≠ .drain) agent other) :
        other.RecordKept base := by
      induction moves with
      | refl => exact filed.record
      | tail _ step ih => exact ih.step step
    exact recorded next opens.moves
  · have recorded (other : Agent V) (moves : Moves (· ≠ .drain) agent other) :
        other.applied = agent.applied := by
      induction moves with
      | refl => rfl
      | tail _ step ih => exact (step.applied fun noDrain => noDrain rfl).trans ih
    exact recorded next opens.moves

theorem Filed.act {action : AgentAction V} (filed : agent.Filed base lost)
    (acted : agent.act action = some next) : next.Filed base (lost ++ agent.lostBy action) := by
  cases action with
  | arrive arrival =>
    cases acted
    rw [lostBy, append_nil]
    exact filed.receive arrival
  | serve env bound runId clock request =>
    let opening := TurnRunner.new agent clock
    have openFiled : opening.agent.Filed base lost :=
      ⟨filed.record.of_same rfl rfl rfl, filed.pushed⟩
    have ends : TurnRunner.EndsIn
        (fun result last => last.Filed base (lost ++ result.loses agent.ledger.settled last))
        (TurnRunner.serve env bound runId request) opening := by
      refine TurnRunner.serve_endsIn request ?_ ?_
      · intro next runStart opens runner reached
        subst reached
        obtain ⟨record, applied, deferrals⟩ := openFiled.opens rfl opens
        refine TurnRunner.driveRun_endsIn
          (fun id => ⟨deferrals.begun opens runId id, opens.recording record runId id⟩)
          (TurnRunner.run_applying base _ bound) ?_ ?_
        · intro message last applying
          change Filed base (lost ++ []) _
          rw [append_nil]
          exact applying.deferrals.finished applying.recording.record
        · rintro error last ⟨⟨pending, deferrals⟩, recording⟩
          exact deferrals.rolledBack record recording.runs applied.symm
      · intro result last filed
        cases result <;> exact filed.requeue
    obtain ⟨result, runner, ran, isEnd, reached⟩ := exec_of_act_serve acted
    rw [← reached, lostBy, ran]
    exact (ensures_of_exec ends).1 result runner ran isEnd

/-- After any arrivals and runs, every item pushed is exactly once in the queue, on the
transcript or summarized since, among those that have settled a subagent, or among those that
runs that were rolled back took and did not settle. -/
theorem deferred_filed {start agent : Agent V} {lost : List DeferredItem} (fresh : start.Fresh)
    (reachable : Reachable actLosing (start, []) (agent, lost)) :
    agent.Filed start.memory.state.transcript.items lost := by
  have kept (state : Agent V × List DeferredItem) (action : AgentAction V)
      (next : Agent V × List DeferredItem)
      (filed : state.1.Filed start.memory.state.transcript.items state.2)
      (acted : actLosing state action = some next) :
      next.1.Filed start.memory.state.transcript.items next.2 := by
    obtain ⟨last, moved, rfl⟩ := Option.map_eq_some_iff.mp acted
    exact filed.act moved
  have filed := Reachable.invariant kept fresh.filed reachable
  exact filed

/-- A run that is rolled back loses what it took from the queue; what is pushed later is on the
transcript in the end. -/
theorem deferred_filed_after_rollback :
    ∃ agent : Agent Unit, Reachable actLosing (idleAgent {}, []) (agent, [.context "first"]) ∧
      agent.applied = [.context "second"] ∧
      agent.ledger.settled = [.subagentFinished "child" .finished] ∧
      agent.Filed [] [.context "first"] := by
  have ran : (run actLosing ((idleAgent {} : Agent Unit), [])
      [.arrive (.deferred (.subagentFinished "child" .finished)),
        .arrive (.deferred (.context "first")),
        .serve refusingEnv 3 "one" 0 (.send [.text "go"]),
        .arrive (.deferred (.context "second")),
        .serve crowdedEnv 3 "two" 100 (.send [.text "go"])]).any
        fun state => state.1.applied = [.context "second"] ∧
          state.1.ledger.settled = [.subagentFinished "child" .finished] ∧
          state.2 = [.context "first"] := by
    decide +kernel
  obtain ⟨⟨agent, lost⟩, reachable, tested⟩ := exists_reachable_of_any ran
  obtain ⟨applied, settled, rfl⟩ := of_decide_eq_true tested
  exact ⟨agent, reachable, applied, settled, deferred_filed (fresh_idleAgent {}) reachable⟩

/-- The item pushed is neither in the queue nor on the transcript. -/
abbrev Missing (item : DeferredItem) (agent : Agent V) : Prop :=
  agent.ledger.pushed = [item] ∧ item ∉ agent.deferred ∧
    ∀ entry ∈ agent.memory.state.transcript.items,
      (deferredEntry entry.id item).map TranscriptItem.unlinked ≠ some entry.unlinked

/-- A settled subagent leaves no entry, an entry can be summarized, and a run
that is rolled back loses what it applied. -/
theorem deferred_item_missing :
    (∃ agent : Agent Unit, Reachable act (idleAgent {}) agent ∧
      agent.Missing (.subagentFinished "child" .finished)) ∧
    (∃ agent : Agent Unit, Reachable act (idleAgent {}) agent ∧ agent.Missing (.context "note")) ∧
    ∃ agent : Agent Unit, Reachable act (idleAgent {}) agent ∧
      agent.Missing (.context "note") ∧ agent.ledger.replaced = [] := by
  have settled : (run act (idleAgent {})
      [.arrive (.deferred (.subagentFinished "child" .finished)),
        .serve crowdedEnv 3 "one" 0 (.send [.text "go"])]).any
        fun agent : Agent Unit => agent.Missing (.subagentFinished "child" .finished) := by
    decide +kernel
  have summarized : (run act (idleAgent {})
      [.arrive (.deferred (.context "note")), .serve crowdedEnv 3 "one" 0 (.send [.text "go"]),
        .serve crowdedEnv 3 "two" 100 (.send [.text "on"])]).any
        fun agent : Agent Unit => agent.Missing (.context "note") := by
    decide +kernel
  have rolledBack : (run act (idleAgent {})
      [.arrive (.deferred (.context "note")),
        .serve refusingEnv 3 "one" 0 (.send [.text "go"])]).any
        fun agent : Agent Unit => agent.Missing (.context "note") ∧ agent.ledger.replaced = [] := by
    decide +kernel
  obtain ⟨first, reachFirst, missing⟩ := exists_reachable_of_any settled
  obtain ⟨second, reachSecond, gone⟩ := exists_reachable_of_any summarized
  obtain ⟨third, reachThird, lost⟩ := exists_reachable_of_any rolledBack
  exact ⟨⟨first, reachFirst, of_decide_eq_true missing⟩,
    ⟨second, reachSecond, of_decide_eq_true gone⟩, third, reachThird, of_decide_eq_true lost⟩

end Agent

end Mentra

import Mentra.Agent.Steps
import Mentra.Orchestrator.Effects
import Mentra.Runner.Core

/-!
# What the parts of a run do

All of a run but the sending of requests moves the agent by its steps and leaves the request
count and the log alone.  Only `applyDeferred` drains the deferred queue, only `injectQueued`
takes from the steering queues, only `commitAssistantMessage` and `appendToolResults` commit a
turn.
-/

namespace Mentra.TurnRunner

open Foundation Program Agent
open Foundation.Program (Along Keeps)
open Orchestrator (RoundM ToolExecutionOutcome)

variable {V : Type} [DecidableEq V]

/-- From `start` to `final` the agent took steps, and nothing was sent or
received. -/
structure Follows (allowed : MarkedStep → Prop) (start final : TurnRunner V) : Prop where
  agent : Moves allowed start.agent final.agent
  modelRequests : final.modelRequests = start.modelRequests
  log : final.log = start.log

variable {α : Type} {start : TurnRunner V}

omit [DecidableEq V] in
theorem ensures_onAgent {operation : Nat → Agent V → α × Agent V} {post : α → TurnRunner V → Prop}
    {fail : RuntimeError → TurnRunner V → Prop}
    (holds : ∀ final, final.agent = (operation start.toolRuntime.clock start.agent).2 →
      post (operation start.toolRuntime.clock start.agent).1 final) :
    Ensures (onAgent operation) post fail start := by
  exact holds _ rfl

omit [DecidableEq V] in
theorem ensures_currentAgent {post : Agent V → TurnRunner V → Prop}
    {fail : RuntimeError → TurnRunner V → Prop} :
    Ensures currentAgent post fail start ↔ post start.agent start :=
  Iff.rfl

/-- A program that only lets the agent take steps, however it ends. -/
abbrev Following (allowed : MarkedStep → Prop) (program : RunM V α) : Prop :=
  Along (Follows allowed) program

namespace Following

variable {α β : Type} {allowed : MarkedStep → Prop}

theorem same (runner : TurnRunner V) : Follows allowed runner runner :=
  ⟨.refl _, rfl, rfl⟩

theorem pure (value : α) : Following allowed (Pure.pure value : RunM V α) :=
  Along.pure same value

theorem throw (error : RuntimeError) : Following allowed (MonadExcept.throw error : RunM V α) :=
  Along.throw same error

theorem lift (result : Except RuntimeError α) :
    Following allowed (Program.lift result : RunM V α) :=
  Along.lift same result

theorem get : Following allowed (MonadState.get : RunM V (TurnRunner V)) :=
  same

theorem bind {first : RunM V α} {rest : α → RunM V β} (follows : Following allowed first)
    (goesOn : ∀ value, Following allowed (rest value)) : Following allowed (first >>= rest) :=
  Along.bind (R := Follows allowed)
    (fun _ _ _ left right => ⟨left.agent.trans right.agent,
      right.modelRequests.trans left.modelRequests, right.log.trans left.log⟩) follows goesOn

theorem onTools {program : RoundM (Agent V) V α}
    (moving : Orchestrator.Moving (Moves allowed) program) :
    Following allowed (TurnRunner.onTools program) := by
  intro start
  rw [TurnRunner.onTools, ensures_zoom]
  apply (moving start.toolRuntime).weaken
  · exact fun _ _ moved => ⟨moved, rfl, rfl⟩
  · exact fun _ _ moved => ⟨moved, rfl, rfl⟩

theorem ask (question : Nat → α) : Following allowed (TurnRunner.ask question : RunM V α) :=
  onTools fun start => Moves.refl start.agent

theorem onAgent {operation : Nat → Agent V → α × Agent V}
    (moves : ∀ now agent, Moves allowed agent (operation now agent).2) :
    Following allowed (TurnRunner.onAgent operation : RunM V α) :=
  onTools fun start => moves start.clock start.agent

theorem currentAgent : Following allowed (TurnRunner.currentAgent : RunM V (Agent V)) :=
  bind get fun _ => pure _

theorem recordEarlyEnd (earlyEnd : EarlyEnd) :
    Following allowed (TurnRunner.recordEarlyEnd earlyEnd : RunM V PUnit) :=
  fun _ => ⟨.refl _, rfl, rfl⟩

variable (env : RunEnv V)

theorem call (runtimeCall : RuntimeCall) : Following allowed (TurnRunner.call env runtimeCall) :=
  bind (ask _) lift

theorem arrive : Following allowed (TurnRunner.arrive env) :=
  onAgent fun _ agent =>
    .foldl (fun other arrival => .single (.receive other arrival)) agent _

theorem journal {change : EntryId → Agent V → Agent V}
    (moves : ∀ id agent, Moves allowed agent (change id agent)) :
    Following allowed (TurnRunner.journal env change) :=
  bind (onAgent fun _ agent => moves _ agent) fun _ => call env _

/-- What a change of the agent establishes is kept while it is saved. -/
theorem journal_holds {change : EntryId → Agent V → Agent V} {Holds : TurnRunner V → Prop}
    (kept : ∀ middle final, Follows allowed middle final → Holds middle → Holds final)
    (changed : ∀ id final, final.agent = change id start.agent → final.log = start.log →
      Holds final) :
    Ensures (TurnRunner.journal env change) (fun _ => Holds) (fun _ => Holds) start := by
  exact (call env .saveAgentMemory).holds kept (changed _ _ rfl rfl)

theorem appendEntry {entry : EntryId → TranscriptItem V}
    (note : ∀ id, ∃ text, (entry id).message = some (.user (.text text))) :
    Following allowed (TurnRunner.appendEntry env entry) := by
  refine journal env fun id agent => ?_
  obtain ⟨text, message⟩ := note id
  exact .single (.note agent (entry id) text message)

/-! ## What a turn starts with -/

theorem recordTeamMessages (messages : List TeamMessage) :
    Following allowed (TurnRunner.recordTeamMessages env messages) := by
  induction messages with
  | nil => exact pure _
  | cons message rest ih => exact bind (appendEntry env fun id => ⟨_, rfl⟩) fun _ => ih

theorem injectTeamInbox : Following allowed (TurnRunner.injectTeamInbox env) :=
  bind (ask _) fun _ => bind (lift _) fun messages => recordTeamMessages env messages

theorem injectBackgroundNotifications :
    Following allowed (TurnRunner.injectBackgroundNotifications env) := by
  refine bind (ask _) fun notifications => ?_
  split
  · exact pure _
  · exact appendEntry env fun id => ⟨_, rfl⟩

theorem appendDeferred (drains : allowed .drain) (item : DeferredItem)
    {entry : EntryId → TranscriptItem V}
    (leaves : ∀ id, deferredEntry id item = some (entry id)) :
    Following allowed (TurnRunner.appendEntry env entry (.deferred item)) :=
  journal env fun id agent => .single (.apply drains agent id item (entry id) (leaves id))

theorem applyDeferredItem (drains : allowed .drain) (item : DeferredItem) :
    Following allowed (TurnRunner.applyDeferredItem env item) := by
  cases item with
  | context content
  | delegationResult content delegation edge => exact appendDeferred env drains _ fun _ => rfl
  | subagentFinished id status =>
    exact onAgent fun _ agent => .single (.settle drains agent id status)

theorem applyDeferredItems (drains : allowed .drain) (items : List DeferredItem) :
    Following allowed (TurnRunner.applyDeferredItems env items) := by
  induction items with
  | nil => exact pure _
  | cons item rest ih => exact bind (applyDeferredItem env drains item) fun _ => ih

theorem applyDeferred (drains : allowed .drain) :
    Following allowed (TurnRunner.applyDeferred env) := by
  refine bind (arrive env) fun _ => ?_
  refine bind (onAgent fun _ agent => .single (.drain drains agent)) fun items => ?_
  exact applyDeferredItems env drains items

/-! ## Compaction -/

theorem compactHistory : Following allowed (TurnRunner.compactHistory env) :=
  bind (onAgent fun _ agent => moves_compactHistory allowed agent _) fun _ => lift _

theorem autoCompact (left : Nat) : Following allowed (TurnRunner.autoCompact env left) := by
  induction left with
  | zero => exact pure _
  | succ left ih =>
    refine bind (compactHistory env).attempt fun result => ?_
    cases result with
    | ok _ => exact pure _
    | error error =>
      dsimp only
      split
      · exact throw _
      · split
        · exact bind (call env _) fun _ => ih
        · exact pure _

theorem compactAfterContextOverflow :
    Following allowed (TurnRunner.compactAfterContextOverflow env) :=
  bind (compactHistory env) fun _ => pure _

theorem checkModelBudget : Following allowed (TurnRunner.checkModelBudget env) := by
  refine bind get fun runner => ?_
  split
  · exact throw _
  · exact pure _

variable (attempt : Nat)

theorem failedRequest (error : ProviderError) :
    Following allowed (TurnRunner.failedRequest env attempt error) :=
  call env _

theorem acceptStream (stream : ProviderEventStream V) :
    Following allowed (TurnRunner.acceptStream env attempt stream) :=
  bind (call env _) fun _ => pure _

theorem giveUp (error : ProviderError) :
    Following allowed (TurnRunner.giveUp env attempt error : RunM V α) :=
  bind (failedRequest env attempt error) fun _ => throw _

/-! ## Receiving and committing -/

theorem failResponse (error : RuntimeError) :
    Following allowed (TurnRunner.failResponse env attempt error : RunM V α) :=
  bind (call env _) fun _ => throw _

theorem responding {program : RunM V α} (follows : Following allowed program) :
    Following allowed (TurnRunner.responding env attempt program) := by
  refine bind follows.attempt fun result => ?_
  cases result with
  | ok value => exact pure _
  | error error => exact failResponse env attempt error

theorem updatePendingTurn (turn : PendingAssistantTurn V) :
    Following allowed (TurnRunner.updatePendingTurn env turn) :=
  journal env fun _ _ => .single (.aside ⟨rfl, rfl, rfl, rfl, rfl, rfl⟩)

theorem appendInvalidToolInputFeedback (invalidToolUses : List InvalidToolUse) :
    Following allowed (TurnRunner.appendInvalidToolInputFeedback env invalidToolUses) :=
  appendEntry env fun id => ⟨_, TranscriptItem.ofMessage_message id _⟩

theorem injectRoundContext (content : List (ContentBlock V)) :
    Following allowed (TurnRunner.injectRoundContext env content) :=
  journal env fun id agent => .single (.inject agent id content)

theorem appendToolResults (turns : allowed .turn) (execution : ToolExecutionOutcome V) :
    Following allowed (TurnRunner.appendToolResults env execution) :=
  journal env fun _ _ => .single (.turn turns _ ⟨rfl, rfl, rfl, rfl, rfl, rfl⟩)

/-! ## Round boundaries -/

theorem endsEarly : Following allowed (TurnRunner.endsEarly env) := by
  refine bind (ask _) fun stop => ?_
  split
  · exact bind (recordEarlyEnd _) fun _ => pure _
  · refine bind (ask _) fun spent => ?_
    split
    · exact bind (recordEarlyEnd _) fun _ => pure _
    · exact pure _

variable (rounds : Nat)

theorem checkMaxRounds : Following allowed (TurnRunner.checkMaxRounds env rounds) := by
  unfold TurnRunner.checkMaxRounds
  split
  · split
    · exact throw _
    · exact pure _
  · exact pure _

theorem nextRequestIsAvailable :
    Following allowed (TurnRunner.nextRequestIsAvailable env rounds) := by
  refine bind (call env _) fun _ => bind (endsEarly env) fun ends => ?_
  split
  · exact pure _
  · refine bind (checkMaxRounds env rounds) fun _ => ?_
    exact bind (checkModelBudget env) fun _ => pure _

theorem beginRound : Following allowed (TurnRunner.beginRound env rounds) := by
  refine bind (call env _) fun _ => bind (endsEarly env) fun ends => ?_
  split
  · exact pure _
  · refine bind (checkMaxRounds env rounds) fun _ => ?_
    exact bind (call env _) fun _ => pure _

theorem isPending (pending : Agent V → Bool) :
    Following allowed (TurnRunner.isPending env pending) :=
  bind (arrive env) fun _ => bind currentAgent fun _ => pure _

theorem takeQueued (takes : allowed .take) (queue : SteeringQueue) :
    Following allowed (TurnRunner.takeQueued env queue) := by
  refine bind (onAgent fun _ agent => .single (.take takes agent queue)) fun taken => ?_
  cases taken with
  | some entries =>
    refine bind (journal env fun id agent => ?_) fun _ => pure _
    exact .single (.deliver takes agent id queue entries)
  | none => exact pure _

theorem injectQueued (takes : allowed .take) (rounds : Nat) (queue : SteeringQueue) :
    Following allowed (TurnRunner.injectQueued env rounds queue) := by
  refine bind (isPending env _) fun waiting => ?_
  split
  · refine bind (nextRequestIsAvailable env rounds) fun available => ?_
    split
    · exact bind (arrive env) fun _ => takeQueued env takes queue
    · exact pure _
  · exact pure _

theorem setModel (model : ModelInfo) : Following allowed (TurnRunner.setModel env model) := by
  refine bind (call env _) fun _ => ?_
  exact bind (onAgent fun _ _ => .single (.aside ⟨rfl, rfl, rfl, rfl, rfl, rfl⟩)) fun _ =>
    call env _

theorem applyRoundAdjustment (adjustment : RoundAdjustment) :
    Following allowed (TurnRunner.applyRoundAdjustment env adjustment) := by
  have adjusts : Following allowed (TurnRunner.adjustModel env adjustment.model) := by
    cases adjustment.model with
    | some model => exact setModel env model
    | none => exact pure _
  refine bind adjusts fun _ => ?_
  split
  · exact call env _
  · exact pure _

theorem runRoundStrategy (strategy : Nat → RoundContext V → RoundDecision V)
    (boundary : RoundBoundary) (assistantMessage : Option (Message V))
    (toolResults : List RoundToolResult) (rounds : Nat) :
    Following allowed (TurnRunner.runRoundStrategy env strategy boundary assistantMessage
      toolResults rounds) := by
  refine bind get fun runner => bind (ask _) fun decision => ?_
  cases decision with
  | «continue» adjustment => exact bind (applyRoundAdjustment env adjustment) fun _ => pure _
  | inject content adjust =>
    refine bind (applyRoundAdjustment env adjust) fun _ => ?_
    exact bind (injectRoundContext env content) fun _ => pure _
  | stop => exact pure _

theorem decideRound (boundary : RoundBoundary) (assistantMessage : Option (Message V))
    (toolResults : List RoundToolResult) (rounds : Nat) :
    Following allowed (TurnRunner.decideRound env boundary assistantMessage toolResults
      rounds) := by
  unfold TurnRunner.decideRound
  split
  · exact runRoundStrategy env _ boundary assistantMessage toolResults rounds
  · exact pure _

theorem persistInjected : Following allowed (TurnRunner.persistInjected env) :=
  bind (call env _) fun _ => pure _

theorem finishDecided (flow : RoundFlow) :
    Following allowed (TurnRunner.finishDecided env rounds flow) := by
  cases flow with
  | inject => exact persistInjected env
  | stop => exact pure _
  | «continue» =>
    refine bind (isPending env _) fun waiting => ?_
    split
    · refine bind (nextRequestIsAvailable env rounds) fun available => ?_
      split
      · exact persistInjected env
      · exact pure _
    · exact pure _

theorem finishTextRound (takes : allowed .take) (rounds : Nat) :
    Following allowed (TurnRunner.finishTextRound env rounds) := by
  refine bind (injectQueued env takes rounds .steer) fun steered => ?_
  split
  · exact persistInjected env
  · exact pure _
  · refine bind (injectQueued env takes rounds .followUp) fun followed => ?_
    split
    · exact persistInjected env
    · exact pure _
    · refine bind currentAgent fun agent => ?_
      exact bind (decideRound env _ _ _ rounds) fun flow => finishDecided env rounds flow

theorem finishInvalidRound (invalidToolUses : List InvalidToolUse) :
    Following allowed (TurnRunner.finishInvalidRound env invalidToolUses) :=
  bind (appendInvalidToolInputFeedback env invalidToolUses) fun _ =>
    bind (call env _) fun _ => pure _

theorem endToolRound (takes : allowed .take) (rounds : Nat) (calls : List (ToolCall V))
    (execution : ToolExecutionOutcome V) :
    Following allowed (TurnRunner.endToolRound env rounds calls execution) := by
  refine bind (call env _) fun _ => ?_
  split
  · exact pure _
  · refine bind (injectQueued env takes rounds .steer) fun steered => ?_
    split
    · exact pure _
    · refine bind (decideRound env _ _ _ rounds) fun flow => ?_
      split
      · exact pure _
      · exact pure _

/-! ## Tools -/

/-- Tools reach the agent through its steps. -/
theorem toolsKeep : env.tools.toEnv.Keeps (Moves allowed) where
  refl := Moves.refl
  trans _ _ _ := Moves.trans
  noteToolStarted now call agent := by
    rw [env.tools.notes]
    exact .refl agent
  takeIdleRequested agent := by
    rw [env.tools.takesIdle]
    exact .single (.aside ⟨rfl, rfl, rfl, rfl, rfl, rfl⟩)
  recordPagedToolResult toolUseId full agent := by
    rw [env.tools.pages]
    exact .single (.aside ⟨rfl, rfl, rfl, rfl, rfl, rfl⟩)
  executeMutOutput agent name tool visible now context input other := by
    obtain ⟨actions, acted⟩ := env.tools.acts agent name tool visible now context input other
    rw [acted]
    exact .foldl (moves_perform allowed) other actions

section Serde

variable [SerdeJson V]

theorem executeCalls (calls : List (ToolCall V)) :
    Following allowed (TurnRunner.onTools (Orchestrator.executeCalls env.tools.toEnv calls)) :=
  onTools ((toolsKeep env).executeCalls calls)

theorem autoCompactIfNeeded : Following allowed (TurnRunner.autoCompactIfNeeded env) := by
  refine bind currentAgent fun agent => ?_
  split
  · exact pure _
  · refine bind (ask _) fun estimated => ?_
    split
    · exact pure _
    · exact autoCompact env _

theorem receiveEvents (attempt : Nat) (stream : ProviderEventStream V)
    (turn : PendingAssistantTurn V) :
    Following allowed (TurnRunner.receiveEvents env attempt stream turn) := by
  induction stream generalizing turn with
  | nil => exact pure _
  | cons event rest ih =>
    refine bind (responding env attempt (call env _)) fun _ => ?_
    refine bind (responding env attempt (lift _)) fun event => ?_
    refine bind (responding env attempt (lift _)) fun applied => ?_
    exact bind (updatePendingTurn env applied.2) fun _ => ih applied.2

theorem prepareTurn (drains : allowed .drain) : Following allowed (TurnRunner.prepareTurn env) := by
  refine bind (injectTeamInbox env) fun _ => ?_
  refine bind (injectBackgroundNotifications env) fun _ => ?_
  refine bind (applyDeferred env drains) fun _ => ?_
  exact bind (call env _) fun _ => autoCompactIfNeeded env

theorem receiveTurn (stream : ProviderEventStream V) (attempt : Nat) :
    Following allowed (TurnRunner.receiveTurn env stream attempt) := by
  refine bind (updatePendingTurn env {}) fun _ => ?_
  refine bind (responding env attempt (call env _)) fun _ => ?_
  exact bind (receiveEvents env attempt stream {}) fun _ => pure _

theorem commitAssistantMessage (turns : allowed .turn) (turn : PendingAssistantTurn V) :
    Following allowed (TurnRunner.commitAssistantMessage env turn) := by
  refine bind (lift _) fun message => ?_
  split
  · exact journal env fun _ _ => .single (.aside ⟨rfl, rfl, rfl, rfl, rfl, rfl⟩)
  · refine journal env fun id agent => .single (.turn turns (.ofMessage id message) ?_)
    refine ⟨rfl, ?_, rfl, rfl, rfl, rfl⟩
    change (agent.memory.state.run.map _).map _ = _
    rw [Option.map_map]
    rfl

theorem finishToolRound (turns : allowed .turn) (takes : allowed .take) (rounds : Nat)
    (calls : List (ToolCall V)) :
    Following allowed (TurnRunner.finishToolRound env rounds calls) := by
  refine bind (executeCalls env calls) fun execution => ?_
  refine bind (appendToolResults env turns execution) fun _ => ?_
  exact endToolRound env takes rounds calls execution

theorem continueRound (turns : allowed .turn) (takes : allowed .take) (rounds : Nat)
    (turn : PendingAssistantTurn V) :
    Following allowed (TurnRunner.continueRound env rounds turn) := by
  unfold TurnRunner.continueRound
  split
  · exact finishInvalidRound env turn.invalidToolUses
  · split
    · exact finishTextRound env takes rounds
    · exact finishToolRound env turns takes rounds turn.readyToolCalls

end Serde

end Following

/-- Attempts reach what one attempt and what is done before a retry reach. -/
theorem reaches_openAttempts (allowed : MarkedStep → Prop) {env : RunEnv V}
    {request : List (Message V)} {Ready Sent : TurnRunner V → Prop}
    (attempts : ∀ attempt start, Ready start →
      Reaches Sent (attemptRequest env request attempt) start)
    (prepares : ∀ attempt error start, Sent start →
      Ensures (prepareRetry env attempt error) (fun _ => Ready) (fun _ => Sent) start)
    (kept : ∀ start final, Follows allowed start final → Sent start → Sent final)
    (retries attempt : Nat) {start : TurnRunner V} (ready : Ready start) :
    Reaches Sent (openAttempts env request retries attempt) start := by
  induction retries generalizing attempt start with
  | zero =>
    apply (attempts attempt start ready).bind
    intro answer middle sent
    cases answer with
    | ok stream => exact (Following.acceptStream env attempt stream).holds kept sent
    | error error => exact (Following.giveUp env attempt error).holds kept sent
  | succ retries ih =>
    apply (attempts attempt start ready).bind
    intro answer middle sent
    cases answer with
    | ok stream => exact (Following.acceptStream env attempt stream).holds kept sent
    | error error =>
      dsimp only
      split
      · apply (prepares attempt error middle sent).bind
        · exact fun _ _ ready => ih (attempt + 1) ready
        · exact fun _ _ sent => sent
      · exact (Following.giveUp env attempt error).holds kept sent

/-! ## What leaves the agent alone -/

/-- A program that does nothing to the agent. -/
abbrev Sparing (program : RunM V α) : Prop :=
  Along (fun start final : TurnRunner V => final.agent = start.agent) program

namespace Sparing

variable {α β : Type}

omit [DecidableEq V] in
theorem bind {first : RunM V α} {rest : α → RunM V β} (spares : Sparing first)
    (goesOn : ∀ value, Sparing (rest value)) : Sparing (first >>= rest) :=
  Along.bind (R := fun start final : TurnRunner V => final.agent = start.agent)
    (fun _ _ _ left right => right.trans left) spares goesOn

theorem call (env : RunEnv V) (runtimeCall : RuntimeCall) :
    Sparing (TurnRunner.call env runtimeCall) :=
  bind (fun _ => rfl) fun result =>
    Along.lift (R := fun start final : TurnRunner V => final.agent = start.agent)
      (fun _ => rfl) result

omit [DecidableEq V] in
theorem holds {program : RunM V α} (spares : Sparing program) (Holds : Agent V → Prop)
    (initial : Holds start.agent) :
    Ensures program (fun _ final => Holds final.agent) (fun _ final => Holds final.agent)
      start := by
  refine (spares start).weaken (fun _ final same => ?_) fun _ final same => ?_
  · exact same ▸ initial
  · exact same ▸ initial

end Sparing

/-! ## What happens to the agent alone -/

/-- A program that only lets the agent take steps; it may send and receive. -/
abbrev Driving (allowed : MarkedStep → Prop) (program : RunM V α) : Prop :=
  Along (fun start final : TurnRunner V => Moves allowed start.agent final.agent) program

namespace Driving

variable {α β : Type} {allowed : MarkedStep → Prop}

theorem of_following {program : RunM V α} (follows : Following allowed program) :
    Driving allowed program :=
  follows.mono fun _ _ follows => follows.agent

theorem bind {first : RunM V α} {rest : α → RunM V β} (drives : Driving allowed first)
    (goesOn : ∀ value, Driving allowed (rest value)) : Driving allowed (first >>= rest) :=
  Along.bind (R := fun start final : TurnRunner V => Moves allowed start.agent final.agent)
    (fun _ _ _ left right => left.trans right) drives goesOn

theorem modify {change : TurnRunner V → TurnRunner V}
    (same : ∀ runner, (change runner).agent = runner.agent) :
    Driving allowed (modify change : RunM V PUnit) := by
  intro start
  rw [ensures_modify]
  dsimp only
  rw [same]
  exact .refl start.agent

variable (env : RunEnv V)

theorem attemptRequest (request : List (Message V)) (attempt : Nat) :
    Driving allowed (TurnRunner.attemptRequest env request attempt) := by
  refine bind (of_following (.call env _)) fun _ => bind (modify fun _ => rfl) fun _ => ?_
  refine bind (of_following (.call env _)) fun _ => bind (modify fun _ => rfl) fun _ => ?_
  exact bind (of_following (.ask _)) fun _ => of_following (.lift _)

theorem prepareRetry (attempt : Nat) (error : ProviderError) :
    Driving allowed (TurnRunner.prepareRetry env attempt error) := by
  refine bind (modify fun _ => rfl) fun _ =>
    bind (of_following (.failedRequest env _ _)) fun _ => ?_
  exact bind (of_following (.checkModelBudget env)) fun _ => of_following (.call env _)

theorem openAttempts (request : List (Message V)) (retries attempt : Nat) :
    Driving allowed (TurnRunner.openAttempts env request retries attempt) := by
  intro start
  have kept (middle final : TurnRunner V) (moves : Moves allowed middle.agent final.agent)
      (moved : Moves allowed start.agent middle.agent) : Moves allowed start.agent final.agent :=
    moved.trans moves
  exact reaches_openAttempts allowed
    (fun attempt _ => (attemptRequest env request attempt).holds kept)
    (fun attempt error _ => (prepareRetry env attempt error).holds kept)
    (fun middle final follows => kept middle final follows.agent) retries attempt
    (.refl start.agent)

section Serde

variable [SerdeJson V]

theorem openModelStream : Driving allowed (TurnRunner.openModelStream env) := by
  refine bind (of_following .currentAgent) fun agent => ?_
  refine bind (of_following (.ask _)) fun recalled => ?_
  exact bind (of_following (.call env _)) fun _ => openAttempts env _ _ _

theorem openTurn : Driving allowed (TurnRunner.openTurn env) := by
  refine bind (openModelStream env).attempt fun opened => ?_
  split
  · exact of_following (.pure _)
  · split
    · refine bind (of_following (.compactAfterContextOverflow env)) fun _ => ?_
      exact bind (modify fun _ => rfl) fun _ => openModelStream env
    · exact of_following (.throw _)
  · exact of_following (.throw _)

theorem streamTurn (drains : allowed .drain) : Driving allowed (TurnRunner.streamTurn env) := by
  refine bind (of_following (.checkModelBudget env)) fun _ => ?_
  refine bind (of_following (.prepareTurn env drains)) fun _ => bind (openTurn env) fun opened => ?_
  exact of_following (.receiveTurn env opened.1 opened.2)

theorem finishRound (turns : allowed .turn) (takes : allowed .take) (rounds : Nat)
    (streamed : StreamedTurn V) :
    Driving allowed (TurnRunner.finishRound env rounds streamed) := by
  refine bind (modify fun _ => rfl) fun _ => ?_
  refine bind (of_following (.responding env _ (.commitAssistantMessage env turns _))) fun _ => ?_
  refine bind (of_following (.call env _)) fun _ => ?_
  exact of_following (.continueRound env turns takes rounds streamed.pending)

/-- Whatever a run does, the agent only takes steps. -/
theorem runRounds (bound rounds : Nat) :
    Driving (fun _ => True) (TurnRunner.runRounds env bound rounds) := by
  induction bound generalizing rounds with
  | zero => exact of_following (.pure _)
  | succ bound ih =>
    have round : Driving (fun _ => True) (TurnRunner.runRound env rounds) := by
      refine bind (of_following (.beginRound env rounds)) fun goesOn => ?_
      split
      · exact bind (streamTurn env trivial) fun streamed =>
          finishRound env trivial trivial (rounds + 1) streamed
      · exact of_following (.pure _)
    refine bind round fun roundEnd => ?_
    cases roundEnd with
    | done => exact of_following (.pure _)
    | again => exact ih (rounds + 1)

end Serde

end Driving

/-- The loop keeps what the two parts of a round keep. -/
theorem keeps_runRounds [SerdeJson V] {env : RunEnv V} {Good Bad : TurnRunner V → Prop}
    (begins : ∀ rounds, Keeps Good Bad (beginRound env rounds))
    (goesOn : ∀ rounds, Keeps Good Bad (streamTurn env >>= finishRound env (rounds + 1)))
    (bound rounds : Nat) : Keeps Good Bad (runRounds env bound rounds) := by
  induction bound generalizing rounds with
  | zero => exact .pure _
  | succ bound ih =>
    refine .bind (.bind (begins rounds) fun begun => ?_) fun roundEnd => ?_
    · split
      · exact goesOn rounds
      · exact .pure _
    · cases roundEnd with
      | done => exact .pure _
      | again => exact ih (rounds + 1)

end Mentra.TurnRunner

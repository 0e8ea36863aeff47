import Mentra.Agent.Answered
import Mentra.Runner.Steps

/-!
# Answered calls in the requests of a run

Every request a run sends has its calls answered, as long as the turns it receives are clean
and hosts enter no tool results of their own.  A turn is clean when it speaks for the
assistant, its calls have different ids, and it does not mix calls that can be read with calls
that cannot: the runner commits the readable calls of a mixed turn and then runs none of them.
-/

namespace Mentra

open Foundation Program TranscriptItem List Message
open Orchestrator (ToolExecutionOutcome)

namespace PendingAssistantTurn

variable {V : Type} [SerdeJson V]

/-- A turn whose calls are all going to be answered, once each. -/
structure Clean (turn : PendingAssistantTurn V) : Prop where
  speaker : ∀ role ∈ turn.role, role = .assistant
  distinct : (turn.readyToolCalls.map ToolCall.id).Nodup
  unmixed : turn.invalidToolUses.isEmpty ∨ turn.readyToolCalls.isEmpty

instance (turn : PendingAssistantTurn V) : Decidable turn.Clean :=
  decidable_of_iff
    ((∀ role ∈ turn.role, role = .assistant) ∧ (turn.readyToolCalls.map ToolCall.id).Nodup ∧
      (turn.invalidToolUses.isEmpty ∨ turn.readyToolCalls.isEmpty))
    ⟨fun ⟨speaker, distinct, unmixed⟩ => ⟨speaker, distinct, unmixed⟩,
      fun clean => ⟨clean.speaker, clean.distinct, clean.unmixed⟩⟩

/-- After the message of a turn comes nothing if it makes no call, and otherwise one message
with the results of its calls. -/
inductive Settles (turn : PendingAssistantTurn V) : List (Message V) → Prop
  | nothing (noCalls : turn.readyToolCalls = []) : Settles turn []
  | reply (calls : turn.readyToolCalls ≠ []) (reply : Message V) (role : reply.role ≠ .assistant)
      (results : reply.toolResultIds = turn.readyToolCalls.map ToolCall.id) : Settles turn [reply]

theorem Clean.answered {turn : PendingAssistantTurn V} (clean : turn.Clean) {message : Message V}
    (built : turn.toMessage = .ok message) {rest : List (Message V)} (settles : turn.Settles rest) :
    message.role = .assistant ∧ Answered (message :: rest) := by
  obtain ⟨calls, role⟩ := toolUseIds_toMessage built
  refine ⟨clean.speaker message.role role, ?_⟩
  cases settles with
  | nothing noCalls =>
    rw [noCalls] at calls
    exact answered_of_no_calls calls
  | reply _ reply role results =>
    rw [← calls] at results
    exact answered_reply (calls ▸ clean.distinct) role results

end PendingAssistantTurn

namespace TurnRunner

variable {V : Type} [DecidableEq V] [SerdeJson V]

/-! ## The invariant -/

/-- So far every turn was clean and hosts entered no results. -/
def Clean (runner : TurnRunner V) : Prop :=
  (∀ turn ∈ runner.log.turns, turn.Clean) ∧ runner.agent.HostPlain

/-- Every request of a clean run has its calls answered. -/
def Sent (runner : TurnRunner V) : Prop :=
  runner.Clean → ∀ request ∈ runner.log.requests, Answered request

/-- Moreover the agent's own history has, together with `rest`. -/
def Served (rest : List (Message V)) (runner : TurnRunner V) : Prop :=
  runner.Sent ∧ (runner.Clean → runner.agent.AnsweredWith rest)

/-- The history is served, and a run clean here was clean at `origin`. -/
def ServedSince (origin runner : TurnRunner V) : Prop :=
  runner.Served [] ∧ (runner.Clean → origin.Clean)

/-- A turn was committed, and whatever settles it serves the history. -/
def Owes (turn : PendingAssistantTurn V) (runner : TurnRunner V) : Prop :=
  runner.Sent ∧ (runner.Clean → turn.Clean ∧
    ∀ rest, turn.Settles rest → runner.agent.AnsweredWith rest)

variable {rest : List (Message V)} {start final : TurnRunner V} {α : Type}
  {allowed : Agent.MarkedStep → Prop}

theorem Follows.clean (follows : Follows allowed start final) (clean : final.Clean) : start.Clean :=
  ⟨follows.log ▸ clean.1, follows.agent.hostPlain clean.2⟩

theorem Sent.follows (follows : Follows allowed start final) (sent : start.Sent) : final.Sent := by
  intro clean
  rw [follows.log]
  exact sent (follows.clean clean)

theorem Served.follows (follows : Follows (· ≠ .turn) start final) (served : start.Served rest) :
    final.Served rest := by
  refine ⟨served.1.follows follows, fun clean => ?_⟩
  exact (served.2 (follows.clean clean)).moves follows.agent (fun notTurn => notTurn rfl) clean.2

variable {program : RunM V α}

/-- The parts of a run that commit no turn keep the history served. -/
theorem Following.served (follows : Following (· ≠ .turn) program) (served : start.Served rest) :
    Reaches (Served rest) program start :=
  follows.holds (fun _ _ => Served.follows) served

theorem Following.servedOrSent (follows : Following (· ≠ .turn) program)
    (served : start.Served rest) :
    Ensures program (fun _ => Served rest) (fun _ => Sent) start :=
  (follows.served served).weaken (fun _ _ served => served) (fun _ _ served => served.1)

variable {origin : TurnRunner V}

theorem ServedSince.follows (follows : Follows (· ≠ .turn) start final)
    (served : ServedSince origin start) : ServedSince origin final :=
  ⟨served.1.follows follows, fun clean => served.2 (follows.clean clean)⟩

theorem Following.servedSince (follows : Following (· ≠ .turn) program)
    (served : ServedSince origin start) : Reaches (ServedSince origin) program start :=
  follows.holds (fun _ _ => ServedSince.follows) served

variable {turn : PendingAssistantTurn V}

theorem Owes.follows (follows : Follows (· ≠ .turn) start final)
    (owes : start.Owes turn) : final.Owes turn := by
  refine ⟨owes.1.follows follows, fun clean => ?_⟩
  obtain ⟨cleanTurn, answered⟩ := owes.2 (follows.clean clean)
  exact ⟨cleanTurn, fun rest settles =>
    (answered rest settles).moves follows.agent (fun notTurn => notTurn rfl) clean.2⟩

omit [DecidableEq V] in
theorem Owes.served (owes : start.Owes turn) (settles : turn.Settles rest) : start.Served rest :=
  ⟨owes.1, fun clean => (owes.2 clean).2 rest settles⟩

/-! ## Sending -/

omit [DecidableEq V] in
/-- The request carries the history, with a recalled text after it and possibly
the teammate's identity before it. -/
theorem answered_requestHistory {agent : Agent V} (answered : agent.AnsweredWith [])
    (recalled : Option String) : Answered (requestHistory agent recalled) := by
  have projected : Answered (agent.projectedToolResultHistory.messages ++ []) := by
    have history : Answered agent.history := by
      have recorded := answered.answered
      rw [append_nil] at recorded
      rw [Agent.history, AgentMemory.history, agent.memory.synced]
      exact recorded
    rw [append_nil]
    exact history.of_shape agent.projectedToolResultHistory_shape
  have extended : Answered (agent.projectedToolResultHistory.messages ++
      (recalled.map fun text => user (.text text)).toList) := by
    cases recalled with
    | none => exact projected
    | some text => exact projected.insert (isPlain_user_text text)
  rw [requestHistory, Agent.injectTeammateIdentity]
  split
  · exact extended
  · split
    · exact extended
    · exact ⟨nofun, nofun, extended⟩

variable {env : RunEnv V}

theorem attemptRequest_served {request : List (Message V)}
    (answered : origin.Clean → Answered request) (attempt : Nat)
    (served : ServedSince origin start) :
    Reaches (ServedSince origin) (attemptRequest env request attempt) start := by
  apply ((Following.call env .checkLimits).servedSince served).bind
  intro _ checked kept
  have counted : ServedSince origin
      { checked with modelRequests := checked.modelRequests + 1 } := kept
  apply ((Following.call env (.modelRequestStarted attempt)).servedSince counted).bind
  intro _ announced kept
  rw [reaches_modify_bind]
  have logged : ServedSince origin { announced with
      log := { announced.log with requests := request :: announced.log.requests } } := by
    refine ⟨⟨fun clean => ?_, kept.1.2⟩, kept.2⟩
    exact forall_mem_cons.mpr ⟨answered (kept.2 clean), kept.1.1 clean⟩
  exact (Following.bind (.ask _) .lift).servedSince logged

theorem prepareRetry_served (attempt : Nat) (error : ProviderError)
    (served : ServedSince origin start) :
    Reaches (ServedSince origin) (prepareRetry env attempt error) start := by
  have counted : ServedSince origin
      { start with transportRetries := start.transportRetries + 1 } := served
  refine (Following.bind (.failedRequest env attempt error) fun _ => ?_).servedSince counted
  exact .bind (.checkModelBudget env) fun _ => .call env .sleep

theorem openModelStream_served (served : start.Served []) :
    Reaches (Served []) (openModelStream env) start := by
  have answered (recalled : Option String) :
      start.Clean → Answered (requestHistory start.agent recalled) :=
    fun clean => answered_requestHistory (served.2 clean) recalled
  have since : ServedSince start start := ⟨served, fun clean => clean⟩
  have opened : Reaches (ServedSince start) (openModelStream env) start := by
    rw [Reaches, openModelStream, ensures_bind]
    apply ((Following.ask _).servedSince since).bind
    intro recalled asked kept
    apply ((Following.call env .selectTransport).servedSince kept).bind
    exact fun _ _ kept => reaches_openAttempts _
      (fun attempt _ => attemptRequest_served (answered recalled) attempt)
      (fun attempt error _ => prepareRetry_served attempt error) (fun _ _ => ServedSince.follows)
      env.retryBudget 1 kept
  exact opened.weaken (fun _ _ kept => kept.1) (fun _ _ kept => kept.1)

theorem openTurn_served (served : start.Served []) : Reaches (Served []) (openTurn env) start := by
  rw [Reaches, openTurn, ensures_bind, ensures_attempt]
  apply (openModelStream_served served).weaken
  · exact fun _ _ opened => opened
  · intro error failed kept
    split
    · exact kept
    · split
      · apply ((Following.compactAfterContextOverflow env).served kept).bind
        intro _ compacted kept
        rw [reaches_modify_bind]
        exact openModelStream_served kept
      · exact kept
    · exact kept

theorem streamTurn_served (served : start.Served []) :
    Reaches (Served []) (streamTurn env) start := by
  have prepares : Following (· ≠ .turn) (prepareTurn env) := .prepareTurn env nofun
  apply ((Following.checkModelBudget env).served served).bind
  intro _ checked kept
  apply (prepares.served kept).bind
  intro _ prepared kept
  apply (openTurn_served kept).bind
  rintro ⟨stream, attempt⟩ opened kept
  exact (Following.receiveTurn env stream attempt).served kept

/-! ## Committing -/

omit [DecidableEq V] in
theorem Owes.of_change (served : start.Served [])
    (clean : start.Clean → turn.Clean) (log : final.log = start.log)
    (injected : final.agent.ledger.injected = start.agent.ledger.injected)
    (answered : turn.Clean → start.agent.AnsweredWith [] →
      ∀ rest, turn.Settles rest → final.agent.AnsweredWith rest) : final.Owes turn := by
  have earlier : final.Clean → start.Clean := by
    rw [Clean, Agent.HostPlain, log, injected]
    exact id
  refine ⟨fun cleanNow => ?_, fun cleanNow => ?_⟩
  · rw [log]
    exact served.1 (earlier cleanNow)
  · have cleanTurn := clean (earlier cleanNow)
    exact ⟨cleanTurn, answered cleanTurn (served.2 (earlier cleanNow))⟩

/-- A turn without blocks makes no call and is not recorded. -/
theorem clearPendingTurn_owes {message : Message V} (built : turn.toMessage = .ok message)
    (empty : message.content = []) (served : start.Served []) (clean : start.Clean → turn.Clean) :
    Reaches (Owes turn)
      (journal env fun _ agent => { agent with memory := agent.memory.clearPendingTurn })
        start := by
  refine Following.journal_holds env (fun _ _ => Owes.follows) fun id final agent log => ?_
  refine .of_change served clean log (by rw [agent]) fun _ answered rest settles => ?_
  rw [agent]
  cases settles with
  | nothing => exact answered
  | reply calls =>
    have noCalls := (PendingAssistantTurn.toolUseIds_toMessage built).1
    rw [Message.toolUseIds, empty, filterMap_nil, eq_comm, map_eq_nil_iff] at noCalls
    exact absurd noCalls calls

theorem recordMessage_owes {message : Message V} (built : turn.toMessage = .ok message)
    (served : start.Served []) (clean : start.Clean → turn.Clean) :
    Reaches (Owes turn) (journal env fun id agent => agent.commitAssistantMessage message id)
      start := by
  refine Following.journal_holds env (fun _ _ => Owes.follows) fun id final agent log => ?_
  refine .of_change served clean log (by rw [agent]; rfl) fun cleanTurn answered rest settles => ?_
  obtain ⟨speaks, follows⟩ := cleanTurn.answered built settles
  have history := answered.answered
  rw [append_nil] at history
  rw [agent]
  apply AgentTranscript.AnsweredWith.push
  · rw [ofMessage_message]
    exact ⟨history.append_turn speaks follows, answered.fits⟩
  · exact roleFits_ofMessage id message

theorem commitAssistantMessage_owes (turn : PendingAssistantTurn V) (served : start.Served [])
    (clean : start.Clean → turn.Clean) :
    Ensures (commitAssistantMessage env turn) (fun _ => Owes turn) (fun _ => Sent) start := by
  rw [commitAssistantMessage, ensures_bind, ensures_lift]
  refine ⟨fun message built => ?_, fun _ _ => served.1⟩
  split
  · rename_i empty
    exact (clearPendingTurn_owes built (isEmpty_iff.mp empty) served clean).weaken
      (fun _ _ owes => owes) (fun _ _ owes => owes.1)
  · exact (recordMessage_owes built served clean).weaken
      (fun _ _ owes => owes) (fun _ _ owes => owes.1)

/-! ## Tool results -/

omit [DecidableEq V] [SerdeJson V] in
theorem toolResultIds_answers {calls : List (ToolCall V)} {answers images : List (ContentBlock V)}
    (answered : answers.map ContentBlock.toolResultId? = calls.map fun call => some call.id)
    (isImage : ∀ block ∈ images, block.isImage = true) :
    (⟨.user, answers ++ images⟩ : Message V).toolResultIds = calls.map ToolCall.id := by
  have ofImages : images.filterMap ContentBlock.toolResultId? = [] := by
    apply filterMap_eq_nil_iff.mpr
    intro block mem
    cases block with
    | toolResult toolUseId content isError => cases isImage _ mem
    | _ => rfl
  have ofAnswers := congrArg (List.filterMap id) answered
  rw [filterMap_map, filterMap_map, Function.id_comp, Function.id_comp,
    filterMap_eq_map'] at ofAnswers
  rw [Message.toolResultIds, filterMap_append, ofImages, append_nil]
  exact ofAnswers

/-- The results of a round answer its calls, once each and in order. -/
theorem executeCalls_answers (calls : List (ToolCall V)) (start : TurnRunner V) :
    Ensures (onTools (Orchestrator.executeCalls env.tools.toEnv calls))
      (fun execution _ =>
        (⟨.user, execution.results⟩ : Message V).toolResultIds = calls.map ToolCall.id)
      (fun _ _ => True) start := by
  rw [onTools, ensures_zoom]
  apply (Orchestrator.executeCalls_spec env.tools.toEnv calls start.toolRuntime).weaken
  · rintro execution _ ⟨-, answers, images, results, answered, isImage⟩
    rw [results]
    exact toolResultIds_answers answered isImage
  · exact fun _ _ _ => trivial

omit [DecidableEq V] [SerdeJson V] in
theorem toolResultsEntry_message (id : EntryId) (execution : ToolExecutionOutcome V) :
    (toolResultsEntry id execution).message = some ⟨.user, execution.results⟩ := by
  rw [toolResultsEntry, TranscriptItem.withDetails]
  split
  · exact ofMessage_message id _
  · exact ofMessage_message id _

theorem appendToolResults_served (execution : ToolExecutionOutcome V)
    (served : start.Served [⟨.user, execution.results⟩]) :
    Reaches (Served []) (appendToolResults env execution) start := by
  refine Following.journal_holds env (fun _ _ => Served.follows) fun id final agent log => ?_
  have earlier : final.Clean → start.Clean := by
    rw [Clean, Agent.HostPlain, log, agent]
    exact fun clean => clean
  refine ⟨fun clean => log ▸ served.1 (earlier clean), fun clean => ?_⟩
  have message := toolResultsEntry_message id execution
  have answered := served.2 (earlier clean)
  rw [agent]
  apply AgentTranscript.AnsweredWith.push
  · rw [message]
    exact answered
  · exact .of_role message nofun

variable (rounds : Nat)

theorem finishToolRound_served (calls : turn.readyToolCalls ≠ []) (owes : start.Owes turn) :
    Ensures (finishToolRound env rounds turn.readyToolCalls) (fun _ => Served [])
      (fun _ => Sent) start := by
  have executes : Following (· ≠ .turn)
      (onTools (Orchestrator.executeCalls env.tools.toEnv turn.readyToolCalls)) :=
    .executeCalls env turn.readyToolCalls
  have kept := executes.holds (fun _ _ => Owes.follows) owes
  apply (kept.both (executeCalls_answers turn.readyToolCalls start)).bind
  · rintro execution executed ⟨owes, results⟩
    have settles : turn.Settles [⟨.user, execution.results⟩] := .reply calls _ nofun results
    apply Ensures.bind (appendToolResults_served execution (owes.served settles))
    · intro _ appended served
      have ends : Following (· ≠ .turn) (endToolRound env rounds turn.readyToolCalls execution) :=
        .endToolRound env nofun rounds turn.readyToolCalls execution
      exact ends.servedOrSent served
    · exact fun _ _ served => served.1
  · exact fun _ _ kept => kept.1.1

/-! ## The run -/

theorem continueRound_served (owes : start.Owes turn) :
    Ensures (continueRound env rounds turn) (fun _ => Served []) (fun _ => Sent) start := by
  unfold continueRound
  split
  · rename_i invalid
    have served : start.Served [] := by
      refine ⟨owes.1, fun clean => ?_⟩
      obtain ⟨cleanTurn, answered⟩ := owes.2 clean
      rcases cleanTurn.unmixed with noInvalid | noCalls
      · rw [noInvalid] at invalid
        cases invalid
      · exact answered [] (.nothing (isEmpty_iff.mp noCalls))
    exact (Following.finishInvalidRound env turn.invalidToolUses).servedOrSent served
  · split
    · rename_i noCalls
      have served := owes.served (.nothing (isEmpty_iff.mp noCalls))
      have finishes : Following (· ≠ .turn) (finishTextRound env rounds) :=
        .finishTextRound env nofun rounds
      exact finishes.servedOrSent served
    · rename_i calls
      exact finishToolRound_served rounds (fun noCalls => calls (isEmpty_iff.mpr noCalls)) owes

/-- A failed response is reported and ends the run. -/
theorem responding_sent {post : α → TurnRunner V → Prop} (attempt : Nat)
    (spec : Ensures program post (fun _ => Sent) start) :
    Ensures (responding env attempt program) post (fun _ => Sent) start := by
  rw [responding, ensures_bind, ensures_attempt]
  apply spec.weaken
  · exact fun _ _ holds => holds
  · intro error failed sent
    have reports : Following (· ≠ .turn) (call env _) := .call env
      (.modelResponseFinished attempt false (some (error.display env.tools.statusText)) none none)
    exact Ensures.bind (reports.holds (fun _ _ => Sent.follows) sent) (fun _ _ sent => sent)
      fun _ _ sent => sent

theorem finishRound_served (streamed : StreamedTurn V) (served : start.Served []) :
    Ensures (finishRound env rounds streamed) (fun _ => Served []) (fun _ => Sent) start := by
  set received : TurnRunner V := { start with
    log := { start.log with turns := streamed.pending :: start.log.turns } } with isReceived
  have earlier : received.Clean → streamed.pending.Clean ∧ start.Clean := by
    rintro ⟨turns, hostPlain⟩
    obtain ⟨last, before⟩ := forall_mem_cons.mp turns
    exact ⟨last, before, hostPlain⟩
  have kept : received.Served [] :=
    ⟨fun clean => served.1 (earlier clean).2, fun clean => served.2 (earlier clean).2⟩
  apply (responding_sent streamed.attempt
    (commitAssistantMessage_owes streamed.pending kept fun clean => (earlier clean).1)).bind
  · intro _ committed owes
    have reports : Following (· ≠ .turn) (call env _) := .call env (.modelResponseFinished
      streamed.attempt true none streamed.pending.stopReason streamed.pending.usage)
    apply Ensures.bind (reports.holds (fun _ _ => Owes.follows) owes)
    · exact fun _ _ owes => continueRound_served rounds owes
    · exact fun _ _ owes => owes.1
  · exact fun _ _ sent => sent

theorem runRounds_sent (bound : Nat) : Keeps (Served []) Sent (runRounds env bound rounds) := by
  refine keeps_runRounds (fun rounds _ => (Following.beginRound env rounds).servedOrSent) ?_ bound
    rounds
  intro rounds start served
  apply Ensures.bind (streamTurn_served served)
  · exact fun streamed _ kept => finishRound_served (rounds + 1) streamed kept
  · exact fun _ _ kept => kept.1

/-- Every request of a run has each call answered exactly once before the next assistant
message, provided that the history was so when the run started, that the turns received are
clean and that hosts enter no tool results. -/
theorem run_requests_answered (env : RunEnv V) (bound : Nat) (agent : Agent V) (clock : Nat)
    (answered : agent.AnsweredWith [])
    (clean : ((run env bound).exec (.new agent clock)).2.Clean) :
    ∀ request ∈ ((run env bound).exec (.new agent clock)).2.log.requests, Answered request := by
  have served : (new agent clock).Served [] := ⟨nofun, fun _ => answered⟩
  exact ((runRounds_sent 0 bound _ served).weaken (fun _ _ kept => kept.1)
    fun _ _ sent => sent).final
    clean

/-! ## A turn that mixes calls -/

/-- A provider whose first turn calls a tool twice, with the given inputs, and
whose later turns are texts. -/
def callingProvider (inputs : String × String) (_ : Nat) (request : List (Message Unit)) :
    Except RuntimeError (Except ProviderError (ProviderEventStream Unit)) :=
  .ok (.ok (if request.length ≤ 1 then
    [.ok (.messageStarted "calls" "model" .assistant),
      .ok (.contentBlockStarted 0 (.toolUse "first" "search")),
      .ok (.contentBlockDelta 0 (.toolUseInputJson inputs.1)), .ok (.contentBlockStopped 0),
      .ok (.contentBlockStarted 1 (.toolUse "second" "search")),
      .ok (.contentBlockDelta 1 (.toolUseInputJson inputs.2)), .ok (.contentBlockStopped 1),
      .ok .messageStopped]
    else textReply))

def callingEnv (inputs : String × String) : RunEnv Unit :=
  quietRunEnv (callingProvider inputs)

/-- Two calls that can be read are both answered in the second request. -/
theorem readable_calls_answered :
    ((run (callingEnv ("null", "null")) 2).exec (.new askedAgent 0)).2.log.requests.length = 2 ∧
      ∀ request ∈ ((run (callingEnv ("null", "null")) 2).exec (.new askedAgent 0)).2.log.requests,
        Answered request := by
  have asked : (askedAgent : Agent Unit).AnsweredWith [] := by
    constructor
    · decide +kernel
    · decide +kernel
  have clean : ((run (callingEnv ("null", "null")) 2).exec (.new askedAgent 0)).2.Clean := by
    constructor
    · decide +kernel
    · decide +kernel
  refine ⟨by decide +kernel, ?_⟩
  exact run_requests_answered (callingEnv ("null", "null")) 2 askedAgent 0 asked clean

/-- When the second call's input is not JSON, the first call is sent unanswered
in the second request. -/
theorem mixed_calls_not_answered :
    ¬ ∀ request ∈ ((run (callingEnv ("null", "")) 2).exec (.new askedAgent 0)).2.log.requests,
      Answered request := by
  decide +kernel

end TurnRunner

end Mentra

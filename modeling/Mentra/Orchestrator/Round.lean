import Mentra.Orchestrator.Lanes

/-!
# A round of tool calls

`execute_calls`: run the batches in order, review and page what they answer, and answer the
calls of skipped batches.  A round comes to one result for each call, in call order, and
images only after them; nothing after a terminating call; and no more handlers than the
remaining budget.
-/

namespace Mentra.Orchestrator

open Foundation List Program ToolCallBatch

variable {A V : Type}

/-! ## Review and paging -/

def runExecutionAfter (env : Env A V) (hooks : List (ExecutionHookParticipant V))
    (toolName inputJson : String) : ContentBlock V → RoundM A V (ContentBlock V × Bool)
  | .toolResult toolUseId content isError => do
      let path ← workingDirectory env
      let decision ← Program.lift (ExecutionHookSnapshot.after hooks
        { agentId := env.agentId, toolName, toolCallId := toolUseId, inputJson,
          workingDirectory := path, content, isError })
      match decision with
      | AfterDecision.continue => return (.toolResult toolUseId content isError, true)
      | .deny reason => return (.toolResult toolUseId (.text reason) true, false)
      | .replace replaced error _ =>
        return (.toolResult toolUseId replaced (error.getD isError), true)
  | result => return (result, true)

def runPostHooks (env : Env A V) (toolName inputJson : String) (result : ContentBlock V) :
    RoundM A V (ContentBlock V) := do
  let hooks ← ask env.postHooks
  if hooks.isEmpty then return result
  else
    match result with
    | .toolResult toolUseId content isError =>
      let path ← workingDirectory env
      let decision ← Program.lift (PostExecutionHookSnapshot.run hooks
        { agentId := env.agentId, toolName, toolCallId := toolUseId, inputJson,
          workingDirectory := path, content, isError })
      match decision with
      | .keep => return .toolResult toolUseId content isError
      | .replace replaced error => return .toolResult toolUseId replaced error
    | result => return result

/-- The participants that admitted the call review its result; a denial keeps
the legacy hooks out of it. -/
def reviewResult (env : Env A V) (toolName inputJson : String) (result : ContentBlock V) :
    Option (List (ExecutionHookParticipant V)) → RoundM A V (ContentBlock V)
  | none => runPostHooks env toolName inputJson result
  | some hooks => do
      let (reviewed, runLegacy) ← runExecutionAfter env hooks toolName inputJson result
      if runLegacy then runPostHooks env toolName inputJson reviewed else return reviewed

/-- Replace an oversized text result with its first window and keep the full
text on the agent.  Windows of the reading tool are not paged again. -/
def pageResult (env : Env A V) (toolName : String) (result : ContentBlock V) :
    RoundM A V (ContentBlock V) :=
  match env.pager with
  | none => return result
  | some firstPage =>
    if toolName = "read_tool_result" then return result
    else
      match result with
      | .toolResult toolUseId (.text text) isError =>
        match firstPage toolUseId text with
        | none => return .toolResult toolUseId (.text text) isError
        | some page => do
            onAgent fun _ agent => ((), env.recordPagedToolResult toolUseId text agent)
            return .toolResult toolUseId (.text page) isError
      | result => return result

/-! ## The round -/

/-- `BTreeMap::insert` on the entries in key order. -/
def insertDetail (key : String) (value : V) : List (String × V) → List (String × V)
  | [] => [(key, value)]
  | (other, old) :: rest =>
    if key = other then (key, value) :: rest
    else if key < other then (key, value) :: (other, old) :: rest
    else (other, old) :: insertDetail key value rest

/-- What a round has gathered so far. -/
structure RoundTally (V : Type) where
  results : List (ContentBlock V) := []
  successfulTask : Bool := false
  endTurn : Bool := false
  details : List (String × V) := []
  images : List (ContentBlock V) := []

namespace RoundTally

/-- Add an execution whose result became `result`.  Images are shown only with
a result that is no error. -/
def add (tally : RoundTally V) (execution : CompletedToolExecution V) (result : ContentBlock V) :
    RoundTally V where
  results := tally.results ++ [result]
  successfulTask := tally.successfulTask || execution.taskSucceeded
  endTurn := tally.endTurn || execution.shouldEndTurn
  details :=
    match execution.details, result with
    | some value, .toolResult toolUseId _ _ => insertDetail toolUseId value tally.details
    | _, _ => tally.details
  images :=
    if isSuccessResult result then tally.images ++ execution.images.map .image else tally.images

end RoundTally

/-- Enter a batch's executions; the first one that terminated names itself. -/
def settleExecutions (env : Env A V) : List (CompletedToolExecution V) → RoundTally V →
    Option String → RoundM A V (RoundTally V × Option String)
  | [], tally, terminator => return (tally, terminator)
  | execution :: rest, tally, terminator => do
      let reviewed ← reviewResult env execution.toolName execution.inputJson execution.result
        execution.executionHooks
      let result ← pageResult env execution.toolName reviewed
      settleExecutions env rest (tally.add execution result)
        (terminator.or (if execution.terminated then some execution.toolName else none))

/-- The results of calls that are skipped. -/
def skipCalls (env : Env A V) (terminator : String) : List (ToolCall V) →
    RoundM A V (List (ContentBlock V))
  | [] => return []
  | call :: calls => do
      let result ← pageResult env call.name (notExecutedResult call terminator)
      let results ← skipCalls env terminator calls
      return result :: results

def chargeToolCalls (env : Env A V) (executionCount : Nat) : RoundM A V PUnit := do
  let state ← get
  if state.toolCalls + executionCount > env.toolBudget then
    throw (.toolBudgetExceeded env.toolBudget)
  else modify fun state => { state with toolCalls := state.toolCalls + executionCount }

def executeBatches [SerdeJson V] (env : Env A V) : List (ToolCallBatch A V) → RoundTally V →
    RoundM A V (RoundTally V)
  | [], tally => return tally
  | batch :: batches, tally => do
      checkLimits env
      chargeToolCalls env batch.executionCount
      let executions ← executeBatch env batch
      let (tally, terminator) ← settleExecutions env executions tally none
      match terminator with
      | some terminator =>
        let skipped ← skipCalls env terminator (batches.flatMap intoCalls)
        return { tally with results := tally.results ++ skipped }
      | none => executeBatches env batches tally

def executeCalls [SerdeJson V] (env : Env A V) (calls : List (ToolCall V)) :
    RoundM A V (ToolExecutionOutcome V) := do
  modify fun state => { state with trace := [] }
  let state ← get
  let tally ← executeBatches env (toolCallSchedule env state.agent calls) {}
  return { results := tally.results ++ tally.images, successfulTask := tally.successfulTask
           endTurn := tally.endTurn, details := tally.details }

section Round

variable (env : Env A V)

/-! ## Results keep their call -/

theorem runExecutionAfter_spec (hooks : List (ExecutionHookParticipant V))
    (toolName inputJson : String) (result : ContentBlock V) (start : ToolRuntime A V) :
    Calmly (runExecutionAfter env hooks toolName inputJson result)
      (fun reviewed _ => reviewed.1.toolResultId? = result.toolResultId?) start := by
  unfold runExecutionAfter
  split
  · apply (Calm.workingDirectory env).then
    intro path read _
    apply (Calmly.lift _).bind
    intro decision decided _ _
    cases decision with
    | «continue» | deny reason | replace content isError attribution => exact ⟨.refl decided, rfl⟩
  · exact ⟨.refl start, rfl⟩

theorem runPostHooks_spec (toolName inputJson : String) (result : ContentBlock V)
    (start : ToolRuntime A V) :
    Calmly (runPostHooks env toolName inputJson result)
      (fun reviewed _ => reviewed.toolResultId? = result.toolResultId?) start := by
  apply (Calm.ask _).then
  intro hooks asked _
  split
  · exact ⟨.refl asked, rfl⟩
  · split
    · apply (Calm.workingDirectory env).then
      intro path read _
      apply (Calmly.lift _).bind
      intro decision decided _ _
      cases decision with
      | keep | replace content isError => exact ⟨.refl decided, rfl⟩
    · exact ⟨.refl asked, rfl⟩

theorem reviewResult_spec (toolName inputJson : String) (result : ContentBlock V)
    (hooks : Option (List (ExecutionHookParticipant V))) (start : ToolRuntime A V) :
    Calmly (reviewResult env toolName inputJson result hooks)
      (fun reviewed _ => reviewed.toolResultId? = result.toolResultId?) start := by
  cases hooks with
  | none => exact runPostHooks_spec env toolName inputJson result start
  | some hooks =>
    apply (runExecutionAfter_spec env hooks toolName inputJson result start).bind
    rintro ⟨reviewed, runLegacy⟩ middle - id
    cases runLegacy with
    | false => exact ⟨.refl middle, id⟩
    | true =>
      apply (runPostHooks_spec env toolName inputJson reviewed middle).mono
      exact fun _ final _ same => same.trans id

theorem pageResult_spec (toolName : String) (result : ContentBlock V) (start : ToolRuntime A V) :
    Moves Quiet (pageResult env toolName result)
      (fun paged _ => paged.toolResultId? = result.toolResultId?) start := by
  unfold pageResult
  split
  · exact ⟨.refl start, rfl⟩
  · split
    · exact ⟨.refl start, rfl⟩
    · split
      · split
        · exact ⟨.refl start, rfl⟩
        · exact ⟨.of_trace_eq rfl rfl, rfl⟩
      · exact ⟨.refl start, rfl⟩

/-- The tally's results answer `ids` in order and its images are images. -/
structure RoundTally.Answers (tally : RoundTally V) (ids : List (Option String)) : Prop where
  results : tally.results.map ContentBlock.toolResultId? = ids
  images : ∀ block ∈ tally.images, block.isImage = true

variable {ids : List (Option String)}

theorem RoundTally.Answers.add {tally : RoundTally V} (answers : tally.Answers ids)
    (execution : CompletedToolExecution V) {result : ContentBlock V}
    (id : result.toolResultId? = execution.result.toolResultId?) :
    (tally.add execution result).Answers (ids ++ [execution.result.toolResultId?]) := by
  refine ⟨?_, ?_⟩
  · change (tally.results ++ [result]).map ContentBlock.toolResultId? = _
    rw [map_append, answers.results, map_singleton, id]
  · intro block mem
    simp only [RoundTally.add] at mem
    split at mem
    · rcases mem_append.mp mem with earlier | new
      · exact answers.images block earlier
      · obtain ⟨source, -, rfl⟩ := mem_map.mp new
        rfl
    · exact answers.images block mem

theorem settleExecutions_spec (executions : List (CompletedToolExecution V)) {tally : RoundTally V}
    (answers : tally.Answers ids) (terminator : Option String) (start : ToolRuntime A V) :
    Moves Quiet (settleExecutions env executions tally terminator)
      (fun settled _ => settled.1.Answers (ids ++ executions.map (·.result.toolResultId?)) ∧
        (settled.2 = none → terminator = none ∧
          ∀ execution ∈ executions, execution.terminated = false)) start := by
  induction executions generalizing tally ids terminator start with
  | nil =>
    refine ⟨.refl start, ?_, fun unset => ⟨unset, by simp⟩⟩
    rw [map_nil, append_nil]
    exact answers
  | cons execution rest ih =>
    have reviews := (reviewResult_spec env execution.toolName execution.inputJson
      execution.result execution.executionHooks start).along fun _ _ => Still.toQuiet
    apply reviews.bind
    intro reviewed middle _ id
    apply (pageResult_spec env execution.toolName reviewed middle).bind
    intro result paged _ same
    apply (ih (answers.add execution (same.trans id)) _ paged).mono
    rintro ⟨settled, last⟩ final - ⟨all, unset⟩
    refine ⟨?_, fun isNone => ?_⟩
    · rw [map_cons, append_cons]
      exact all
    · obtain ⟨nobody, others⟩ := unset isNone
      rw [Option.or_eq_none_iff] at nobody
      refine ⟨nobody.1, ?_⟩
      intro other mem
      rcases mem_cons.mp mem with rfl | later
      · cases terminated : other.terminated with
        | false => rfl
        | true => simp [terminated] at nobody
      · exact others other later

theorem skipCalls_spec (terminator : String) (calls : List (ToolCall V)) (start : ToolRuntime A V) :
    Moves Quiet (skipCalls env terminator calls)
      (fun results _ => results.map ContentBlock.toolResultId? =
        calls.map fun call => some call.id) start := by
  induction calls generalizing start with
  | nil => exact ⟨.refl start, rfl⟩
  | cons call calls ih =>
    apply (pageResult_spec env call.name _ start).bind
    intro result middle _ id
    apply (ih middle).bind
    intro results final _ ids
    exact ⟨.refl final, congrArg₂ cons id ids⟩

/-! ## The schedule -/

/-- The calls as they are scheduled, before they are put into batches. -/
def scheduleAll (env : Env A V) (agent : A) : Nat → List (ToolCall V) →
    List (ScheduledToolCall A V)
  | _, [] => []
  | position, call :: calls =>
    scheduleCall env agent position call :: scheduleAll env agent (position + 1) calls

theorem scheduleCall_position (agent : A) (position : Nat) (call : ToolCall V) :
    (scheduleCall env agent position call).position = position := by
  unfold scheduleCall
  split
  · rfl
  · rfl
  · rfl

theorem scheduleCall_call (agent : A) (position : Nat) (call : ToolCall V) :
    (scheduleCall env agent position call).call = call := by
  unfold scheduleCall
  split
  · rfl
  · rfl
  · rfl

theorem scheduleCall_resolved {env : Env A V} {agent : A} {position : Nat} {call : ToolCall V}
    {tool : ResolvedTool A V}
    (resolved : (scheduleCall env agent position call).tool = .resolved tool) :
    env.resolveTool agent call.name = .visible tool := by
  unfold scheduleCall at resolved
  split at resolved
  · cases resolved
  · cases resolved
  · rename_i visible
    cases resolved
    exact visible

theorem consecutive_scheduleAll (agent : A) (position : Nat) (calls : List (ToolCall V)) :
    Consecutive position (scheduleAll env agent position calls) := by
  induction calls generalizing position with
  | nil => trivial
  | cons call calls ih => exact ⟨scheduleCall_position env agent position call, ih _⟩

theorem map_id_scheduleAll (agent : A) (position : Nat) (calls : List (ToolCall V)) :
    (scheduleAll env agent position calls).map (fun scheduled => some scheduled.call.id) =
      calls.map fun call => some call.id := by
  induction calls generalizing position with
  | nil => rfl
  | cons call calls ih => rw [scheduleAll, map_cons, map_cons, ih, scheduleCall_call]

theorem mem_scheduleAll {env : Env A V} {agent : A} {position : Nat} {calls : List (ToolCall V)}
    {scheduled : ScheduledToolCall A V} (mem : scheduled ∈ scheduleAll env agent position calls) :
    ∃ offset call, calls[offset]? = some call ∧
      scheduled = scheduleCall env agent (position + offset) call := by
  induction calls generalizing position with
  | nil => cases mem
  | cons call calls ih =>
    rcases mem_cons.mp mem with rfl | later
    · exact ⟨0, call, rfl, rfl⟩
    · obtain ⟨offset, other, read, same⟩ := ih later
      refine ⟨offset + 1, other, read, ?_⟩
      rw [same, Nat.add_assoc, Nat.add_comm 1]

/-- The batches hold the scheduled calls in order. -/
theorem scheduledCalls_scheduleLoop (agent : A) (pending : List (ScheduledToolCall A V))
    (position : Nat) (calls : List (ToolCall V)) :
    (scheduleLoop env agent pending position calls).flatMap scheduledCalls =
      pending ++ scheduleAll env agent position calls := by
  have flush : ∀ pending : List (ScheduledToolCall A V),
      (pendingBatch pending).flatMap scheduledCalls = pending := by
    intro pending
    cases pending with
    | nil => rfl
    | cons first rest => exact append_nil _
  induction calls generalizing pending position with
  | nil => rw [scheduleLoop, flush, scheduleAll, append_nil]
  | cons call calls ih =>
    rw [scheduleLoop, scheduleAll]
    split
    · rw [ih, append_assoc, singleton_append]
    all_goals
      rw [flatMap_append, flush, flatMap_cons, ih, nil_append]
      rfl

/-- Only calls that allow it are put into a parallel batch. -/
theorem laneFits_scheduleLoop (agent : A) {pending : List (ScheduledToolCall A V)}
    (parallel : ∀ scheduled ∈ pending, scheduled.executionCategory.allowsParallel = true)
    (position : Nat) (calls : List (ToolCall V)) :
    ∀ batch ∈ scheduleLoop env agent pending position calls, batch.LaneFits := by
  have flush : ∀ pending : List (ScheduledToolCall A V),
      (∀ scheduled ∈ pending, scheduled.executionCategory.allowsParallel = true) →
        ∀ batch ∈ pendingBatch pending, batch.LaneFits := by
    intro pending parallel batch mem
    unfold pendingBatch at mem
    split at mem
    · cases mem
    · rw [mem_singleton.mp mem]
      exact parallel
  induction calls generalizing pending position with
  | nil => exact flush pending parallel
  | cons call calls ih =>
    intro batch mem
    rw [scheduleLoop] at mem
    split at mem
    · rename_i category
      refine ih ?_ (position + 1) batch mem
      intro scheduled among
      rcases mem_append.mp among with earlier | new
      · exact parallel scheduled earlier
      · rw [mem_singleton.mp new, category]
        rfl
    all_goals
      rcases mem_append.mp mem with before | rest
      · exact flush pending parallel batch before
      · rcases mem_cons.mp rest with rfl | later
        · trivial
        · exact ih (by simp) (position + 1) batch later

/-! ## What a round comes to -/

variable [SerdeJson V]

/-- The round made progress up to a bound that the budget left by `charged`
earlier calls covers. -/
def Covered (env : Env A V) (calls : List (ScheduledToolCall A V)) (charged : Nat)
    (state : ToolRuntime A V) : Prop :=
  ∃ bound, Progress env calls bound state ∧ (bound = 0 ∨ charged + bound ≤ env.toolBudget)

omit [SerdeJson V] in
theorem length_scheduledCalls (batch : ToolCallBatch A V) :
    batch.scheduledCalls.length = batch.executionCount := by
  cases batch with
  | exclusive call | parallel calls => rfl

omit [SerdeJson V] in
theorem chargeToolCalls_spec (executionCount : Nat) (start : ToolRuntime A V) :
    Ensures (chargeToolCalls env executionCount)
      (fun _ final => final.trace = start.trace ∧
        final.toolCalls = start.toolCalls + executionCount ∧
        start.toolCalls + executionCount ≤ env.toolBudget)
      (fun _ final => final = start) start := by
  unfold chargeToolCalls
  rw [ensures_bind, ensures_get]
  split
  · exact rfl
  · rename_i affordable
    exact ⟨rfl, rfl, Nat.not_lt.mp affordable⟩

omit [SerdeJson V] in
theorem map_intoCalls (batches : List (ToolCallBatch A V)) :
    (batches.flatMap intoCalls).map (fun call => some call.id) =
      (batches.flatMap scheduledCalls).map fun scheduled =>
        some scheduled.call.id := by
  rw [map_flatMap, map_flatMap]
  exact flatMap_congr fun batch _ => map_map

variable {calls : List (ScheduledToolCall A V)}

theorem executeBatches_spec {batches : List (ToolCallBatch A V)}
    (members : ∀ scheduled ∈ batches.flatMap scheduledCalls, scheduled ∈ calls)
    (laneFits : ∀ batch ∈ batches, batch.LaneFits) {bound charged : Nat}
    (consecutive : Consecutive bound (batches.flatMap scheduledCalls))
    {tally : RoundTally V} (answers : tally.Answers ids) {start : ToolRuntime A V}
    (progress : Progress env calls bound start) (isOpen : Open start.trace)
    (toolCalls : start.toolCalls = charged + bound)
    (covered : bound = 0 ∨ charged + bound ≤ env.toolBudget) :
    Ensures (executeBatches env batches tally)
      (fun result final => Covered env calls charged final ∧
        result.Answers (ids ++ (batches.flatMap scheduledCalls).map
          fun scheduled => some scheduled.call.id))
      (fun _ final => Covered env calls charged final) start := by
  induction batches generalizing bound tally ids start with
  | nil =>
    refine ⟨⟨bound, progress, covered⟩, ?_⟩
    rw [flatMap_nil, map_nil, append_nil]
    exact answers
  | cons batch batches ih =>
    obtain ⟨here, later⟩ := consecutive_append.mp consecutive
    rw [length_scheduledCalls] at later
    apply (Calm.checkLimits env start).bind
    · intro _ checked checking
      have progress := progress.quiet checking.toQuiet
      have isOpen := isOpen.quiet checking.toQuiet
      apply (chargeToolCalls_spec env batch.executionCount checked).bind
      · rintro _ paid ⟨sameTrace, charge, affordable⟩
        rw [checking.toolCalls, toolCalls, Nat.add_assoc] at charge affordable
        apply (executeBatch_spec env
          (fun scheduled mem => members scheduled (mem_append_left _ mem))
          (laneFits batch mem_cons_self) here (progress.congr sameTrace)
          (sameTrace ▸ isOpen)).bind
        · rintro executions served ⟨serves, inOrder, goesOn⟩
          apply Ensures.bind (settleExecutions_spec env executions answers none served)
          · rintro ⟨settledTally, terminator⟩ settled ⟨settling, settledAnswers, unset⟩
            have progress := serves.progress.quiet settling
            simp only [inOrder] at settledAnswers
            cases terminator with
            | some terminator =>
              apply Ensures.bind (skipCalls_spec env terminator _ settled)
              · rintro skipped final ⟨skipping, skippedIds⟩
                refine ⟨⟨_, progress.quiet skipping, .inr affordable⟩, ?_, ?_⟩
                · rw [map_append, settledAnswers.results, skippedIds,
                    flatMap_cons, map_append, append_assoc,
                    map_intoCalls]
                · exact settledAnswers.images
              · exact fun _ final skipping =>
                  ⟨_, progress.quiet skipping, .inr affordable⟩
            | none =>
              have stillOpen := (goesOn (unset rfl).2).quiet settling
              have counted : settled.toolCalls = charged + (bound + batch.executionCount) := by
                rw [settling.toolCalls, serves.toolCalls, charge]
              apply (ih (fun scheduled mem => members scheduled (mem_append_right _ mem))
                (fun other mem => laneFits other (mem_cons_of_mem _ mem)) later
                settledAnswers progress stillOpen counted (.inr affordable)).weaken
              · rintro result final ⟨done, all⟩
                refine ⟨done, ?_⟩
                rw [flatMap_cons, map_append, ← append_assoc]
                exact all
              · exact fun _ final done => done
          · exact fun _ final settling =>
              ⟨_, serves.progress.quiet settling, .inr affordable⟩
        · exact fun _ final serves => ⟨_, serves.progress, .inr affordable⟩
      · rintro _ final rfl
        exact ⟨bound, progress, covered⟩
    · exact fun _ final checking => ⟨bound, progress.quiet checking.toQuiet, covered⟩

theorem executeCalls_spec (calls : List (ToolCall V)) (start : ToolRuntime A V) :
    Ensures (executeCalls env calls)
      (fun outcome final =>
        Covered env (scheduleAll env start.agent 0 calls) start.toolCalls final ∧
        ∃ answers images, outcome.results = answers ++ images ∧
          answers.map ContentBlock.toolResultId? = calls.map (fun call => some call.id) ∧
          ∀ block ∈ images, block.isImage = true)
      (fun _ final => Covered env (scheduleAll env start.agent 0 calls) start.toolCalls final)
      start := by
  simp only [executeCalls, ensures_bind, ensures_modify, ensures_get]
  have schedule := scheduledCalls_scheduleLoop env start.agent [] 0 calls
  rw [nil_append] at schedule
  have consecutive := consecutive_scheduleAll env start.agent 0 calls
  have fresh : Progress env (scheduleAll env start.agent 0 calls) 0 { start with trace := [] } :=
    ⟨trivial, .nil, by simp [handlerPositions], by simp⟩
  apply (executeBatches_spec env (schedule ▸ fun _ mem => mem)
    (laneFits_scheduleLoop env start.agent (by simp) 0 calls) (schedule ▸ consecutive)
    ⟨rfl, by simp⟩ fresh (by simp [Open]) rfl (.inl rfl)).weaken
  · rintro tally final ⟨covered, answers⟩
    rw [schedule, map_nil, nil_append, map_id_scheduleAll] at answers
    exact ⟨covered, tally.results, tally.images, rfl, answers.results, answers.images⟩
  · exact fun _ final covered => covered

/-- A round that ended well answers each call once and in order and shows nothing else but
images; no handler runs twice, none after an exclusive call that terminated, and no more of them
than the budget leaves. -/
structure RoundKept (env : Env A V) (calls : List (ToolCall V)) (start : ToolRuntime A V)
    (result : Except RuntimeError (ToolExecutionOutcome V)) (final : ToolRuntime A V) : Prop where
  answered : ∀ outcome, result = .ok outcome → ∃ answers images,
    outcome.results = answers ++ images ∧
    answers.map ContentBlock.toolResultId? = calls.map (fun call => some call.id) ∧
    ∀ block ∈ images, block.isImage = true
  once : (handlerPositions final.trace).Pairwise (· > ·)
  stopped : ∀ position input output,
    .handler position .exclusive input (.ok output) ∈ final.trace → output.terminate = true →
      ∀ other ∈ handlerPositions final.trace, other ≤ position
  budget : (handlerPositions final.trace).length ≤ env.toolBudget - start.toolCalls

theorem Covered.length_le {env : Env A V} {charged : Nat} {state : ToolRuntime A V}
    (covered : Covered env calls charged state) :
    (handlerPositions state.trace).length ≤ env.toolBudget - charged := by
  obtain ⟨bound, progress, nothing | affordable⟩ := covered
  · have length := Lists.length_le_of_decreasing progress.decreasing progress.below
    rw [nothing] at length
    exact Nat.le_trans length (Nat.zero_le _)
  · have length := Lists.length_le_of_decreasing progress.decreasing progress.below
    exact Nat.le_trans length (Nat.le_sub_of_add_le (Nat.add_comm charged bound ▸ affordable))

/-- Every round, whatever is refused, fails or terminates and in whatever order
parallel tasks end, keeps what is promised. -/
theorem executeCalls_kept (env : Env A V) (calls : List (ToolCall V)) (start : ToolRuntime A V) :
    RoundKept env calls start ((executeCalls env calls).exec start).1
      ((executeCalls env calls).exec start).2 := by
  have spec := executeCalls_spec env calls start
  have covered : Covered env (scheduleAll env start.agent 0 calls) start.toolCalls
      ((executeCalls env calls).exec start).2 :=
    (spec.weaken (fun _ _ both => both.1) (fun _ _ covered => covered)).final
  obtain ⟨bound, progress, -⟩ := id covered
  refine ⟨?_, progress.decreasing, ?_, covered.length_le⟩
  · intro outcome ended
    exact ((ensures_of_exec spec).1 outcome _ (Prod.ext ended rfl)).2
  · intro position input output ran terminate
    exact progress.last _ ran position (if_pos terminate)

/-! ## What stands behind a handler's input -/

omit [SerdeJson V] in
theorem executionCategoriesForSnapshot_allowsParallel {input : V} {tool : ResolvedTool A V}
    (parallel : (executionCategoriesForSnapshot input tool).2.allowsParallel = true) :
    (tool.handler.executionCategory input).allowsParallel = true ∧
      tool.descriptor.terminal = false := by
  simp only [executionCategoriesForSnapshot] at parallel
  split at parallel
  · cases parallel
  · rename_i notCoerced
    refine ⟨parallel, ?_⟩
    simpa [parallel] using notCoerced

theorem Justified.admitted {env : Env A V} {after before : List (Event V)} {position : Nat}
    {lane : Lane} {input : V} {output : Except String (ToolOutput V)}
    (justified : Justified env calls (after ++ .handler position lane input output :: before)) :
    Admitted env calls position lane input output before := by
  induction after with
  | nil => exact justified.1
  | cons event after ih =>
    cases event with
    | handler position lane input output => exact ih justified.2
    | preHooks position hooks | executionHooks position participants
    | authorizer position request answer => exact ih justified

/-- Whenever a handler ran, its input is what the hook chains left of the input of the call at
that place, it passed the schema check unless the tool is terminal, and the authorizer, if there
is one, was asked about it and allowed it; in the parallel lane the tool declares it parallel.
The output on record is what the handler answered to it. -/
theorem executeCalls_handler_admitted (env : Env A V) (calls : List (ToolCall V))
    (start : ToolRuntime A V) {after before : List (Event V)} {position : Nat} {lane : Lane}
    {input : V} {output : Except String (ToolOutput V)}
    (ran : ((executeCalls env calls).exec start).2.trace =
      after ++ .handler position lane input output :: before) :
    ∃ call tool, calls[position]? = some call ∧
      env.resolveTool start.agent call.name = .visible tool ∧
      Passed env tool position call input before ∧
      (lane = .parallel → (tool.handler.executionCategory input).allowsParallel = true ∧
        tool.descriptor.terminal = false) ∧
      Gave tool lane input output := by
  obtain ⟨bound, progress, -⟩ : Covered env (scheduleAll env start.agent 0 calls) start.toolCalls
      ((executeCalls env calls).exec start).2 :=
    ((executeCalls_spec env calls start).weaken (fun _ _ both => both.1)
      (fun _ _ covered => covered)).final
  have justified := progress.justified
  rw [ran] at justified
  obtain ⟨scheduled, mem, tool, atPosition, resolved, passed, lanes, gave⟩ := justified.admitted
  obtain ⟨offset, call, read, rfl⟩ := mem_scheduleAll mem
  rw [scheduleCall_position, Nat.zero_add] at atPosition
  rw [scheduleCall_call] at passed
  refine ⟨call, tool, atPosition ▸ read, scheduleCall_resolved resolved, passed, ?_, gave⟩
  exact fun parallel => executionCategoriesForSnapshot_allowsParallel (lanes parallel)

end Round

namespace RewrittenCall

/-- The truth values among the JSON values. -/
instance : SerdeJson Bool where
  print value := if value then "true" else "false"
  fromStr
    | "true" => .ok true
    | "false" => .ok false
    | _ => .error "expected a boolean"

def shell : ResolvedTool Unit Bool where
  descriptor := { inputSchema := true }
  handler := .ofDescriptor { inputSchema := true }
    (fun _ _ _ => { output := .error "not parallel" })
    (fun _ _ input _ => ({ output := .ok { content := .structured input } }, ()))

/-- One tool, a hook that rewrites every input to `true`, and a schema check
and an authorizer that let nothing else pass. -/
def env : Env Unit Bool where
  agentId := "agent"
  agentName _ := "agent"
  model _ := "model"
  historyLen _ := 0
  resolveTool _ _ := .visible shell
  noteToolStarted _ _ _ := (.ok (), ())
  takeIdleRequested _ := (false, ())
  recordPagedToolResult _ _ _ := ()
  checkLimits _ := .ok ()
  toolBudget := 1
  resolveWorkingDirectory _ := "/"
  preHooks _ := [fun _ => .ok (.modify "true" none)]
  executionHooks _ := []
  postHooks _ := []
  emitHook _ _ := .ok ()
  validateToolInput schema input := if input = schema then .ok () else .error "no match"
  toolAuthorizer := some fun _ request =>
    .answered (.ok ⟨if request.preview.rawInput then .allow else .deny, none⟩)
  outputLimiter _ content := content
  pager := none
  joinNext _ := { finished := .error "no task" }
  statusText _ := ""

def calls : List (ToolCall Bool) :=
  [⟨"A", "shell", false⟩]

/-- The events of the round. -/
def trace : List (Event Bool) :=
  ((executeCalls env calls).exec { agent := () }).2.trace

/-- Whether the event is the exclusive run of the first call on `true`. -/
def isRewrittenRun : Event Bool → Bool
  | .handler 0 .exclusive true _ => true
  | _ => false

/-- The model asked for `false` and the tool ran on `true`, with everything it
takes behind it. -/
theorem rewritten_handler_admitted :
    ∃ after before output, trace = after ++ .handler 0 .exclusive true output :: before ∧
      ∃ call tool, calls[0]? = some call ∧ env.resolveTool () call.name = .visible tool ∧
        Passed env tool 0 call true before ∧
        (Lane.exclusive = .parallel →
          (tool.handler.executionCategory true).allowsParallel = true ∧
            tool.descriptor.terminal = false) ∧
        Gave tool .exclusive true output := by
  have ran : trace.any isRewrittenRun = true := by decide +kernel
  obtain ⟨event, mem, run⟩ := any_eq_true.mp ran
  obtain ⟨after, before, split⟩ := append_of_mem mem
  unfold isRewrittenRun at run
  split at run
  · exact ⟨after, before, _, split, executeCalls_handler_admitted env calls { agent := () } split⟩
  · cases run

end RewrittenCall

end Mentra.Orchestrator

import Mentra.Foundation.Lists
import Mentra.Orchestrator.Admission

/-!
# The two lanes

Running one call exclusively, and a batch of calls in parallel.  A parallel handler's answer
is fixed when its task is spawned, and the task counts as run from then on; the order in which
the tasks end, and how often the limits are checked in between, is the environment's choice.

`Progress` is what both lanes keep: every handler on the trace was admitted, positions only go
up, and nothing runs after a terminating call.
-/

namespace Mentra.Orchestrator

open Foundation List Program

variable {A V : Type} [SerdeJson V]

/-! ## The exclusive lane -/

/-- Hand an admitted call and the agent to the tool. -/
def runExclusive (env : Env A V) (position : Nat) (call : ToolCall V) (tool : ResolvedTool A V)
    (context : ParallelToolContext)
    (executionHooks : Option (List (ExecutionHookParticipant V))) (source : Option String) :
    RoundM A V (CompletedToolExecution V) := do
  let answer ← onAgent fun now agent =>
    tool.handler.executeMutOutput now context call.input agent
  let output := executeToolFuture call.name tool.descriptor.executionTimeout answer
  record (.handler position .exclusive call.input output)
  let block ← toolOutputBlock env call output source
  let idle ← onAgent fun _ agent => env.takeIdleRequested agent
  return { completedExecution call tool.descriptor block.result
      { shouldEndTurn := idle || block.terminate, terminated := block.terminate }
      block.details with
    executionHooks, images := block.images }

def executeRegisteredTool (env : Env A V) (position : Nat) (call : ToolCall V)
    (tool : ResolvedTool A V) (executionCategory : ToolExecutionCategory) :
    RoundM A V (CompletedToolExecution V) := do
  match ← admitCall env position call tool executionCategory with
  | (.error error, call) => return blockedToolExecution env call tool.descriptor error
  | (.ok (.refused execution), _) => return execution
  | (.ok (.run context executionHooks source), call) =>
    match ← Program.attempt (emitHook env (.toolExecutionStarted call)) with
    | .error error => return blockedToolExecution env call tool.descriptor error
    | .ok _ => runExclusive env position call tool context executionHooks source

def executeOneTool (env : Env A V) (scheduled : ScheduledToolCall A V) :
    RoundM A V (CompletedToolExecution V) := do
  noteToolStarted env scheduled.call
  match scheduled.tool with
  | .unavailable => return unavailableToolExecution scheduled.call
  | .missing => return missingToolExecution scheduled.call
  | .resolved tool =>
    executeRegisteredTool env scheduled.position scheduled.call tool scheduled.executionCategory

/-! ## The parallel lane -/

/-- A spawned task with the answer it will give. -/
structure ParallelTask (V : Type) where
  index : Nat
  call : ToolCall V
  descriptor : RuntimeToolDescriptor V
  output : Except String (ToolOutput V)
  executionHooks : Option (List (ExecutionHookParticipant V))
  rewriteSource : Option String

/-- What the batch has for a call once it was started: its answer, or a task
that will give it. -/
inductive Started (V : Type)
  | answered (execution : CompletedToolExecution V)
  | spawned (task : ParallelTask V)

/-- The body of the batch's first loop. -/
def startParallelCall (env : Env A V) (index : Nat) (scheduled : ScheduledToolCall A V) :
    RoundM A V (Started V) := do
  noteToolStarted env scheduled.call
  match scheduled.tool with
  | .unavailable => return .answered (unavailableToolExecution scheduled.call)
  | .missing => return .answered (missingToolExecution scheduled.call)
  | .resolved tool =>
    match ← admitCall env scheduled.position scheduled.call tool scheduled.executionCategory with
    | (.error error, _) => throw error
    | (.ok (.refused execution), _) => return .answered execution
    | (.ok (.run context executionHooks rewriteSource), call) =>
      match ← Program.attempt (emitHook env (.toolExecutionStarted call)) with
      | .error error =>
        return .answered (blockedToolExecution env call tool.descriptor error)
      | .ok _ =>
        let answer ← ask fun now => tool.handler.executeOutput now context call.input
        let output := executeToolFuture call.name tool.descriptor.executionTimeout answer
        record (.handler scheduled.position .parallel call.input output)
        return .spawned { index, call, descriptor := tool.descriptor, output,
                          executionHooks, rewriteSource }

/-- The answers by index, and the join set. -/
structure ParallelBatch (V : Type) where
  results : List (Option (CompletedToolExecution V))
  tasks : List (ParallelTask V)

namespace ParallelBatch

/-- Enter what starting the call at `index` came to. -/
def enter (batch : ParallelBatch V) (index : Nat) : Started V → ParallelBatch V
  | .answered execution => { batch with results := batch.results.set index (some execution) }
  | .spawned task => { batch with tasks := batch.tasks ++ [task] }

end ParallelBatch

def startParallelCalls (env : Env A V) : Nat → List (ScheduledToolCall A V) → ParallelBatch V →
    RoundM A V (ParallelBatch V)
  | _, [], batch => return batch
  | index, scheduled :: rest, batch => do
      let started ← startParallelCall env index scheduled
      startParallelCalls env (index + 1) rest (batch.enter index started)

/-- Check the limits once for each poll that passes without a finished task,
and once before the one that ends with it. -/
def pollLimits (env : Env A V) : Nat → RoundM A V Unit
  | 0 => checkLimits env
  | polls + 1 => do
      checkLimits env
      pollLimits env polls

/-- What a joined task comes to.  A parallel execution cannot end the round. -/
def finishParallelTask (env : Env A V) (task : ParallelTask V) :
    RoundM A V (CompletedToolExecution V) := do
  let block ← toolOutputBlock env task.call task.output task.rewriteSource
  if block.terminate then
    return { completedExecution task.call task.descriptor (parallelTerminationRejected task.call)
        {} none with
      executionHooks := task.executionHooks, images := [] }
  else
    return { completedExecution task.call task.descriptor block.result {} block.details with
      executionHooks := task.executionHooks, images := block.images }

/-- The join loop.  It runs at most once for each task. -/
def joinTasks (env : Env A V) : Nat → ParallelBatch V → RoundM A V (ParallelBatch V)
  | 0, batch => return batch
  | rounds + 1, batch =>
    match batch.tasks with
    | [] => return batch
    | first :: _ => do
        let next ← ask env.joinNext
        pollLimits env next.polls
        match next.finished with
        | .error message => throw (.store ("parallel tool task failed: " ++ message))
        | .ok pick =>
          let chosen := pick % batch.tasks.length
          let task := batch.tasks.getD chosen first
          let execution ← finishParallelTask env task
          joinTasks env rounds
            { results := batch.results.set task.index (some execution)
              tasks := batch.tasks.eraseIdx chosen }

/-- Put the answers in call order. -/
def collectResults : List (Option (CompletedToolExecution V)) →
    Except RuntimeError (List (CompletedToolExecution V))
  | [] => .ok []
  | none :: _ => .error (.store "parallel tool batch lost a result")
  | some execution :: rest => (collectResults rest).map (execution :: ·)

def executeParallelBatch (env : Env A V) (calls : List (ScheduledToolCall A V)) :
    RoundM A V (List (CompletedToolExecution V)) := do
  let started ← startParallelCalls env 0 calls ⟨List.replicate calls.length none, []⟩
  let joined ← joinTasks env started.tasks.length started
  checkLimits env
  Program.lift (collectResults joined.results)

def executeBatch (env : Env A V) : ToolCallBatch A V →
    RoundM A V (List (CompletedToolExecution V))
  | .exclusive call => do
      let execution ← executeOneTool env call
      return [execution]
  | .parallel calls => executeParallelBatch env calls

/-! ## What a round keeps -/

/-- Positions of the calls whose handlers ran, newest first. -/
def handlerPositions (trace : List (Event V)) : List Nat :=
  trace.filterMap Event.handlerPosition?

/-- The position of an exclusive call whose handler asked to terminate. -/
def Event.terminatorPosition? : Event V → Option Nat
  | handler position .exclusive _ (.ok output) => if output.terminate then some position else none
  | _ => none

/-- No exclusive handler asked to terminate yet. -/
def Open (trace : List (Event V)) : Prop :=
  ∀ event ∈ trace, event.terminatorPosition? = none

/-- The output is what the tool's handler answered to the input, if it did in time. -/
def Gave (tool : ResolvedTool A V) (lane : Lane) (input : V)
    (output : Except String (ToolOutput V)) : Prop :=
  ∃ name answer, output = executeToolFuture name tool.descriptor.executionTimeout answer ∧
    match lane with
    | .exclusive =>
      ∃ now context agent, answer = (tool.handler.executeMutOutput now context input agent).1
    | .parallel => ∃ now context, answer = tool.handler.executeOutput now context input

/-- The call scheduled at `position` was admitted with `input` before its handler ran, may
run in this lane, and gave this output. -/
def Admitted (env : Env A V) (calls : List (ScheduledToolCall A V)) (position : Nat) (lane : Lane)
    (input : V) (output : Except String (ToolOutput V)) (before : List (Event V)) : Prop :=
  ∃ scheduled ∈ calls, ∃ tool, scheduled.position = position ∧ scheduled.tool = .resolved tool ∧
    Passed env tool position scheduled.call input before ∧
    (lane = .parallel → (executionCategoriesForSnapshot input tool).2.allowsParallel = true) ∧
    Gave tool lane input output

/-- Every handler on the trace was admitted by what comes before it. -/
def Justified (env : Env A V) (calls : List (ScheduledToolCall A V)) : List (Event V) → Prop
  | [] => True
  | .handler position lane input output :: before =>
    Admitted env calls position lane input output before ∧ Justified env calls before
  | _ :: before => Justified env calls before

/-- What holds of a round that has come to the call at `bound`. -/
structure Progress (env : Env A V) (calls : List (ScheduledToolCall A V)) (bound : Nat)
    (state : ToolRuntime A V) : Prop where
  justified : Justified env calls state.trace
  decreasing : (handlerPositions state.trace).Pairwise (· > ·)
  below : ∀ position ∈ handlerPositions state.trace, position < bound
  last : ∀ event ∈ state.trace, ∀ position, event.terminatorPosition? = some position →
    ∀ other ∈ handlerPositions state.trace, other ≤ position

variable {position : Nat}

omit [SerdeJson V] in
theorem handlerPosition?_of_terminatorPosition? {event : Event V}
    (terminates : event.terminatorPosition? = some position) :
    event.handlerPosition? = some position := by
  unfold Event.terminatorPosition? at terminates
  split at terminates
  · split at terminates
    · exact terminates
    · cases terminates
  · cases terminates

omit [SerdeJson V] in
theorem terminatorPosition?_eq_none {event : Event V} (other : event.handlerPosition? = none) :
    event.terminatorPosition? = none := by
  cases terminates : event.terminatorPosition? with
  | none => rfl
  | some position =>
    rw [handlerPosition?_of_terminatorPosition? terminates] at other
    cases other

omit [SerdeJson V] in
theorem handlerPositions_append {more : List (Event V)}
    (silent : ∀ event ∈ more, event.handlerPosition? = none) (trace : List (Event V)) :
    handlerPositions (more ++ trace) = handlerPositions trace := by
  rw [handlerPositions, filterMap_append, filterMap_eq_nil_iff.mpr silent,
    nil_append, handlerPositions]

variable {calls : List (ScheduledToolCall A V)}

theorem Justified.append {env : Env A V}
    {more trace : List (Event V)} (silent : ∀ event ∈ more, event.handlerPosition? = none)
    (justified : Justified env calls trace) : Justified env calls (more ++ trace) := by
  induction more with
  | nil => exact justified
  | cons event more ih =>
    have rest := ih fun other mem => silent other (mem_cons_of_mem _ mem)
    cases event with
    | handler position lane input output => cases silent _ mem_cons_self
    | preHooks position hooks | executionHooks position participants
    | authorizer position request answer => exact rest

variable {start : ToolRuntime A V}

omit [SerdeJson V] in
theorem Open.quiet {final : ToolRuntime A V} (isOpen : Open start.trace)
    (quiet : Quiet start final) : Open final.trace := by
  obtain ⟨more, grown, silent⟩ := quiet.grown
  intro event mem
  rw [grown] at mem
  rcases mem_append.mp mem with new | old
  · exact terminatorPosition?_eq_none (silent event new)
  · exact isOpen event old

namespace Progress

variable {env : Env A V} {calls : List (ScheduledToolCall A V)} {bound : Nat}
  {start final : ToolRuntime A V}

section

variable (progress : Progress env calls bound start)
include progress

theorem quiet (quiet : Quiet start final) : Progress env calls bound final := by
  obtain ⟨more, grown, silent⟩ := quiet.grown
  have positions : handlerPositions final.trace = handlerPositions start.trace := by
    rw [grown, handlerPositions_append silent]
  refine ⟨?_, positions ▸ progress.decreasing, positions ▸ progress.below, ?_⟩
  · rw [grown]
    exact progress.justified.append silent
  · rw [positions, grown]
    intro event mem position terminates
    rcases mem_append.mp mem with new | old
    · rw [terminatorPosition?_eq_none (silent event new)] at terminates
      cases terminates
    · exact progress.last event old position terminates

theorem congr (trace : final.trace = start.trace) : Progress env calls bound final :=
  ⟨trace ▸ progress.justified, trace ▸ progress.decreasing, trace ▸ progress.below,
    trace ▸ progress.last⟩

theorem mono {further : Nat} (le : bound ≤ further) : Progress env calls further start :=
  { progress with below := fun position mem => Nat.lt_of_lt_of_le (progress.below position mem) le }

/-- The next call's handler runs on an admitted input. -/
theorem handler (isOpen : Open start.trace)
    {lane : Lane} {input : V} {output : Except String (ToolOutput V)}
    (admitted : Admitted env calls bound lane input output start.trace)
    (ran : final.trace = .handler bound lane input output :: start.trace) :
    Progress env calls (bound + 1) final := by
  have positions : handlerPositions final.trace = bound :: handlerPositions start.trace := by
    rw [ran]
    rfl
  refine ⟨?_, ?_, ?_, ?_⟩
  · rw [ran]
    exact ⟨admitted, progress.justified⟩
  · rw [positions, pairwise_cons]
    exact ⟨progress.below, progress.decreasing⟩
  · rw [positions]
    intro position mem
    rcases mem_cons.mp mem with rfl | earlier
    · exact Nat.lt_succ_self _
    · exact Nat.lt_succ_of_lt (progress.below position earlier)
  · rw [positions, ran]
    intro event mem position terminates other otherMem
    rcases mem_cons.mp mem with rfl | earlier
    · have : bound = position :=
        Option.some.inj (handlerPosition?_of_terminatorPosition? terminates)
      rcases mem_cons.mp otherMem with rfl | before
      · exact Nat.le_of_eq this
      · exact this ▸ Nat.le_of_lt (progress.below other before)
    · rw [isOpen event earlier] at terminates
      cases terminates

end

end Progress

/-- From `start` on the round came to `bound` and charged no call. -/
structure Serves (env : Env A V) (calls : List (ScheduledToolCall A V)) (bound : Nat)
    (start final : ToolRuntime A V) : Prop where
  progress : Progress env calls bound final
  toolCalls : final.toolCalls = start.toolCalls

/-- The run from `start` comes to `bound`, and a value it ends in has `post`. -/
abbrev Serving {α : Type} (env : Env A V) (calls : List (ScheduledToolCall A V)) (bound : Nat)
    (program : RoundM A V α) (post : α → ToolRuntime A V → Prop) (start : ToolRuntime A V) : Prop :=
  Moves (Serves env calls bound) program post start

section Serving

variable {env : Env A V} {bound : Nat} {middle final : ToolRuntime A V}

theorem Serves.after (serves : Serves env calls bound middle final) (quiet : Quiet start middle) :
    Serves env calls bound start final :=
  ⟨serves.progress, serves.toolCalls.trans quiet.toolCalls⟩

theorem Serves.quiet (serves : Serves env calls bound start middle) (quiet : Quiet middle final) :
    Serves env calls bound start final :=
  ⟨serves.progress.quiet quiet, quiet.toolCalls.trans serves.toolCalls⟩

/-- A call is served also if its handler does not run. -/
theorem Progress.serves (progress : Progress env calls position start)
    (quiet : Quiet start final) : Serves env calls (position + 1) start final :=
  ⟨(progress.quiet quiet).mono (Nat.le_succ _), quiet.toolCalls⟩

variable {α : Type} {program : RoundM A V α} {post : α → ToolRuntime A V → Prop}

theorem Serving.after (serving : Serving env calls bound program post middle)
    (quiet : Quiet start middle) : Ensures program
      (fun value final => Serves env calls bound start final ∧ post value final)
      (fun _ => Serves env calls bound start) middle :=
  Ensures.weaken serving (fun _ _ both => ⟨both.1.after quiet, both.2⟩)
    fun _ _ serves => serves.after quiet

end Serving

/-- The execution answers the call, and the round is open unless it terminated. -/
def Settles (call : ToolCall V) (execution : CompletedToolExecution V)
    (final : ToolRuntime A V) : Prop :=
  execution.result.toolResultId? = some call.id ∧ (execution.terminated = false → Open final.trace)

/-! ## The exclusive lane serves one call -/

variable {tool : ResolvedTool A V} {call : ToolCall V}

theorem Passed.mono {env : Env A V} {input : V} {final : ToolRuntime A V}
    (passed : Passed env tool position call input start.trace) (quiet : Quiet start final) :
    Passed env tool position call input final.trace := by
  obtain ⟨⟨hooks, participants, middle, legacy, left, mixed, right⟩, fits, allowed⟩ := passed
  refine ⟨⟨hooks, participants, middle, quiet.mem_trace legacy, left, quiet.mem_trace mixed,
    right⟩, fits, ?_⟩
  rcases allowed with nobody | ⟨request, reason, asked, about⟩
  · exact .inl nobody
  · exact .inr ⟨request, reason, quiet.mem_trace asked, about⟩

omit [SerdeJson V] in
theorem terminatorPosition?_exclusive {input : V} {output : Except String (ToolOutput V)}
    (goesOn : ¬ ∃ value, output = .ok value ∧ value.terminate = true) :
    (Event.handler position .exclusive input output).terminatorPosition? = none := by
  cases output with
  | error failure => rfl
  | ok value =>
    rw [Event.terminatorPosition?, if_neg]
    exact fun terminates => goesOn ⟨value, rfl, terminates⟩

variable (env : Env A V)

theorem runExclusive_spec (context : ParallelToolContext)
    (executionHooks : Option (List (ExecutionHookParticipant V))) (source : Option String)
    (progress : Progress env calls position start) (isOpen : Open start.trace)
    (admitted : ∀ output, Gave tool .exclusive call.input output →
      Admitted env calls position .exclusive call.input output start.trace) :
    Serving env calls (position + 1)
      (runExclusive env position call tool context executionHooks source) (Settles call) start := by
  rw [Serving, Moves]
  simp only [runExclusive, ensures_bind, ensures_onAgent, ensures_record]
  have ran : ∀ output (final : ToolRuntime A V),
      final.trace = .handler position .exclusive call.input output :: start.trace →
        Gave tool .exclusive call.input output → Progress env calls (position + 1) final :=
    fun output final traced gave => progress.handler isOpen (admitted output gave) traced
  apply (toolOutputBlock_spec env call _ source _).weaken
  · rintro block final ⟨still, id, terminates⟩
    refine ⟨⟨(ran _ _ rfl ⟨_, _, rfl, _, _, _, rfl⟩).quiet
      (still.toQuiet.trans (.of_trace_eq rfl rfl)), still.toolCalls⟩,
      id, ?_⟩
    intro goesOn
    refine Open.quiet ?_ (still.toQuiet.trans (.of_trace_eq rfl rfl))
    intro event mem
    rcases mem_cons.mp mem with rfl | earlier
    · apply terminatorPosition?_exclusive
      rw [← terminates]
      exact Bool.eq_false_iff.mp goesOn
    · exact isOpen event earlier
  · exact fun _ final still => ⟨(ran _ _ rfl ⟨_, _, rfl, _, _, _, rfl⟩).quiet still.toQuiet,
      still.toolCalls⟩

variable {scheduled : ScheduledToolCall A V}

theorem executeRegisteredTool_spec (member : scheduled ∈ calls)
    (resolved : scheduled.tool = .resolved tool)
    (progress : Progress env calls scheduled.position start) (isOpen : Open start.trace) :
    Serving env calls (scheduled.position + 1)
      (executeRegisteredTool env scheduled.position scheduled.call tool
        scheduled.executionCategory) (Settles scheduled.call) start := by
  apply Ensures.bind (admitCall_spec env scheduled.position scheduled.call tool _
    (scheduled.classified tool resolved) start)
  · rintro ⟨admission, call⟩ middle ⟨-, quiet, id, refused, run⟩
    match admission with
    | .error error => exact ⟨progress.serves quiet, congrArg some id, fun _ => isOpen.quiet quiet⟩
    | .ok (.refused execution) =>
      exact ⟨progress.serves quiet, (refused execution rfl).id, fun _ => isOpen.quiet quiet⟩
    | .ok (.run context hooks source) =>
      obtain ⟨passed, -⟩ := run context hooks source rfl
      rw [ensures_bind, ensures_attempt]
      apply (Calm.emitHook env _ middle).weaken
      · intro _ noted notes
        have quiet := quiet.trans notes.toQuiet
        apply ((runExclusive_spec env context hooks source (progress.quiet quiet)
          (isOpen.quiet quiet) fun output gave => ⟨scheduled, member, tool, rfl, resolved,
            passed.mono notes.toQuiet, nofun, gave⟩).after quiet).weaken
        · rintro execution final ⟨served, answers, goesOn⟩
          exact ⟨served, answers.trans (congrArg some id), goesOn⟩
        · exact fun _ final served => served
      · intro error final notes
        have quiet := quiet.trans notes.toQuiet
        exact ⟨progress.serves quiet, congrArg some id, fun _ => isOpen.quiet quiet⟩
  · exact fun _ final still => progress.serves still.toQuiet

theorem executeOneTool_spec (member : scheduled ∈ calls)
    (progress : Progress env calls scheduled.position start) (isOpen : Open start.trace) :
    Serving env calls (scheduled.position + 1) (executeOneTool env scheduled)
      (Settles scheduled.call) start := by
  apply Ensures.bind (Silent.noteToolStarted env scheduled.call start)
  · intro _ middle quiet
    cases resolved : scheduled.tool with
    | unavailable | missing => exact ⟨progress.serves quiet, rfl, fun _ => isOpen.quiet quiet⟩
    | resolved tool =>
      exact (executeRegisteredTool_spec env member resolved (progress.quiet quiet)
        (isOpen.quiet quiet)).after quiet
  · exact fun _ final quiet => progress.serves quiet

/-! ## The parallel lane serves a batch -/

/-- What starting the call at `index` came to is about that call. -/
def Started.IsFor (index : Nat) (call : ToolCall V) : Started V → Prop
  | answered execution => execution.result.toolResultId? = some call.id
  | spawned task => task.index = index ∧ task.call.id = call.id

theorem startParallelCall_spec (index : Nat) (member : scheduled ∈ calls)
    (parallel : scheduled.executionCategory.allowsParallel = true)
    (progress : Progress env calls scheduled.position start) (isOpen : Open start.trace) :
    Serving env calls (scheduled.position + 1) (startParallelCall env index scheduled)
      (fun started final => Open final.trace ∧ started.IsFor index scheduled.call) start := by
  apply Ensures.bind (Silent.noteToolStarted env scheduled.call start)
  · intro _ middle quiet
    cases resolved : scheduled.tool with
    | unavailable | missing => exact ⟨progress.serves quiet, isOpen.quiet quiet, rfl⟩
    | resolved tool =>
      apply Ensures.bind (admitCall_spec env scheduled.position scheduled.call tool _
        (scheduled.classified tool resolved) middle)
      · rintro ⟨admission, call⟩ admittedState ⟨-, admits, id, refused, run⟩
        have quiet := quiet.trans admits
        match admission with
        | .error error => exact progress.serves quiet
        | .ok (.refused execution) =>
          exact ⟨progress.serves quiet, isOpen.quiet quiet, (refused execution rfl).id⟩
        | .ok (.run context hooks source) =>
          obtain ⟨passed, belongs⟩ := run context hooks source rfl
          rw [ensures_bind, ensures_attempt]
          apply (Calm.emitHook env _ admittedState).weaken
          · intro _ noted notes
            have quiet := quiet.trans notes.toQuiet
            have admitted (output) (gave : Gave tool .parallel call.input output) :
                Admitted env calls scheduled.position .parallel call.input output noted.trace :=
              ⟨scheduled, member, tool, rfl, resolved, passed.mono notes.toQuiet,
                fun _ => belongs parallel, gave⟩
            refine ⟨⟨(progress.quiet quiet).handler (isOpen.quiet quiet)
              (admitted _ ⟨_, _, rfl, _, _, rfl⟩) rfl, quiet.toolCalls⟩, ?_, rfl, id⟩
            intro event mem
            rcases mem_cons.mp mem with rfl | earlier
            · rfl
            · exact isOpen.quiet quiet event earlier
          · intro error final notes
            have quiet := quiet.trans notes.toQuiet
            exact ⟨progress.serves quiet, isOpen.quiet quiet, congrArg some id⟩
      · exact fun _ final admits => progress.serves (quiet.trans admits.toQuiet)
  · exact fun _ final quiet => progress.serves quiet

/-- Every answer entered so far, and every task still running, is for the call
whose place it has. -/
structure Filled (ids : List String) (batch : ParallelBatch V) : Prop where
  results : List.Forall₂ (fun id slot => ∀ execution, slot = some execution →
    execution.result.toolResultId? = some id) ids batch.results
  tasks : ∀ task ∈ batch.tasks, ids[task.index]? = some task.call.id

variable {ids : List String} {batch : ParallelBatch V}

omit [SerdeJson V] in
theorem Filled.enter (filled : Filled ids batch)
    {index : Nat} (read : ids[index]? = some call.id) {started : Started V}
    (isFor : started.IsFor index call) : Filled ids (batch.enter index started) := by
  cases started with
  | answered execution =>
    refine ⟨Lists.forall₂_set_right filled.results read ?_, filled.tasks⟩
    rintro _ ⟨⟩
    exact isFor
  | spawned task =>
    refine ⟨filled.results, ?_⟩
    intro other mem
    rcases mem_append.mp mem with earlier | new
    · exact filled.tasks other earlier
    · obtain ⟨atIndex, sameId⟩ := isFor
      rw [mem_singleton.mp new, atIndex, sameId]
      exact read

/-- The calls' positions are `bound`, `bound + 1` and so on. -/
def Consecutive : Nat → List (ScheduledToolCall A V) → Prop
  | _, [] => True
  | bound, scheduled :: rest => scheduled.position = bound ∧ Consecutive (bound + 1) rest

variable {bound : Nat}

omit [SerdeJson V] in
theorem consecutive_append {front rest : List (ScheduledToolCall A V)} :
    Consecutive bound (front ++ rest) ↔
      Consecutive bound front ∧ Consecutive (bound + front.length) rest := by
  induction front generalizing bound with
  | nil => simp [Consecutive]
  | cons scheduled front ih =>
    rw [cons_append, Consecutive, Consecutive, ih, and_assoc, length_cons,
      Nat.add_assoc, Nat.add_comm 1]

theorem startParallelCalls_spec {rest : List (ScheduledToolCall A V)}
    (members : ∀ scheduled ∈ rest, scheduled ∈ calls)
    (parallel : ∀ scheduled ∈ rest, scheduled.executionCategory.allowsParallel = true)
    (consecutive : Consecutive bound rest) {front : List String}
    (filled : Filled (front ++ rest.map (·.call.id)) batch)
    (progress : Progress env calls bound start) (isOpen : Open start.trace) :
    Serving env calls (bound + rest.length) (startParallelCalls env front.length rest batch)
      (fun started final => Open final.trace ∧
        Filled (front ++ rest.map (·.call.id)) started) start := by
  induction rest generalizing bound front batch start with
  | nil => exact ⟨⟨progress, rfl⟩, isOpen, filled⟩
  | cons scheduled rest ih =>
    obtain ⟨rfl, consecutive⟩ := consecutive
    rw [length_cons, Nat.add_comm rest.length, ← Nat.add_assoc]
    apply Ensures.bind (startParallelCall_spec env front.length (members _ mem_cons_self)
      (parallel _ mem_cons_self) progress isOpen)
    · rintro started middle ⟨served, stillOpen, isFor⟩
      have read : (front ++ (scheduled :: rest).map (·.call.id))[front.length]? =
          some scheduled.call.id := by simp
      have entered := filled.enter read isFor
      have split : front ++ (scheduled :: rest).map (·.call.id) =
          (front ++ [scheduled.call.id]) ++ rest.map (·.call.id) := by simp
      have next : front.length + 1 = (front ++ [scheduled.call.id]).length := by simp
      rw [split] at entered ⊢
      rw [next]
      apply (ih (fun other mem => members other (mem_cons_of_mem _ mem))
        (fun other mem => parallel other (mem_cons_of_mem _ mem)) consecutive entered
        served.progress stillOpen).weaken
      · exact fun _ state both =>
          ⟨⟨both.1.progress, both.1.toolCalls.trans served.toolCalls⟩, both.2⟩
      · exact fun _ state further =>
          ⟨further.progress, further.toolCalls.trans served.toolCalls⟩
    · exact fun _ state served =>
        ⟨served.progress.mono (Nat.le_add_right _ _), served.toolCalls⟩

omit [SerdeJson V] in
theorem Calm.pollLimits (polls : Nat) : Calm (Orchestrator.pollLimits env polls) := by
  induction polls with
  | zero => exact .checkLimits env
  | succ polls ih => exact (Calm.checkLimits env).bind fun _ => ih

theorem finishParallelTask_spec (task : ParallelTask V) (start : ToolRuntime A V) :
    Calmly (finishParallelTask env task)
      (fun execution _ => execution.result.toolResultId? = some task.call.id) start := by
  apply (toolOutputBlock_spec env task.call task.output task.rewriteSource start).bind
  rintro block final - ⟨id, -⟩
  split
  · exact ⟨.refl final, rfl⟩
  · exact ⟨.refl final, id⟩

theorem joinTasks_spec (rounds : Nat) (filled : Filled ids batch) (start : ToolRuntime A V) :
    Calmly (joinTasks env rounds batch) (fun joined _ => Filled ids joined) start := by
  induction rounds generalizing batch start with
  | zero => exact ⟨.refl start, filled⟩
  | succ rounds ih =>
    unfold joinTasks
    cases running : batch.tasks with
    | nil => exact ⟨.refl start, filled⟩
    | cons first others =>
      apply (Calm.ask _).then
      intro next asked _
      apply (Calm.pollLimits env _).then
      intro _ polled _
      cases finished : next.finished with
      | error message => exact .refl polled
      | ok pick =>
        apply (finishParallelTask_spec env _ polled).bind
        intro execution final _ id
        have chosen : (first :: others).getD (pick % (first :: others).length) first ∈
            batch.tasks := by
          have inside : pick % (first :: others).length < (first :: others).length :=
            Nat.mod_lt _ (Nat.zero_lt_succ _)
          rw [running, getD_eq_getElem?_getD, getElem?_eq_getElem inside]
          exact getElem_mem inside
        apply ih
        refine ⟨Lists.forall₂_set_right filled.results (filled.tasks _ chosen) ?_, ?_⟩
        · rintro _ ⟨⟩
          exact id
        · intro task mem
          exact filled.tasks task (running ▸ mem_of_mem_eraseIdx mem)

omit [SerdeJson V] in
theorem collectResults_eq_ok {results : List (Option (CompletedToolExecution V))}
    (filled : List.Forall₂ (fun id slot => ∀ execution, slot = some execution →
      execution.result.toolResultId? = some id) ids results)
    {executions : List (CompletedToolExecution V)}
    (collected : collectResults results = .ok executions) :
    executions.map (·.result.toolResultId?) = ids.map some := by
  induction filled generalizing executions with
  | nil =>
    cases collected
    rfl
  | @cons id slot ids results fits _ ih =>
    cases slot with
    | none => cases collected
    | some execution =>
      rw [collectResults] at collected
      cases rest : collectResults results with
      | error error => simp [rest, Except.map] at collected
      | ok others =>
        simp only [rest, Except.map, Except.ok.injEq] at collected
        rw [← collected, map_cons, map_cons, fits execution rfl, ih rest]

/-- What running a batch comes to: one answer to each of its calls, in order. -/
structure BatchServed (env : Env A V) (calls : List (ScheduledToolCall A V)) (bound : Nat)
    (batch : ToolCallBatch A V) (start : ToolRuntime A V)
    (executions : List (CompletedToolExecution V)) (final : ToolRuntime A V) : Prop where
  serves : Serves env calls (bound + batch.executionCount) start final
  answers : executions.map (·.result.toolResultId?) =
    batch.scheduledCalls.map fun scheduled => some scheduled.call.id
  goesOn : (∀ execution ∈ executions, execution.terminated = false) → Open final.trace

theorem executeParallelBatch_spec {batch : List (ScheduledToolCall A V)}
    (members : ∀ scheduled ∈ batch, scheduled ∈ calls)
    (parallel : ∀ scheduled ∈ batch, scheduled.executionCategory.allowsParallel = true)
    (consecutive : Consecutive bound batch)
    (progress : Progress env calls bound start) (isOpen : Open start.trace) :
    Ensures (executeParallelBatch env batch)
      (BatchServed env calls bound (.parallel batch) start)
      (fun _ final => Serves env calls (bound + batch.length) start final) start := by
  have empty : Filled ([] ++ batch.map (·.call.id))
      (⟨List.replicate batch.length none, []⟩ : ParallelBatch V) := by
    refine ⟨forall₂_iff_zip.mpr ⟨by simp, ?_⟩, by simp⟩
    intro id slot mem execution filled
    rw [eq_of_mem_replicate (of_mem_zip mem).2] at filled
    cases filled
  apply Ensures.bind (startParallelCalls_spec env members parallel consecutive empty progress
    isOpen)
  · rintro started middle ⟨served, stillOpen, filled⟩
    apply Ensures.bind (joinTasks_spec env started.tasks.length filled middle)
    · rintro joined rejoined ⟨joining, answered⟩
      apply (Calm.checkLimits env rejoined).bind
      · intro _ final checking
        have quiet := (joining.trans checking).toQuiet
        rw [ensures_lift]
        constructor
        · intro executions collected
          have answers := collectResults_eq_ok answered.results collected
          rw [nil_append, map_map] at answers
          exact ⟨served.quiet quiet, answers, fun _ => stillOpen.quiet quiet⟩
        · exact fun _ _ => served.quiet quiet
      · exact fun _ final checking => served.quiet (joining.trans checking).toQuiet
    · exact fun _ final joining => served.quiet joining.toQuiet
  · exact fun _ final served => served

/-- The batch is one exclusive call, or calls that all allow parallel runs. -/
def ToolCallBatch.LaneFits : ToolCallBatch A V → Prop
  | exclusive _ => True
  | parallel calls => ∀ scheduled ∈ calls, scheduled.executionCategory.allowsParallel = true

theorem executeBatch_spec {batch : ToolCallBatch A V}
    (members : ∀ scheduled ∈ batch.scheduledCalls, scheduled ∈ calls) (laneFits : batch.LaneFits)
    (consecutive : Consecutive bound batch.scheduledCalls)
    (progress : Progress env calls bound start) (isOpen : Open start.trace) :
    Ensures (executeBatch env batch) (BatchServed env calls bound batch start)
      (fun _ final => Serves env calls (bound + batch.executionCount) start final) start := by
  cases batch with
  | exclusive scheduled =>
    obtain ⟨rfl, -⟩ := consecutive
    apply Ensures.bind (executeOneTool_spec env (members _ mem_cons_self) progress isOpen)
    · rintro execution final ⟨served, answers, goesOn⟩
      refine ⟨served, ?_, fun goes => goesOn (goes execution mem_cons_self)⟩
      rw [map_singleton, answers]
      rfl
    · exact fun _ final served => served
  | parallel batch =>
    exact executeParallelBatch_spec env members laneFits consecutive progress isOpen

end Mentra.Orchestrator

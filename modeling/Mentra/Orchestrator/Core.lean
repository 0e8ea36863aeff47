import Mentra.Foundation.Program
import Mentra.Hooks.Core
import Mentra.Tool.Core

/-!
# The tool orchestrator

Model of `mentra/src/tool/orchestrator.rs`: scheduling the calls of a round into batches,
admitting each call (hooks, schema check, authorizer), running the two lanes and putting the
results back together.

Everything a host or the runtime answers during a round is a field of `Env`.  An answer that
may differ from one question to the next takes the moment it is asked at, a counter that no
two questions share; so a statement about every `Env` covers every pattern of decisions,
refusals, failures, limits and completion orders.  The agent is a state `A` that only its own
operations and the exclusive lane's handlers change.  Notices whose failure the source ignores
are left out.

The trace records, newest first, which hook snapshots a call went through, what the authorizer
was asked and which handlers ran on which input.  No definition reads it.
-/

namespace Mentra.Orchestrator

open Foundation Program Orchestrator

variable {A V : Type}

/-- The two ways a handler is run. -/
inductive Lane
  | exclusive
  | parallel

/-- What happened in a round.  A position is a call's place in the round. -/
inductive Event (V : Type)
  | preHooks (position : Nat) (hooks : List PreExecutionHook)
  | executionHooks (position : Nat) (participants : List (ExecutionHookParticipant V))
  | authorizer (position : Nat) (request : ToolAuthorizationRequest V)
      (answer : AuthorizerAnswer RuntimeError)
  | handler (position : Nat) (lane : Lane) (input : V) (output : Except String (ToolOutput V))

/-- Runtime notices whose failure stops a call. -/
inductive RuntimeHookEvent (V : Type)
  | toolExecutionStarted (call : ToolCall V)
  | toolAuthorizationStarted (call : ToolCall V) (preview : ToolAuthorizationPreview V)
  | toolAuthorizationFinished (call : ToolCall V) (outcome : ToolAuthorizationOutcome)
      (reason : Option String)
  | toolAuthorizationBlocked (call : ToolCall V) (outcome : ToolAuthorizationOutcome)
      (reason : Option String)

/-- The next task of a join set to end: how often the poll interval passes first, and which task
it is, or why joining it failed. -/
structure JoinNext where
  polls : Nat := 0
  finished : Except String Nat

/-- The agent, the run's options and the runtime as a round meets them. -/
structure Env (A V : Type) where
  agentId : String
  agentName : A → String
  model : A → String
  historyLen : A → Nat
  resolveTool : A → String → ToolResolution A V
  noteToolStarted : Nat → ToolCall V → A → Except RuntimeError Unit × A
  takeIdleRequested : A → Bool × A
  recordPagedToolResult : String → String → A → A
  checkLimits : Nat → Except RuntimeError Unit
  toolBudget : Nat
  resolveWorkingDirectory : Nat → String
  preHooks : Nat → List PreExecutionHook
  executionHooks : Nat → List (ExecutionHookParticipant V)
  postHooks : Nat → List (PostExecutionHook V)
  emitHook : Nat → RuntimeHookEvent V → Except RuntimeError Unit
  validateToolInput : V → V → Except String Unit
  toolAuthorizer : Option (Nat → ToolAuthorizationRequest V → AuthorizerAnswer RuntimeError)
  outputLimiter : Nat → ToolResultContent V → ToolResultContent V
  pager : Option (String → String → Option String)
  joinNext : Nat → JoinNext
  statusText : Nat → String

/-- The orchestrator's state, with the agent it works for. -/
structure ToolRuntime (A V : Type) where
  agent : A
  toolCalls : Nat := 0
  workingDirectory : Option String := none
  clock : Nat := 0
  trace : List (Event V) := []

abbrev RoundM (A V : Type) :=
  Program RuntimeError (ToolRuntime A V)

inductive ScheduledTool (A V : Type)
  | resolved (tool : ResolvedTool A V)
  | unavailable
  | missing

/-- `execution_categories_for_snapshot`: the category the tool declares for
this input, and the one it is scheduled under. -/
def executionCategoriesForSnapshot (input : V) (tool : ResolvedTool A V) :
    ToolExecutionCategory × ToolExecutionCategory :=
  let declared := tool.handler.executionCategory input
  (declared,
    if tool.descriptor.terminal && declared.allowsParallel then .exclusiveLocalMutation
    else declared)

/-- A call with the tool and category it was scheduled under.  The position is
read by the trace only. -/
structure ScheduledToolCall (A V : Type) where
  position : Nat
  call : ToolCall V
  tool : ScheduledTool A V
  executionCategory : ToolExecutionCategory
  classified : ∀ resolved, tool = .resolved resolved →
    executionCategory = (executionCategoriesForSnapshot call.input resolved).2

inductive ToolCallBatch (A V : Type)
  | exclusive (call : ScheduledToolCall A V)
  | parallel (calls : List (ScheduledToolCall A V))

/-- What the pre-execution hooks left of a call. -/
inductive HookOutcome (V : Type)
  | proceed (call : ToolCall V) (modified : Bool)
  | refused (reason : String)

inductive MixedHookOutcome (V : Type)
  | proceed (call : ToolCall V) (modified : Bool) (attribution : Option String)
  | refused (reason : String)

structure CompletedToolExecution (V : Type) where
  result : ContentBlock V
  taskSucceeded : Bool := false
  shouldEndTurn : Bool := false
  terminated : Bool := false
  toolName : String
  inputJson : String
  details : Option V := none
  images : List ImageSource := []
  executionHooks : Option (List (ExecutionHookParticipant V)) := none

inductive Admission (V : Type)
  | run (context : ParallelToolContext)
      (executionHooks : Option (List (ExecutionHookParticipant V))) (rewriteSource : Option String)
  | refused (execution : CompletedToolExecution V)

/-- How a single execution affects the current round. -/
structure RoundEffect where
  shouldEndTurn : Bool := false
  terminated : Bool := false

structure ToolExecutionOutcome (V : Type) where
  results : List (ContentBlock V)
  successfulTask : Bool
  endTurn : Bool
  details : List (String × V)

/-! ## Questions to the environment -/

variable {α : Type}

/-- Ask a question; no later question is asked at the same moment. -/
def ask (question : Nat → α) : RoundM A V α :=
  modifyGet fun state => (question state.clock, { state with clock := state.clock + 1 })

/-- Let an operation of the agent run. -/
def onAgent (operation : Nat → A → α × A) : RoundM A V α :=
  modifyGet fun state =>
    ((operation state.clock state.agent).1,
      { state with agent := (operation state.clock state.agent).2, clock := state.clock + 1 })

def record (event : Event V) : RoundM A V PUnit :=
  modify fun state => { state with trace := event :: state.trace }

variable {start : ToolRuntime A V} {fail : RuntimeError → ToolRuntime A V → Prop}

@[simp]
theorem ensures_ask {question : Nat → α} {post : α → ToolRuntime A V → Prop} :
    Ensures (ask question) post fail start ↔
      post (question start.clock) { start with clock := start.clock + 1 } :=
  Iff.rfl

@[simp]
theorem ensures_onAgent {operation : Nat → A → α × A} {post : α → ToolRuntime A V → Prop} :
    Ensures (onAgent operation) post fail start ↔
      post (operation start.clock start.agent).1
        { start with
          agent := (operation start.clock start.agent).2
          clock := start.clock + 1 } :=
  Iff.rfl

@[simp]
theorem ensures_record {event : Event V} {post : PUnit → ToolRuntime A V → Prop} :
    Ensures (record event) post fail start ↔ post ⟨⟩ { start with trace := event :: start.trace } :=
  Iff.rfl

def checkLimits (env : Env A V) : RoundM A V Unit := do
  Program.lift (← ask env.checkLimits)

def emitHook (env : Env A V) (event : RuntimeHookEvent V) : RoundM A V Unit := do
  Program.lift (← ask fun now => env.emitHook now event)

/-- `working_directory`: resolved once and kept. -/
def workingDirectory (env : Env A V) : RoundM A V String := do
  match (← get).workingDirectory with
  | some path => return path
  | none =>
    let path ← ask env.resolveWorkingDirectory
    modify fun state => { state with workingDirectory := some path }
    return path

def noteToolStarted (env : Env A V) (call : ToolCall V) : RoundM A V Unit := do
  Program.lift (← onAgent fun now agent => env.noteToolStarted now call agent)

/-! ## Scheduling -/

variable (env : Env A V)

def scheduleCall (agent : A) (position : Nat) (call : ToolCall V) : ScheduledToolCall A V :=
  match env.resolveTool agent call.name with
  | .hidden =>
    { position, call, tool := .unavailable, executionCategory := .exclusiveLocalMutation
      classified := by rintro _ ⟨⟩ }
  | .missing =>
    { position, call, tool := .missing, executionCategory := .exclusiveLocalMutation
      classified := by rintro _ ⟨⟩ }
  | .visible tool =>
    { position, call, tool := .resolved tool
      executionCategory := (executionCategoriesForSnapshot call.input tool).2
      classified := by
        rintro _ ⟨⟩
        rfl }

/-- Close the parallel batch being collected, if there is one. -/
def pendingBatch (pending : List (ScheduledToolCall A V)) : List (ToolCallBatch A V) :=
  if pending.isEmpty then [] else [.parallel pending]

/-- The loop of `ToolCallSchedule::new`. -/
def scheduleLoop (env : Env A V) (agent : A) : List (ScheduledToolCall A V) → Nat →
    List (ToolCall V) → List (ToolCallBatch A V)
  | pending, _, [] => pendingBatch pending
  | pending, position, call :: calls =>
    let scheduled := scheduleCall env agent position call
    match scheduled.executionCategory with
    | .readOnlyParallel => scheduleLoop env agent (pending ++ [scheduled]) (position + 1) calls
    | .exclusiveLocalMutation | .exclusivePersistentMutation | .backgroundJob | .delegation =>
      pendingBatch pending ++ .exclusive scheduled :: scheduleLoop env agent [] (position + 1) calls

/-- Split the round's calls into batches. -/
def toolCallSchedule (agent : A) (calls : List (ToolCall V)) : List (ToolCallBatch A V) :=
  scheduleLoop env agent [] 0 calls

namespace ToolCallBatch

def executionCount : ToolCallBatch A V → Nat
  | exclusive _ => 1
  | parallel calls => calls.length

def scheduledCalls : ToolCallBatch A V → List (ScheduledToolCall A V)
  | exclusive call => [call]
  | parallel calls => calls

def intoCalls (batch : ToolCallBatch A V) : List (ToolCall V) :=
  batch.scheduledCalls.map ScheduledToolCall.call

end ToolCallBatch

/-! ## Results -/

variable (call : ToolCall V)

def errorResult (text : String) : ContentBlock V :=
  .toolResult call.id (.text text) true

/-- A result block that does not report an error. -/
def isSuccessResult : ContentBlock V → Bool
  | .toolResult _ _ isError => !isError
  | _ => false

section Results

variable [SerdeJson V]

/-- An answer to a call that never ran. -/
def syntheticExecution (call : ToolCall V) (text : String) : CompletedToolExecution V where
  result := errorResult call text
  toolName := call.name
  inputJson := SerdeJson.print call.input

variable (call : ToolCall V)

def unavailableToolExecution : CompletedToolExecution V :=
  syntheticExecution call ("Tool '" ++ call.name ++ "' is not available for this agent")

def missingToolExecution : CompletedToolExecution V :=
  syntheticExecution call "Tool not found"

def schemaViolationExecution (error : String) : CompletedToolExecution V :=
  syntheticExecution call ("Invalid input for '" ++ call.name ++ "': " ++ error)

def completedExecution (call : ToolCall V) (descriptor : RuntimeToolDescriptor V)
    (result : ContentBlock V) (effect : RoundEffect) (details : Option V) :
    CompletedToolExecution V where
  result := result
  taskSucceeded := isSuccessResult result && descriptor.capabilities.any (· = .taskMutation)
  shouldEndTurn := effect.shouldEndTurn
  terminated := effect.terminated
  toolName := call.name
  inputJson := SerdeJson.print call.input
  details := details

def blockedToolExecution (env : Env A V) (call : ToolCall V)
    (descriptor : RuntimeToolDescriptor V) (error : RuntimeError) : CompletedToolExecution V :=
  completedExecution call descriptor
    (errorResult call ("Tool execution blocked: " ++ error.display env.statusText)) {} none

def hookBlockedExecution (descriptor : RuntimeToolDescriptor V)
    (reason : String) : CompletedToolExecution V :=
  completedExecution call descriptor
    (errorResult call ("Blocked by pre-execution hook: " ++ reason)) {} none

def mixedHookBlockedExecution (descriptor : RuntimeToolDescriptor V)
    (reason : String) : CompletedToolExecution V :=
  completedExecution call descriptor
    (errorResult call ("Blocked by mixed execution hook: " ++ reason)) {} none

end Results

def mixedRewriteSource : Option String → String
  | some attribution => "mixed execution hooks (" ++ attribution ++ ")"
  | none => "mixed execution hooks"

def rewrittenCallFailure (rewriteSource : Option String) (failure : String) : String :=
  match rewriteSource with
  | some rewriteSource =>
    rewriteSource ++ " rewrote this call; the rewritten call then failed: " ++ failure
  | none => failure

def blockedAuthorizationResult (outcome : ToolAuthorizationOutcome)
    (reason rewriteSource : Option String) : ContentBlock V :=
  errorResult call <|
    match outcome with
    | .allow => "Tool execution blocked by authorizer"
    | .prompt =>
      match reason with
      | some reason => "Tool execution requires approval: " ++ reason
      | none => "Tool execution requires approval"
    | .deny =>
      match rewriteSource with
      | some _ => "Tool execution denied: " ++
          rewrittenCallFailure rewriteSource (reason.getD "denied by authorizer")
      | none =>
        match reason with
        | some reason => "Tool execution denied: " ++ reason
        | none => "Tool execution denied by authorizer"

def notExecutedResult (terminatedBy : String) : ContentBlock V :=
  errorResult call ("not executed: run terminated by '" ++ terminatedBy ++ "'")

def parallelTerminationRejected : ContentBlock V :=
  errorResult call ("not honored: tool '" ++ call.name ++
    "' requested termination from a parallel execution; " ++
    "termination is only honored from an exclusive execution")

/-- What a finished handler comes to: the block the model sees, host metadata,
the requested termination and the images. -/
structure OutputBlock (V : Type) where
  result : ContentBlock V
  details : Option V := none
  terminate : Bool := false
  images : List ImageSource := []

def toolOutputBlock (output : Except String (ToolOutput V))
    (rewriteSource : Option String) : RoundM A V (OutputBlock V) := do
  match output with
  | .ok output =>
    let content ← ask fun now => env.outputLimiter now output.content
    return { result := .toolResult call.id content false, details := output.details,
             terminate := output.terminate, images := output.images }
  | .error failure =>
    let content ← ask fun now =>
      env.outputLimiter now (.text (rewrittenCallFailure rewriteSource failure))
    return { result := .toolResult call.id content true }

/-! ## Steps that run no handler -/

namespace Event

/-- The position of the call whose handler ran. -/
def handlerPosition? : Event V → Option Nat
  | handler position _ _ _ => some position
  | _ => none

end Event

/-- From `start` to `final` no handler ran and no call was charged; the trace
may have grown. -/
structure Quiet (start final : ToolRuntime A V) : Prop where
  toolCalls : final.toolCalls = start.toolCalls
  grown : ∃ more, final.trace = more ++ start.trace ∧ ∀ event ∈ more, event.handlerPosition? = none

namespace Quiet

theorem refl (state : ToolRuntime A V) : Quiet state state :=
  ⟨rfl, [], rfl, by simp⟩

theorem trans {first second third : ToolRuntime A V} (left : Quiet first second)
    (right : Quiet second third) : Quiet first third := by
  obtain ⟨earlier, grown, silent⟩ := left.grown
  obtain ⟨later, grownFurther, stillSilent⟩ := right.grown
  refine ⟨right.toolCalls.trans left.toolCalls, later ++ earlier, ?_, ?_⟩
  · rw [grownFurther, grown, List.append_assoc]
  · intro event mem
    rcases List.mem_append.mp mem with new | old
    · exact stillSilent event new
    · exact silent event old

theorem mem_trace {start final : ToolRuntime A V} (quiet : Quiet start final) {event : Event V}
    (mem : event ∈ start.trace) : event ∈ final.trace := by
  obtain ⟨more, grown, -⟩ := quiet.grown
  rw [grown]
  exact List.mem_append_right more mem

theorem of_trace_eq {start final : ToolRuntime A V} (toolCalls : final.toolCalls = start.toolCalls)
    (trace : final.trace = start.trace) : Quiet start final :=
  ⟨toolCalls, [], trace, by simp⟩

end Quiet

/-- A program that runs no handler, however it ends. -/
abbrev Silent (program : RoundM A V α) : Prop :=
  Along Quiet program

theorem Silent.noteToolStarted (env : Env A V) (call : ToolCall V) :
    Silent (noteToolStarted env call) := by
  refine Along.bind (R := Quiet) (fun _ _ _ => Quiet.trans) ?_ (Along.lift Quiet.refl)
  exact fun _ => .of_trace_eq rfl rfl

/-- Moreover the agent did nothing. -/
structure Still (start final : ToolRuntime A V) : Prop extends Quiet start final where
  agent : final.agent = start.agent

namespace Still

theorem refl (state : ToolRuntime A V) : Still state state :=
  ⟨.refl state, rfl⟩

theorem trans {first second third : ToolRuntime A V} (left : Still first second)
    (right : Still second third) : Still first third :=
  ⟨left.toQuiet.trans right.toQuiet, right.agent.trans left.agent⟩

end Still

instance : IsTrans (ToolRuntime A V) Quiet :=
  ⟨fun _ _ _ => Quiet.trans⟩

instance : IsTrans (ToolRuntime A V) Still :=
  ⟨fun _ _ _ => Still.trans⟩

/-- A program in which neither a handler nor the agent does anything. -/
abbrev Calm (program : RoundM A V α) : Prop :=
  Along Still program

/-- The run from `start` is calm, and a value it ends in has `post`. -/
abbrev Calmly (program : RoundM A V α) (post : α → ToolRuntime A V → Prop)
    (start : ToolRuntime A V) : Prop :=
  Moves Still program post start

section Calm

variable {β : Type} {program : RoundM A V α} {rest : α → RoundM A V β}
  {post : β → ToolRuntime A V → Prop}

theorem Calm.bind (calm : Calm program) (goesOn : ∀ value, Calm (rest value)) :
    Calm (program >>= rest) :=
  Along.bind (R := Still) (fun _ _ _ => Still.trans) calm goesOn

theorem Calm.lift (result : Except RuntimeError α) : Calm (Program.lift result : RoundM A V α) :=
  Along.lift Still.refl result

theorem Calm.ask (question : Nat → α) : Calm (ask question : RoundM A V α) :=
  fun _ => ⟨.of_trace_eq rfl rfl, rfl⟩

theorem Calm.then (calm : Calm program)
    (goesOn : ∀ value middle, Still start middle → Calmly (rest value) post middle) :
    Calmly (program >>= rest) post start :=
  (Along.moves calm).bind fun value middle still _ => goesOn value middle still

theorem Calmly.lift (result : Except RuntimeError α) :
    Calmly (Program.lift result) (fun value _ => result = .ok value) start := by
  rw [Calmly, Moves, ensures_lift]
  exact ⟨fun _ isOk => ⟨.refl start, isOk⟩, fun _ _ => .refl start⟩

theorem Calmly.record {event : Event V} (noHandler : event.handlerPosition? = none) :
    Calmly (record event) (fun _ final => event ∈ final.trace) start :=
  ⟨⟨⟨rfl, [event], rfl, by simp [noHandler]⟩, rfl⟩, List.mem_cons_self⟩

end Calm

namespace Calm

variable (env : Env A V)

theorem checkLimits : Calm (checkLimits env) :=
  (ask _).bind lift

theorem emitHook (event : RuntimeHookEvent V) : Calm (emitHook env event) :=
  (ask _).bind lift

theorem workingDirectory : Calm (Orchestrator.workingDirectory env) := by
  intro start
  rw [Orchestrator.workingDirectory, ensures_bind, ensures_get]
  cases start.workingDirectory with
  | some path => exact Still.refl start
  | none => exact ⟨.of_trace_eq rfl rfl, rfl⟩

end Calm

/-- A result block answers the call it was built for. -/
theorem toolOutputBlock_spec
    (output : Except String (ToolOutput V)) (source : Option String) (start : ToolRuntime A V) :
    Calmly (toolOutputBlock env call output source)
      (fun block _ => block.result.toolResultId? = some call.id ∧
        (block.terminate = true ↔ ∃ value, output = .ok value ∧ value.terminate = true)) start := by
  cases output with
  | ok value | error failure =>
    exact ⟨⟨.of_trace_eq rfl rfl, rfl⟩, rfl, by simp⟩

end Mentra.Orchestrator

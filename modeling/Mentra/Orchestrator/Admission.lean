import Mentra.Orchestrator.Core

/-!
# Admitting a call

Everything between a scheduled call and its handler, in the order both lanes
share: pre-execution hooks, mixed hooks, the schema check and the authorizer.
`Passed` says what an admitted input has behind it, and `admitCall_spec` that
admission gives nothing less.
-/

namespace Mentra.Orchestrator

open Foundation Program

variable {A V : Type} [SerdeJson V]

/-! ## Hooks -/

def preExecutionContext (env : Env A V) (call : ToolCall V) : RoundM A V PreExecutionContext := do
  let path ← workingDirectory env
  return { agentId := env.agentId, toolName := call.name, toolCallId := call.id,
           inputJson := SerdeJson.print call.input, workingDirectory := path }

def runPreHooks (env : Env A V) (position : Nat) (call : ToolCall V) :
    RoundM A V HookDecision := do
  let hooks ← ask env.preHooks
  record (.preHooks position hooks)
  let context ← preExecutionContext env call
  Program.lift (PreExecutionHookSnapshot.run hooks context)

/-- Run the pre-execution hooks and apply what they decided.  A rewrite that is
not JSON refuses the call. -/
def applyPreHooks (env : Env A V) (position : Nat) (call : ToolCall V) :
    RoundM A V (HookOutcome V) := do
  match ← runPreHooks env position call with
  | .allow => return .proceed call false
  | .deny reason => return .refused reason
  | .modify inputJson _ =>
    match (SerdeJson.fromStr inputJson : Except String V) with
    | .ok input => return .proceed { call with input } true
    | .error error =>
      return .refused ("pre-execution hook returned invalid JSON for '" ++ call.name ++ "': " ++
        error)

def applyExecutionBefore (env : Env A V) (call : ToolCall V)
    (participants : List (ExecutionHookParticipant V)) : RoundM A V (MixedHookOutcome V) := do
  let context ← preExecutionContext env call
  match ← Program.lift (ExecutionHookSnapshot.before participants context) with
  | BeforeDecision.continue => return .proceed call false none
  | .deny reason => return .refused reason
  | .modify inputJson attribution =>
    match (SerdeJson.fromStr inputJson : Except String V) with
    | .ok input => return .proceed { call with input } true attribution
    | .error error =>
      return .refused (mixedRewriteSource attribution ++ " returned invalid JSON for '" ++
        call.name ++ "': " ++ error)

/-- The mixed chain is skipped when nobody takes part in it. -/
def applyMixedHooks (env : Env A V) (call : ToolCall V)
    (participants : List (ExecutionHookParticipant V)) : RoundM A V (MixedHookOutcome V) :=
  if participants.isEmpty then return .proceed call false none
  else applyExecutionBefore env call participants

/-- Who is named as the source of a rewritten input. -/
def rewriteSource (legacyModified mixedModified : Bool) (attribution : Option String) :
    Option String :=
  if mixedModified then some (mixedRewriteSource attribution)
  else if legacyModified then some "pre-execution hook"
  else none

/-! ## Lane and schema -/

/-- The category the authorizer is told.  A rewrite is classified again, and must not leave the
parallel lane. -/
def authorizationCategory (tool : ResolvedTool A V) (call : ToolCall V)
    (executionCategory : ToolExecutionCategory) :
    Option String → Except String ToolExecutionCategory
  | some source =>
    let rewrittenCategory := (executionCategoriesForSnapshot call.input tool).2
    if executionCategory.allowsParallel && !rewrittenCategory.allowsParallel then
      .error (source ++ " changed '" ++ call.name ++ "' from a parallel call into " ++
        rewrittenCategory.debug ++ "; refusing to run mutating work in the parallel lane")
    else .ok rewrittenCategory
  | none => .ok executionCategory

/-- What is wrong with a call's shape; a terminal tool checks its own input. -/
def schemaViolation (env : Env A V) (call : ToolCall V) (descriptor : RuntimeToolDescriptor V) :
    Option String :=
  if descriptor.terminal then none
  else
    match env.validateToolInput descriptor.inputSchema call.input with
    | .ok _ => none
    | .error error => some error

/-- A refusal a hook's rewrite is to answer for. -/
def rewriteBlockedExecution (mixedModified : Bool) (call : ToolCall V)
    (descriptor : RuntimeToolDescriptor V) (reason : String) : CompletedToolExecution V :=
  if mixedModified then mixedHookBlockedExecution call descriptor reason
  else hookBlockedExecution call descriptor reason

def schemaRefusal (source : Option String) (mixedModified : Bool) (call : ToolCall V)
    (descriptor : RuntimeToolDescriptor V) (error : String) : CompletedToolExecution V :=
  match source with
  | some source =>
    rewriteBlockedExecution mixedModified call descriptor
      (source ++ " rewrote '" ++ call.name ++ "' into input that does not fit its schema: " ++
        error)
  | none => schemaViolationExecution call error

/-! ## The authorizer -/

def parallelToolContext (env : Env A V) (call : ToolCall V) :
    RoundM A V ParallelToolContext := do
  let path ← workingDirectory env
  let state ← get
  return { agentId := env.agentId, toolCallId := call.id, toolName := call.name,
           workingDirectory := path, agentName := env.agentName state.agent,
           model := env.model state.agent, historyLen := env.historyLen state.agent }

def handleAuthorizationBlock (env : Env A V) (call : ToolCall V)
    (outcome : ToolAuthorizationOutcome) (reason source : Option String) :
    RoundM A V (Option (ContentBlock V)) := do
  emitHook env (.toolAuthorizationFinished call outcome reason)
  emitHook env (.toolAuthorizationBlocked call outcome reason)
  return some (blockedAuthorizationResult call outcome reason source)

/-- What the authorizer's answer, or the lack of one, means for the call;
`none` lets it run. -/
def applyAuthorization (env : Env A V) (call : ToolCall V) (source : Option String) :
    AuthorizerAnswer RuntimeError → RoundM A V (Option (ContentBlock V))
  | .limited error => throw error
  | .timedOut timeout =>
    handleAuthorizationBlock env call .deny
      (some ("authorizer timed out after " ++ formatDuration timeout)) source
  | .answered (.error error) =>
    handleAuthorizationBlock env call .deny (some (error.display env.statusText)) source
  | .answered (.ok ⟨.allow, reason⟩) => do
      emitHook env (.toolAuthorizationFinished call .allow reason)
      return none
  | .answered (.ok ⟨outcome, reason⟩) => handleAuthorizationBlock env call outcome reason source

def authorizeToolCall (env : Env A V) (position : Nat) (call : ToolCall V)
    (tool : ResolvedTool A V) (context : ParallelToolContext)
    (executionCategory : ToolExecutionCategory) (source : Option String) :
    RoundM A V (Option (ContentBlock V)) := do
  match env.toolAuthorizer with
  | none => return none
  | some authorize =>
    match tool.handler.authorizationPreview context call.input with
    | .error error => return some (blockedAuthorizationResult call .deny (some error) source)
    | .ok built =>
      let preview := { built with executionCategory }
      emitHook env (.toolAuthorizationStarted call preview)
      let request : ToolAuthorizationRequest V :=
        { agentId := env.agentId, agentName := context.agentName, model := context.model,
          historyLen := context.historyLen, toolCallId := call.id, toolName := call.name,
          preview }
      checkLimits env
      let answer ← ask fun now => authorize now request
      record (.authorizer position request answer)
      applyAuthorization env call source answer

/-! ## Admission -/

/-- `admit_call` once the hooks let the call proceed. -/
def admitHooked (env : Env A V) (position : Nat) (call : ToolCall V) (tool : ResolvedTool A V)
    (executionCategory : ToolExecutionCategory) (source : Option String) (mixedModified : Bool)
    (participants : List (ExecutionHookParticipant V)) : RoundM A V (Admission V) := do
  match authorizationCategory tool call executionCategory source with
  | .error reason =>
    return .refused (rewriteBlockedExecution mixedModified call tool.descriptor reason)
  | .ok category =>
    match schemaViolation env call tool.descriptor with
    | some error =>
      return .refused (schemaRefusal source mixedModified call tool.descriptor error)
    | none =>
      let context ← parallelToolContext env call
      match ← authorizeToolCall env position call tool context category source with
      | some result =>
        return .refused (completedExecution call tool.descriptor result {} none)
      | none =>
        return .run context (if participants.isEmpty then none else some participants) source

/-- `admit_call`, with what it leaves in its `&mut call`: after an error, the call as the hooks
so far made it. -/
def admitCall (env : Env A V) (position : Nat) (call : ToolCall V) (tool : ResolvedTool A V)
    (executionCategory : ToolExecutionCategory) :
    RoundM A V (Except RuntimeError (Admission V) × ToolCall V) := do
  match ← Program.attempt (applyPreHooks env position call) with
  | .error error => return (.error error, call)
  | .ok (.refused reason) =>
    return (.ok (.refused (hookBlockedExecution call tool.descriptor reason)), call)
  | .ok (.proceed call legacyModified) =>
    let participants ← ask env.executionHooks
    record (.executionHooks position participants)
    match ← Program.attempt (applyMixedHooks env call participants) with
    | .error error => return (.error error, call)
    | .ok (.refused reason) =>
      return (.ok (.refused (mixedHookBlockedExecution call tool.descriptor reason)), call)
    | .ok (.proceed call mixedModified attribution) =>
      let admission ← Program.attempt (admitHooked env position call tool executionCategory
        (rewriteSource legacyModified mixedModified attribution) mixedModified participants)
      return (admission, call)

/-! ## What an admitted input has behind it -/

/-- The context describes the call. -/
structure Shows (context : PreExecutionContext) (call : ToolCall V) : Prop where
  toolName : context.toolName = call.name
  toolCallId : context.toolCallId = call.id
  inputJson : context.inputJson = SerdeJson.print call.input

/-- The chain was shown the call and leaves `output` of its input: the last rewrite, or the
input itself. -/
def Leaves {H : Type} (verdict : H → PreExecutionContext → Option (Option String))
    (hooks : List H) (call : ToolCall V) (output : V) : Prop :=
  ∃ context rewritten, Shows context call ∧ Threaded verdict hooks context rewritten ∧
    match rewritten with
    | none => output = call.input
    | some text => SerdeJson.fromStr text = .ok output

/-- The request is about the call, and its preview is the one the tool builds
for `input`, under the category the scheduler gives that input. -/
structure AsksAbout (tool : ResolvedTool A V) (call : ToolCall V) (input : V)
    (request : ToolAuthorizationRequest V) : Prop where
  toolCallId : request.toolCallId = call.id
  toolName : request.toolName = call.name
  preview : ∃ context built, tool.handler.authorizationPreview context input = .ok built ∧
    request.preview =
      { built with executionCategory := (executionCategoriesForSnapshot input tool).2 }

/-- The input admitted at `position` is what both hook chains left of the call's own, it fits
the tool's schema unless the tool checks its own, and the authorizer, if there is one, was asked
about this very input and allowed it. -/
structure Passed (env : Env A V) (tool : ResolvedTool A V) (position : Nat) (call : ToolCall V)
    (input : V) (events : List (Event V)) : Prop where
  hooked : ∃ hooks participants middle,
    .preHooks position hooks ∈ events ∧ Leaves preHookVerdict hooks call middle ∧
    .executionHooks position participants ∈ events ∧
    Leaves participantVerdict participants { call with input := middle } input
  fits : tool.descriptor.terminal = true ∨
    env.validateToolInput tool.descriptor.inputSchema input = .ok ()
  allowed : env.toolAuthorizer = none ∨ ∃ request reason,
    .authorizer position request (.answered (.ok ⟨.allow, reason⟩)) ∈ events ∧
    AsksAbout tool call input request

variable (env : Env A V) (call : ToolCall V)

omit [SerdeJson V] in
theorem Calm.parallelToolContext : Calm (Orchestrator.parallelToolContext env call) :=
  (Calm.workingDirectory env).bind fun _ start => .refl start

/-- What a chain made of a call. -/
structure Rewritten {H : Type} (verdict : H → PreExecutionContext → Option (Option String))
    (hooks : List H) (call next : ToolCall V) (modified : Bool) : Prop where
  id : next.id = call.id
  name : next.name = call.name
  leaves : Leaves verdict hooks call next.input
  untouched : modified = false → next.input = call.input

theorem preExecutionContext_spec (start : ToolRuntime A V) :
    Calmly (preExecutionContext env call) (fun context _ => Shows context call) start := by
  apply (Calm.workingDirectory env).then
  exact fun path middle quiet => ⟨.refl middle, rfl, rfl, rfl⟩

variable (position : Nat)

theorem runPreHooks_spec (call : ToolCall V) (start : ToolRuntime A V) :
    Calmly (runPreHooks env position call)
      (fun decision final => ∃ hooks context,
        .preHooks position hooks ∈ final.trace ∧ Shows context call ∧
        ∀ result, decision.verdict = some result → Threaded preHookVerdict hooks context result)
      start := by
  apply (Calm.ask _).then
  intro hooks asked _
  apply (Calmly.record rfl).bind
  intro _ noted _ recorded
  apply (preExecutionContext_spec env call noted).bind
  intro context shown quiet shows
  apply (Calmly.lift _).mono
  intro decision final same ran
  refine ⟨hooks, context, (quiet.trans same).mem_trace recorded, shows, ?_⟩
  intro result proceeds
  obtain ⟨rewritten, threaded, last⟩ := PreExecutionHookSnapshot.runLoop_threaded rfl ran proceeds
  rw [last, Option.or_none]
  exact threaded

theorem applyPreHooks_spec (call : ToolCall V) (start : ToolRuntime A V) :
    Calmly (applyPreHooks env position call)
      (fun outcome final => ∀ next modified, outcome = .proceed next modified →
        ∃ hooks, .preHooks position hooks ∈ final.trace ∧
          Rewritten preHookVerdict hooks call next modified) start := by
  apply (runPreHooks_spec env position call start).bind
  rintro decision middle - ⟨hooks, context, recorded, shows, threaded⟩
  cases decision with
  | allow =>
    refine ⟨.refl middle, ?_⟩
    rintro next modified ⟨⟩
    exact ⟨hooks, recorded, rfl, rfl, ⟨context, none, shows, threaded none rfl, rfl⟩, fun _ => rfl⟩
  | deny reason => exact ⟨.refl middle, nofun⟩
  | modify inputJson reason =>
    cases parsed : (SerdeJson.fromStr inputJson : Except String V) with
    | error error =>
      simp only [parsed]
      exact ⟨.refl middle, nofun⟩
    | ok input =>
      simp only [parsed]
      refine ⟨.refl middle, ?_⟩
      rintro next modified ⟨⟩
      exact ⟨hooks, recorded, rfl, rfl,
        ⟨context, some inputJson, shows, threaded (some inputJson) rfl, parsed⟩, nofun⟩

theorem applyMixedHooks_spec
    (participants : List (ExecutionHookParticipant V)) (start : ToolRuntime A V) :
    Calmly (applyMixedHooks env call participants)
      (fun outcome _ => ∀ next modified attribution,
        outcome = .proceed next modified attribution →
          Rewritten participantVerdict participants call next modified) start := by
  unfold applyMixedHooks
  split
  · rename_i nobody
    refine ⟨.refl start, ?_⟩
    rintro next modified attribution ⟨⟩
    rw [List.isEmpty_iff] at nobody
    let context : PreExecutionContext := ⟨"", call.name, call.id, SerdeJson.print call.input, ""⟩
    refine ⟨rfl, rfl, ⟨context, none, ⟨rfl, rfl, rfl⟩, ?_, rfl⟩, fun _ => rfl⟩
    rw [nobody]
    exact .nil context
  · apply (preExecutionContext_spec env call start).bind
    intro context shown _ shows
    apply (Calmly.lift _).bind
    intro decision middle _ ran
    have threaded : ∀ result, decision.verdict = some result →
        Threaded participantVerdict participants context result := by
      intro result proceeds
      obtain ⟨rewritten, threads, last⟩ := ExecutionHookSnapshot.beforeLoop_threaded ran proceeds
      rw [last]
      exact threads
    cases decision with
    | «continue» =>
      refine ⟨.refl middle, ?_⟩
      rintro next modified attribution ⟨⟩
      exact ⟨rfl, rfl, ⟨context, none, shows, threaded none rfl, rfl⟩, fun _ => rfl⟩
    | deny reason => exact ⟨.refl middle, nofun⟩
    | modify inputJson attribution =>
      cases parsed : (SerdeJson.fromStr inputJson : Except String V) with
      | error error =>
        simp only [parsed]
        exact ⟨.refl middle, nofun⟩
      | ok input =>
        simp only [parsed]
        refine ⟨.refl middle, ?_⟩
        rintro next modified attribution ⟨⟩
        exact ⟨rfl, rfl,
          ⟨context, some inputJson, shows, threaded (some inputJson) rfl, parsed⟩, nofun⟩

omit [SerdeJson V] in
theorem handleAuthorizationBlock_spec (outcome : ToolAuthorizationOutcome)
    (reason source : Option String) (start : ToolRuntime A V) :
    Calmly (handleAuthorizationBlock env call outcome reason source)
      (fun result _ => ∃ block, result = some block ∧ block.toolResultId? = some call.id)
      start := by
  apply (Calm.emitHook env _).then
  intro _ noted _
  apply (Calm.emitHook env _).then
  exact fun _ blocked _ => ⟨.refl blocked, _, rfl, rfl⟩

omit [SerdeJson V] in
theorem applyAuthorization_spec (source : Option String)
    (answer : AuthorizerAnswer RuntimeError) (start : ToolRuntime A V) :
    Calmly (applyAuthorization env call source answer)
      (fun result _ => (∀ block, result = some block → block.toolResultId? = some call.id) ∧
        (result = none → ∃ reason, answer = .answered (.ok ⟨.allow, reason⟩))) start := by
  have blocked : ∀ outcome reason, Calmly
      (handleAuthorizationBlock env call outcome reason source)
      (fun result _ => (∀ block, result = some block → block.toolResultId? = some call.id) ∧
        (result = none → ∃ reason, answer = .answered (.ok ⟨.allow, reason⟩))) start := by
    intro outcome reason
    apply (handleAuthorizationBlock_spec env call outcome reason source start).mono
    rintro _ final - ⟨block, rfl, answers⟩
    refine ⟨?_, nofun⟩
    rintro other ⟨⟩
    exact answers
  cases answer with
  | limited error => exact Still.refl start
  | timedOut timeout => exact blocked _ _
  | answered result =>
    cases result with
    | error error => exact blocked _ _
    | ok decision =>
      obtain ⟨outcome, reason⟩ := decision
      cases outcome with
      | allow =>
        apply (Calm.emitHook env _).then
        exact fun _ final _ => ⟨.refl final, nofun, fun _ => ⟨reason, rfl⟩⟩
      | prompt | deny => exact blocked _ _

omit [SerdeJson V] in
theorem authorizeToolCall_spec (call : ToolCall V)
    (tool : ResolvedTool A V) (context : ParallelToolContext) (category : ToolExecutionCategory)
    (source : Option String) (start : ToolRuntime A V) :
    Calmly (authorizeToolCall env position call tool context category source)
      (fun result final => (∀ block, result = some block → block.toolResultId? = some call.id) ∧
        (result = none → env.toolAuthorizer = none ∨ ∃ request reason built,
          .authorizer position request (.answered (.ok ⟨.allow, reason⟩)) ∈ final.trace ∧
          request.toolCallId = call.id ∧ request.toolName = call.name ∧
          tool.handler.authorizationPreview context call.input = .ok built ∧
          request.preview = { built with executionCategory := category })) start := by
  unfold authorizeToolCall
  cases installed : env.toolAuthorizer with
  | none => exact ⟨.refl start, nofun, fun _ => .inl rfl⟩
  | some authorize =>
    cases previewed : tool.handler.authorizationPreview context call.input with
    | error error =>
      refine ⟨.refl start, ?_, nofun⟩
      rintro block ⟨⟩
      rfl
    | ok built =>
      apply (Calm.emitHook env _).then
      intro _ announced _
      apply (Calm.checkLimits env).then
      intro _ checked _
      apply (Calm.ask _).then
      intro answer asked _
      -- from here on the question and its answer are on the trace
      apply (Calmly.record rfl).bind
      intro _ noted _ recorded
      apply (applyAuthorization_spec env call source answer noted).mono
      rintro result final quiet ⟨answers, allowed⟩
      refine ⟨answers, fun runs => ?_⟩
      obtain ⟨reason, rfl⟩ := allowed runs
      exact .inr ⟨_, reason, built, quiet.mem_trace recorded, rfl, rfl, rfl, rfl⟩

/-! ## The admission pipeline -/

/-- An execution that answers the call and does not terminate the round. -/
structure Answers (call : ToolCall V) (execution : CompletedToolExecution V) : Prop where
  id : execution.result.toolResultId? = some call.id
  goesOn : execution.terminated = false

theorem answers_rewriteBlockedExecution (mixedModified : Bool) (call : ToolCall V)
    (descriptor : RuntimeToolDescriptor V) (reason : String) :
    Answers call (rewriteBlockedExecution mixedModified call descriptor reason) := by
  cases mixedModified with
  | true | false => exact ⟨rfl, rfl⟩

omit [SerdeJson V] in
/-- The category the authorizer is told is the scheduler's for the input that
will run, and a call of the parallel lane stays in it. -/
theorem authorizationCategory_eq_ok {tool : ResolvedTool A V} {call : ToolCall V}
    {executionCategory category : ToolExecutionCategory} {source : Option String}
    (current : source = none →
      executionCategory = (executionCategoriesForSnapshot call.input tool).2)
    (classified : authorizationCategory tool call executionCategory source = .ok category) :
    category = (executionCategoriesForSnapshot call.input tool).2 ∧
      (executionCategory.allowsParallel = true → category.allowsParallel = true) := by
  cases source with
  | none =>
    cases classified
    exact ⟨current rfl, id⟩
  | some source =>
    simp only [authorizationCategory] at classified
    split at classified
    · cases classified
    · rename_i stays
      cases classified
      refine ⟨rfl, ?_⟩
      intro parallel
      simpa [parallel] using stays

omit [SerdeJson V] in
theorem schemaViolation_eq_none {env : Env A V} {call : ToolCall V}
    {descriptor : RuntimeToolDescriptor V} (fits : schemaViolation env call descriptor = none) :
    descriptor.terminal = true ∨
      env.validateToolInput descriptor.inputSchema call.input = .ok () := by
  unfold schemaViolation at fits
  split at fits
  · rename_i terminal
    exact .inl terminal
  · split at fits
    · rename_i valid
      exact .inr valid
    · cases fits

theorem admitHooked_spec (call : ToolCall V) (tool : ResolvedTool A V)
    (executionCategory : ToolExecutionCategory) (source : Option String) (mixedModified : Bool)
    (participants : List (ExecutionHookParticipant V))
    (current : source = none →
      executionCategory = (executionCategoriesForSnapshot call.input tool).2)
    (start : ToolRuntime A V) :
    Calmly
      (admitHooked env position call tool executionCategory source mixedModified participants)
      (fun admission final =>
        (∀ execution, admission = .refused execution → Answers call execution) ∧
        ∀ context hooks rewriteSource, admission = .run context hooks rewriteSource →
          (tool.descriptor.terminal = true ∨
            env.validateToolInput tool.descriptor.inputSchema call.input = .ok ()) ∧
          (env.toolAuthorizer = none ∨ ∃ request reason,
            .authorizer position request (.answered (.ok ⟨.allow, reason⟩)) ∈ final.trace ∧
            AsksAbout tool call call.input request) ∧
          (executionCategory.allowsParallel = true →
            (executionCategoriesForSnapshot call.input tool).2.allowsParallel = true)) start := by
  unfold admitHooked
  cases classified : authorizationCategory tool call executionCategory source with
  | error reason =>
    refine ⟨.refl start, ?_, nofun⟩
    rintro execution ⟨⟩
    exact answers_rewriteBlockedExecution mixedModified call tool.descriptor reason
  | ok category =>
    obtain ⟨rfl, stays⟩ := authorizationCategory_eq_ok current classified
    cases shape : schemaViolation env call tool.descriptor with
    | some error =>
      refine ⟨.refl start, ?_, nofun⟩
      rintro execution ⟨⟩
      cases source with
      | none => exact ⟨rfl, rfl⟩
      | some source => exact answers_rewriteBlockedExecution mixedModified call _ _
    | none =>
      have fits := schemaViolation_eq_none shape
      apply (Calm.parallelToolContext env call).then
      intro context middle _
      apply (authorizeToolCall_spec env position call tool context _ source middle).bind
      rintro result final - ⟨answers, allowed⟩
      cases result with
      | some block =>
        refine ⟨.refl final, ?_, nofun⟩
        rintro execution ⟨⟩
        exact ⟨answers block rfl, rfl⟩
      | none =>
        refine ⟨.refl final, fun _ ran => (by cases ran), fun _ _ _ _ => ⟨fits, ?_, stays⟩⟩
        rcases allowed rfl with nobody |
          ⟨request, reason, built, onTrace, id, name, previewed, preview⟩
        · exact .inl nobody
        · exact .inr ⟨request, reason, onTrace, id, name, context, built, previewed, preview⟩

/-- No handler ran, a refusal answers the call, and an admitted input has passed everything and,
when the call was scheduled for the parallel lane, still belongs there. -/
structure Admits (env : Env A V) (tool : ResolvedTool A V) (position : Nat) (call : ToolCall V)
    (executionCategory : ToolExecutionCategory) (start : ToolRuntime A V)
    (admission : Except RuntimeError (Admission V)) (next : ToolCall V)
    (final : ToolRuntime A V) : Prop where
  quiet : Quiet start final
  id : next.id = call.id
  refused : ∀ execution, admission = .ok (.refused execution) → Answers call execution
  run : ∀ context hooks source, admission = .ok (.run context hooks source) →
    Passed env tool position call next.input final.trace ∧
      (executionCategory.allowsParallel = true →
        (executionCategoriesForSnapshot next.input tool).2.allowsParallel = true)

namespace Admits

variable {env : Env A V} {tool : ResolvedTool A V} {position : Nat} {call next : ToolCall V}
  {executionCategory : ToolExecutionCategory} {start final : ToolRuntime A V}

theorem of_error (quiet : Quiet start final) (id : next.id = call.id) (error : RuntimeError) :
    Admits env tool position call executionCategory start (.error error) next final :=
  ⟨quiet, id, fun _ ran => (by cases ran), nofun⟩

theorem of_refused (quiet : Quiet start final) (id : next.id = call.id)
    {execution : CompletedToolExecution V} (answers : Answers call execution) :
    Admits env tool position call executionCategory start (.ok (.refused execution)) next
      final := by
  refine ⟨quiet, id, ?_, nofun⟩
  rintro other ⟨⟩
  exact answers

end Admits

omit [SerdeJson V] in
theorem rewriteSource_eq_none {legacyModified mixedModified : Bool} {attribution : Option String}
    (nobody : rewriteSource legacyModified mixedModified attribution = none) :
    legacyModified = false ∧ mixedModified = false := by
  cases mixedModified with
  | true => cases nobody
  | false =>
    cases legacyModified with
    | true => cases nobody
    | false => exact ⟨rfl, rfl⟩

theorem admitCall_spec (call : ToolCall V)
    (tool : ResolvedTool A V) (executionCategory : ToolExecutionCategory)
    (scheduled : executionCategory = (executionCategoriesForSnapshot call.input tool).2)
    (start : ToolRuntime A V) :
    Calmly (admitCall env position call tool executionCategory)
      (fun admitted => Admits env tool position call executionCategory start admitted.1 admitted.2)
      start := by
  rw [Calmly, Moves, admitCall, ensures_bind, ensures_attempt]
  apply (applyPreHooks_spec env position call start).weaken
  · rintro outcome hooked ⟨still, legacy⟩
    cases outcome with
    | refused reason => exact ⟨still, .of_refused still.toQuiet rfl ⟨rfl, rfl⟩⟩
    | proceed next legacyModified =>
      obtain ⟨hooks, hooksRecorded, left⟩ := legacy next legacyModified rfl
      simp only [ensures_bind, ensures_ask, ensures_record]
      have recorded : Still start { hooked with
          clock := hooked.clock + 1
          trace := Event.executionHooks position (env.executionHooks hooked.clock) ::
            hooked.trace } :=
        still.trans ⟨⟨rfl, [_], rfl, by simp [Event.handlerPosition?]⟩, rfl⟩
      rw [ensures_attempt]
      apply (applyMixedHooks_spec env next _ _).weaken
      · rintro outcome mixed ⟨moved, rewrites⟩
        have still := recorded.trans moved
        cases outcome with
        | refused reason =>
          exact ⟨still, .of_refused still.toQuiet left.id ⟨congrArg some left.id, rfl⟩⟩
        | proceed last mixedModified attribution =>
          have right := rewrites last mixedModified attribution rfl
          have sameCall : { call with input := next.input } = next := by
            rw [← left.id, ← left.name]
          have id : last.id = call.id := right.id.trans left.id
          have name : last.name = call.name := right.name.trans left.name
          have current : rewriteSource legacyModified mixedModified attribution = none →
              executionCategory = (executionCategoriesForSnapshot last.input tool).2 := by
            intro nobody
            obtain ⟨legacyKept, mixedKept⟩ := rewriteSource_eq_none nobody
            rw [right.untouched mixedKept, left.untouched legacyKept]
            exact scheduled
          rw [ensures_bind, ensures_attempt]
          apply (admitHooked_spec env position last tool executionCategory _ mixedModified _
            current mixed).weaken
          · rintro admission final ⟨asked, refused, run⟩
            have still := still.trans asked
            refine ⟨still, still.toQuiet, id, ?_, ?_⟩
            · rintro execution ⟨⟩
              obtain ⟨answers, goesOn⟩ := refused execution rfl
              exact ⟨answers.trans (congrArg some id), goesOn⟩
            · rintro context participants source ⟨⟩
              obtain ⟨fits, allowed, stays⟩ := run context participants source rfl
              refine ⟨⟨?_, fits, ?_⟩, stays⟩
              · refine ⟨hooks, _, next.input, ?_, left.leaves, ?_, sameCall ▸ right.leaves⟩
                · exact (moved.trans asked).mem_trace (List.mem_cons_of_mem _ hooksRecorded)
                · exact (moved.trans asked).mem_trace List.mem_cons_self
              · rcases allowed with nobody | ⟨request, reason, onTrace, asks⟩
                · exact .inl nobody
                · exact .inr ⟨request, reason, onTrace, asks.toolCallId.trans id,
                    asks.toolName.trans name, asks.preview⟩
          · intro error final asked
            have still := still.trans asked
            exact ⟨still, .of_error still.toQuiet id error⟩
      · intro error final moved
        have still := recorded.trans moved
        exact ⟨still, .of_error still.toQuiet left.id error⟩
  · exact fun error final still => ⟨still, .of_error still.toQuiet rfl error⟩

end Mentra.Orchestrator

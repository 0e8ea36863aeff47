import Mentra.Orchestrator.Round

/-!
# What a round does to its agent

A round changes its agent only when a call is noted, when an exclusive handler runs, when the
idle request is taken and when a result is paged.  A relation that these four keep, and that
composes, holds between the agent before a round and after it.
-/

namespace Mentra.Orchestrator

open Foundation
open Foundation.Program (Along)

variable {A V : Type}

/-- The agent's own operations and the handlers of its tools go along
`Moves`. -/
structure Env.Keeps (env : Env A V) (Moves : A → A → Prop) : Prop where
  refl : ∀ agent, Moves agent agent
  trans : ∀ first second third, Moves first second → Moves second third → Moves first third
  noteToolStarted : ∀ now call agent, Moves agent (env.noteToolStarted now call agent).2
  takeIdleRequested : ∀ agent, Moves agent (env.takeIdleRequested agent).2
  recordPagedToolResult : ∀ toolUseId text agent,
    Moves agent (env.recordPagedToolResult toolUseId text agent)
  executeMutOutput : ∀ agent name tool, env.resolveTool agent name = .visible tool →
    ∀ now context input other, Moves other (tool.handler.executeMutOutput now context input other).2

/-- A program that moves the agent along `Moves`, however it ends. -/
abbrev Moving {α : Type} (Moves : A → A → Prop) (program : RoundM A V α) : Prop :=
  Along (fun start final => Moves start.agent final.agent) program

namespace Env.Keeps

variable {env : Env A V} {Moves : A → A → Prop} {α β : Type}

/-! ## Building blocks -/

section

variable (keeps : env.Keeps Moves)
include keeps

theorem pure (value : α) : Moving Moves (Pure.pure value : RoundM A V α) :=
  Along.pure (fun state => keeps.refl state.agent) value

theorem throw (error : RuntimeError) : Moving Moves (MonadExcept.throw error : RoundM A V α) :=
  Along.throw (fun state => keeps.refl state.agent) error

theorem lift (result : Except RuntimeError α) : Moving Moves (Program.lift result : RoundM A V α) :=
  Along.lift (fun state => keeps.refl state.agent) result

theorem bind {first : RoundM A V α} {rest : α → RoundM A V β}
    (moves : Moving Moves first) (goesOn : ∀ value, Moving Moves (rest value)) :
    Moving Moves (first >>= rest) :=
  Along.bind (R := fun start final : ToolRuntime A V => Moves start.agent final.agent)
    (fun _ _ _ => keeps.trans _ _ _) moves goesOn

theorem ask (question : Nat → α) : Moving Moves (Orchestrator.ask question : RoundM A V α) :=
  fun start => keeps.refl start.agent

theorem record (event : Event V) : Moving Moves (Orchestrator.record event : RoundM A V PUnit) :=
  fun start => keeps.refl start.agent

theorem get : Moving Moves (MonadState.get : RoundM A V (ToolRuntime A V)) :=
  fun start => keeps.refl start.agent

end

theorem onAgent {operation : Nat → A → α × A}
    (moves : ∀ now agent, Moves agent (operation now agent).2) :
    Moving Moves (Orchestrator.onAgent operation : RoundM A V α) :=
  fun start => moves start.clock start.agent

section

variable (keeps : env.Keeps Moves)
include keeps

/-- What keeps still moves the agent nowhere. -/
theorem calm {program : RoundM A V α} (calm : Calm program) : Moving Moves program :=
  Along.mono calm fun start _ still => still.agent ▸ keeps.refl start.agent

theorem calmly {program : RoundM A V α} {post : ToolRuntime A V → α → ToolRuntime A V → Prop}
    (calmly : ∀ start, Calmly program (post start) start) : Moving Moves program :=
  keeps.calm fun start => (calmly start).weaken (fun _ _ both => both.1) fun _ _ still => still

theorem noteStarted (call : ToolCall V) : Moving Moves (Orchestrator.noteToolStarted env call) :=
  keeps.bind (onAgent fun now agent => keeps.noteToolStarted now call agent) keeps.lift

end

/-! ## The lanes -/

/-- The handler of a scheduled tool goes along `Moves`. -/
def HandlerMoves (Moves : A → A → Prop) : ScheduledTool A V → Prop
  | .resolved tool => ∀ now context input agent,
      Moves agent (tool.handler.executeMutOutput now context input agent).2
  | _ => True

section Lanes

variable [SerdeJson V]

section

variable (keeps : env.Keeps Moves)
include keeps

theorem executeOneTool (scheduled : ScheduledToolCall A V)
    (handler : HandlerMoves Moves scheduled.tool) :
    Moving Moves (Orchestrator.executeOneTool env scheduled) := by
  refine keeps.bind (keeps.noteStarted scheduled.call) fun _ => ?_
  cases resolved : scheduled.tool with
  | unavailable | missing => exact keeps.pure _
  | resolved tool =>
    rw [resolved] at handler
    have admits := admitCall_spec env scheduled.position scheduled.call tool _
      (scheduled.classified tool resolved)
    refine keeps.bind (keeps.calmly admits) fun admitted => ?_
    rcases admitted with ⟨error | ⟨context, executionHooks, source⟩ | execution, call⟩
    · exact keeps.pure _
    · refine keeps.bind (keeps.calm (.emitHook env _)).attempt fun started => ?_
      cases started with
      | error error => exact keeps.pure _
      | ok _ =>
        refine keeps.bind (onAgent fun now agent => handler now context _ agent) fun answer => ?_
        refine keeps.bind (keeps.record _) fun _ => ?_
        refine keeps.bind (keeps.calmly (toolOutputBlock_spec env call _ source)) fun block => ?_
        exact keeps.bind (onAgent fun _ agent => keeps.takeIdleRequested agent) fun _ =>
          keeps.pure _
    · exact keeps.pure _

theorem startParallelCall (index : Nat) (scheduled : ScheduledToolCall A V) :
    Moving Moves (Orchestrator.startParallelCall env index scheduled) := by
  refine keeps.bind (keeps.noteStarted scheduled.call) fun _ => ?_
  cases resolved : scheduled.tool with
  | unavailable | missing => exact keeps.pure _
  | resolved tool =>
    have admits := admitCall_spec env scheduled.position scheduled.call tool _
      (scheduled.classified tool resolved)
    refine keeps.bind (keeps.calmly admits) fun admitted => ?_
    rcases admitted with ⟨error | ⟨context, executionHooks, source⟩ | execution, call⟩
    · exact keeps.throw _
    · refine keeps.bind (keeps.calm (.emitHook env _)).attempt fun started => ?_
      cases started with
      | error error => exact keeps.pure _
      | ok _ =>
        refine keeps.bind (keeps.ask _) fun answer => ?_
        exact keeps.bind (keeps.record _) fun _ => keeps.pure _
    · exact keeps.pure _

theorem startParallelCalls (index : Nat)
    (calls : List (ScheduledToolCall A V)) (batch : ParallelBatch V) :
    Moving Moves (Orchestrator.startParallelCalls env index calls batch) := by
  induction calls generalizing index batch with
  | nil => exact keeps.pure _
  | cons scheduled rest ih =>
    exact keeps.bind (keeps.startParallelCall index scheduled) fun started => ih _ _

theorem joinTasks (rounds : Nat) (batch : ParallelBatch V) :
    Moving Moves (Orchestrator.joinTasks env rounds batch) := by
  induction rounds generalizing batch with
  | zero => exact keeps.pure _
  | succ rounds ih =>
    unfold Orchestrator.joinTasks
    split
    · exact keeps.pure _
    · refine keeps.bind (keeps.ask _) fun next => ?_
      refine keeps.bind (keeps.calm (.pollLimits env next.polls)) fun _ => ?_
      split
      · exact keeps.throw _
      · exact keeps.bind (keeps.calmly (finishParallelTask_spec env _)) fun _ => ih _

theorem executeBatch (batch : ToolCallBatch A V)
    (handlers : ∀ scheduled ∈ batch.scheduledCalls, HandlerMoves Moves scheduled.tool) :
    Moving Moves (Orchestrator.executeBatch env batch) := by
  cases batch with
  | exclusive call =>
    exact keeps.bind (keeps.executeOneTool call (handlers call List.mem_cons_self)) fun _ =>
      keeps.pure _
  | parallel calls =>
    refine keeps.bind (keeps.startParallelCalls 0 calls _) fun started => ?_
    refine keeps.bind (keeps.joinTasks _ started) fun joined => ?_
    exact keeps.bind (keeps.calm (.checkLimits env)) fun _ => keeps.lift _

end

end Lanes

/-! ## The round -/

section

variable (keeps : env.Keeps Moves)
include keeps

theorem pageResult (toolName : String) (result : ContentBlock V) :
    Moving Moves (Orchestrator.pageResult env toolName result) := by
  unfold Orchestrator.pageResult
  split
  · exact keeps.pure _
  · split
    · exact keeps.pure _
    · split
      · split
        · exact keeps.pure _
        · exact keeps.bind (onAgent fun _ agent => keeps.recordPagedToolResult _ _ agent) fun _ =>
            keeps.pure _
      · exact keeps.pure _

theorem settleExecutions (executions : List (CompletedToolExecution V))
    (tally : RoundTally V) (terminator : Option String) :
    Moving Moves (Orchestrator.settleExecutions env executions tally terminator) := by
  induction executions generalizing tally terminator with
  | nil => exact keeps.pure _
  | cons execution rest ih =>
    refine keeps.bind (keeps.calmly (reviewResult_spec env _ _ execution.result _))
      fun reviewed => ?_
    exact keeps.bind (keeps.pageResult _ reviewed) fun result => ih _ _

theorem skipCalls (terminator : String) (calls : List (ToolCall V)) :
    Moving Moves (Orchestrator.skipCalls env terminator calls) := by
  induction calls with
  | nil => exact keeps.pure _
  | cons call calls ih =>
    refine keeps.bind (keeps.pageResult call.name _) fun result => ?_
    exact keeps.bind ih fun results => keeps.pure _

theorem chargeToolCalls (executionCount : Nat) :
    Moving Moves (Orchestrator.chargeToolCalls env executionCount) := by
  refine keeps.bind keeps.get fun state => ?_
  split
  · exact keeps.throw _
  · exact fun start => keeps.refl start.agent

end

variable [SerdeJson V]

theorem executeBatches (keeps : env.Keeps Moves) (batches : List (ToolCallBatch A V))
    (handlers : ∀ scheduled ∈ batches.flatMap ToolCallBatch.scheduledCalls,
      HandlerMoves Moves scheduled.tool) (tally : RoundTally V) :
    Moving Moves (Orchestrator.executeBatches env batches tally) := by
  induction batches generalizing tally with
  | nil => exact keeps.pure _
  | cons batch batches ih =>
    refine keeps.bind (keeps.calm (.checkLimits env)) fun _ => ?_
    refine keeps.bind (keeps.chargeToolCalls _) fun _ => ?_
    refine keeps.bind (keeps.executeBatch batch fun scheduled mem =>
      handlers scheduled (List.mem_append_left _ mem)) fun executions => ?_
    refine keeps.bind (keeps.settleExecutions executions tally none) ?_
    rintro ⟨tally, terminator⟩
    cases terminator with
    | some terminator => exact keeps.bind (keeps.skipCalls terminator _) fun _ => keeps.pure _
    | none => exact ih (fun scheduled mem => handlers scheduled (List.mem_append_right _ mem)) tally

/-- A round moves its agent along every relation the agent's operations and
tools keep. -/
theorem executeCalls (keeps : env.Keeps Moves) (calls : List (ToolCall V)) :
    Moving Moves (Orchestrator.executeCalls env calls) := by
  have started : Moving Moves (modify fun state => { state with trace := [] } : RoundM A V PUnit) :=
    fun start => keeps.refl start.agent
  refine keeps.bind started fun _ => keeps.bind keeps.get fun state => ?_
  refine keeps.bind (keeps.executeBatches _ ?_ {}) fun tally => keeps.pure _
  intro scheduled mem
  rw [toolCallSchedule, scheduledCalls_scheduleLoop, List.nil_append] at mem
  obtain ⟨offset, call, -, rfl⟩ := mem_scheduleAll mem
  cases resolved : (scheduleCall env state.agent (0 + offset) call).tool with
  | resolved tool =>
    exact keeps.executeMutOutput state.agent call.name tool (scheduleCall_resolved resolved)
  | unavailable | missing => trivial

end Env.Keeps

end Mentra.Orchestrator

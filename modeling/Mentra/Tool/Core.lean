import Mentra.Message.Core

/-!
# Tools and their authorization

Tool descriptors, calls, outputs and the authorizer's request of
`mentra/src/tool/{descriptor,model,authorization}.rs`.  A tool handler, like every component a
host installs, is a record of its answers; those that may change between two questions take
the moment they are asked at.
-/

namespace Mentra

/-- What a tool can touch. -/
inductive ToolCapability
  | readOnly
  | filesystemRead
  | filesystemWrite
  | processExec
  | backgroundExec
  | taskMutation
  | teamCoordination
  | delegation
  | contextCompaction
  | skillLoad
  | custom (name : String)
  deriving DecidableEq

/-- How much side effect a tool may have when executed. -/
inductive ToolSideEffectLevel
  | none
  | localState
  | process
  | external

/-- Whether a tool call is safe to replay or persist. -/
inductive ToolDurability
  | ephemeral
  | persistent
  | replaySafe

/-- Which scheduler lane a tool call belongs to. -/
inductive ToolExecutionCategory
  | readOnlyParallel
  | exclusiveLocalMutation
  | exclusivePersistentMutation
  | backgroundJob
  | delegation

namespace ToolExecutionCategory

def allowsParallel : ToolExecutionCategory → Bool
  | readOnlyParallel => true
  | _ => false

/-- The derived `Debug` text. -/
def debug : ToolExecutionCategory → String
  | readOnlyParallel => "ReadOnlyParallel"
  | exclusiveLocalMutation => "ExclusiveLocalMutation"
  | exclusivePersistentMutation => "ExclusivePersistentMutation"
  | backgroundJob => "BackgroundJob"
  | delegation => "Delegation"

end ToolExecutionCategory

/-- Coarse authorization grouping for policy and review systems. -/
inductive ToolApprovalCategory
  | default
  | readOnly
  | filesystem
  | process
  | background
  | delegation

/-- Runtime-facing descriptor of a tool; durations are in nanoseconds. -/
structure RuntimeToolDescriptor (V : Type) where
  inputSchema : V
  capabilities : List ToolCapability := []
  sideEffectLevel : ToolSideEffectLevel := .none
  durability : ToolDurability := .ephemeral
  executionCategory : ToolExecutionCategory := .exclusiveLocalMutation
  approvalCategory : ToolApprovalCategory := .default
  executionTimeout : Option Nat := none
  terminal : Bool := false

/-- A call the model asked for. -/
structure ToolCall (V : Type) where
  id : String
  name : String
  input : V

/-- A structured tool outcome. -/
structure ToolOutput (V : Type) where
  content : ToolResultContent V
  details : Option V := none
  terminate : Bool := false
  images : List ImageSource := []

/-- What a tool is told about the call it is asked about. -/
structure ParallelToolContext where
  agentId : String
  toolCallId : String
  toolName : String
  workingDirectory : String
  agentName : String
  model : String
  historyLen : Nat

/-- What the authorizer is shown of a call. -/
structure ToolAuthorizationPreview (V : Type) where
  workingDirectory : String
  capabilities : List ToolCapability
  sideEffectLevel : ToolSideEffectLevel
  durability : ToolDurability
  executionCategory : ToolExecutionCategory
  approvalCategory : ToolApprovalCategory
  rawInput : V
  structuredInput : V

inductive ToolAuthorizationOutcome
  | allow
  | prompt
  | deny

structure ToolAuthorizationDecision where
  outcome : ToolAuthorizationOutcome
  reason : Option String

structure ToolAuthorizationRequest (V : Type) where
  agentId : String
  agentName : String
  model : String
  historyLen : Nat
  toolCallId : String
  toolName : String
  preview : ToolAuthorizationPreview V

/-- What a handler did: its own answer, and whether that answer came later than
the descriptor's timeout. -/
structure HandlerAnswer (V : Type) where
  late : Bool := false
  output : Except String (ToolOutput V)

/-- A tool of an agent with state `A`.  Only the exclusive lane hands a tool
the agent. -/
structure ExecutableTool (A V : Type) where
  executionCategory : V → ToolExecutionCategory
  authorizationPreview : ParallelToolContext → V → Except String (ToolAuthorizationPreview V)
  executeOutput : Nat → ParallelToolContext → V → HandlerAnswer V
  executeMutOutput : Nat → ParallelToolContext → V → A → HandlerAnswer V × A

namespace ExecutableTool

variable {A V : Type}

/-- The preview and category a tool has when it overrides neither. -/
def ofDescriptor (descriptor : RuntimeToolDescriptor V)
    (executeOutput : Nat → ParallelToolContext → V → HandlerAnswer V)
    (executeMutOutput : Nat → ParallelToolContext → V → A → HandlerAnswer V × A) :
    ExecutableTool A V where
  executionCategory _ := descriptor.executionCategory
  authorizationPreview context input := .ok
    { workingDirectory := context.workingDirectory
      capabilities := descriptor.capabilities
      sideEffectLevel := descriptor.sideEffectLevel
      durability := descriptor.durability
      executionCategory := descriptor.executionCategory
      approvalCategory := descriptor.approvalCategory
      rawInput := input
      structuredInput := input }
  executeOutput := executeOutput
  executeMutOutput := executeMutOutput

end ExecutableTool

/-- A tool and its descriptor as the agent resolved them for one call. -/
structure ResolvedTool (A V : Type) where
  descriptor : RuntimeToolDescriptor V
  handler : ExecutableTool A V

/-- What an agent's tool set says to a name. -/
inductive ToolResolution (A V : Type)
  | visible (tool : ResolvedTool A V)
  | hidden
  | missing

/-- How waiting for the authorizer ended: it answered, its timeout ran out, or
a hard limit of the run was reached first. -/
inductive AuthorizerAnswer (E : Type)
  | answered (result : Except E ToolAuthorizationDecision)
  | timedOut (timeout : Nat)
  | limited (error : E)

/-- `format_duration`, for a duration in nanoseconds. -/
def formatDuration (duration : Nat) : String :=
  if duration / 1000000000 > 0 ∧ duration % 1000000000 = 0 then
    toString (duration / 1000000000) ++ "s"
  else if duration / 1000000 > 0 then toString (duration / 1000000) ++ "ms"
  else if duration / 1000 > 0 then toString (duration / 1000) ++ "us"
  else toString duration ++ "ns"

/-- `execute_tool_future`: an answer that comes after the timeout is lost. -/
def executeToolFuture {V : Type} (toolName : String) (executionTimeout : Option Nat)
    (answer : HandlerAnswer V) : Except String (ToolOutput V) :=
  match executionTimeout with
  | some timeout =>
    if answer.late then
      .error ("Tool '" ++ toolName ++ "' timed out after " ++ formatDuration timeout)
    else answer.output
  | none => answer.output

end Mentra

import Mentra.Compaction.Core
import Mentra.Foundation.OrderedMap
import Mentra.Journal.Core
import Mentra.Provider.Stream
import Mentra.Tool.Core

/-!
# The assistant turn being streamed

Model of `mentra/src/agent/{pending,pending_block}.rs`: a turn is put together
from provider events, block by block, and read as a message, as tool calls and
as a list of tool uses whose input was no JSON.  How a delta prints in an error
is a parameter.
-/

namespace Mentra

open Foundation

/-- What a turn tells the agent's observers while it is put together. -/
inductive DerivedEvent (V : Type)
  | textDelta (delta fullText : String)
  | reasoningDelta (delta fullText : String)
  | toolUseUpdated (index : Nat) (id name inputJson : String)
  | toolUseReady (index : Nat) (call : ToolCall V)

/-! ## Blocks -/

inductive PendingContentBlock (V : Type)
  | text (text : String) (complete : Bool)
  | thinking (thinking : String) (signature encryptedContent id : Option String)
      (provenance : Option ReasoningProvenance) (redacted complete : Bool)
  | image (source : ImageSource) (complete : Bool)
  | toolUse (id name inputJson : String) (complete : Bool)
  | toolResult (toolUseId : String) (content : ToolResultContent V) (isError complete : Bool)
  | hostedToolSearch (call : HostedToolSearchCall) (complete : Bool)
  | hostedWebSearch (call : HostedWebSearchCall) (complete : Bool)
  | imageGeneration (call : ImageGenerationCall) (complete : Bool)

namespace PendingContentBlock

variable {V : Type}

def isComplete : PendingContentBlock V → Bool
  | text _ complete | thinking _ _ _ _ _ _ complete | image _ complete
  | toolUse _ _ _ complete | toolResult _ _ _ complete | hostedToolSearch _ complete
  | hostedWebSearch _ complete | imageGeneration _ complete => complete

def markComplete : PendingContentBlock V → PendingContentBlock V
  | text value _ => text value true
  | thinking value signature encryptedContent id provenance redacted _ =>
    thinking value signature encryptedContent id provenance redacted true
  | image source _ => image source true
  | toolUse id name inputJson _ => toolUse id name inputJson true
  | toolResult toolUseId content isError _ => toolResult toolUseId content isError true
  | hostedToolSearch call _ => hostedToolSearch call true
  | hostedWebSearch call _ => hostedWebSearch call true
  | imageGeneration call _ => imageGeneration call true

def toContentBlock [SerdeJson V] : PendingContentBlock V → Except RuntimeError (ContentBlock V)
  | text value _ => .ok (.text value)
  | thinking value signature encryptedContent id provenance redacted _ =>
    .ok (.thinking value signature encryptedContent id provenance redacted)
  | image source _ => .ok (.image source)
  | toolUse id name inputJson _ =>
    match (SerdeJson.fromStr inputJson : Except String V) with
    | .ok input => .ok (.toolUse id name input)
    | .error source => .error (.invalidToolUseInput id name source)
  | toolResult toolUseId content isError _ => .ok (.toolResult toolUseId content isError)
  | hostedToolSearch call _ => .ok (.hostedToolSearch call)
  | hostedWebSearch call _ => .ok (.hostedWebSearch call)
  | imageGeneration call _ => .ok (.imageGeneration call)

def kindName : PendingContentBlock V → String
  | text .. => "text"
  | thinking .. => "thinking"
  | image .. => "image"
  | toolUse .. => "tool_use"
  | toolResult .. => "tool_result"
  | hostedToolSearch .. => "hosted_tool_search"
  | hostedWebSearch .. => "hosted_web_search"
  | imageGeneration .. => "image_generation"

def toolUseSummary : PendingContentBlock V → Option PendingToolUseSummary
  | toolUse id name inputJson complete => some ⟨id, name, inputJson, complete⟩
  | _ => none

/-- `From<ContentBlockStart>`. -/
def ofStart : ContentBlockStart V → PendingContentBlock V
  | .text => text "" false
  | .thinking encryptedContent id provenance redacted =>
    thinking "" none encryptedContent id provenance redacted false
  | .image source => image source false
  | .toolUse id name => toolUse id name "" false
  | .toolResult toolUseId isError content =>
    toolResult toolUseId (content.getD (.text "")) isError false
  | .hostedToolSearch call => hostedToolSearch call false
  | .hostedWebSearch call => hostedWebSearch call false
  | .imageGeneration call => imageGeneration call false

/-- `apply_hosted_delta`; `none` when the delta does not fit the block. -/
def applyHostedDelta : PendingContentBlock V → ContentBlockDelta V →
    Option (PendingContentBlock V)
  | hostedToolSearch call complete, .hostedToolSearchQuery query =>
    some (hostedToolSearch { call with query := some query } complete)
  | hostedToolSearch call complete, .hostedToolSearchStatus status =>
    some (hostedToolSearch { call with status := some status } complete)
  | hostedWebSearch call complete, .hostedWebSearchAction action =>
    some (hostedWebSearch { call with action := some action } complete)
  | hostedWebSearch call complete, .hostedWebSearchStatus status =>
    some (hostedWebSearch { call with status := some status } complete)
  | imageGeneration call complete, .imageGenerationStatus status =>
    some (imageGeneration { call with status } complete)
  | imageGeneration call complete, .imageGenerationRevisedPrompt prompt =>
    some (imageGeneration { call with revisedPrompt := some prompt } complete)
  | imageGeneration call complete, .imageGenerationResult result =>
    some (imageGeneration { call with result := some result } complete)
  | _, _ => none

end PendingContentBlock

/-! ## Turns -/

/-- A completed tool use whose input is not JSON. -/
structure InvalidToolUse where
  index : Nat
  id : String
  name : String
  inputJson : String
  error : String

structure PendingAssistantTurn (V : Type) where
  id : Option String := none
  model : Option String := none
  role : Option Role := none
  blocks : OrderedMap Nat (PendingContentBlock V) := .empty
  invalidToolUses : List InvalidToolUse := []
  currentText : String := ""
  currentReasoning : String := ""
  stopReason : Option String := none
  usage : Option TokenUsage := none
  stopped : Bool := false

namespace PendingAssistantTurn

variable {V : Type}

/-- The delta arm of `apply` for the block at `index`. -/
def applyDelta (debug : ContentBlockDelta V → String) (turn : PendingAssistantTurn V)
    (index : Nat) (block : PendingContentBlock V) (delta : ContentBlockDelta V) :
    Except RuntimeError (List (DerivedEvent V) × PendingAssistantTurn V) :=
  match block, delta with
  | .text text complete, .text delta =>
    let currentText := turn.currentText ++ delta
    .ok ([.textDelta delta currentText],
      { turn with
        currentText, blocks := turn.blocks.insert index (.text (text ++ delta) complete) })
  | .thinking thinking signature encryptedContent id provenance redacted complete,
      .thinkingText delta =>
      let currentReasoning := turn.currentReasoning ++ delta
      .ok ([.reasoningDelta delta currentReasoning],
        { turn with
          currentReasoning
          blocks := turn.blocks.insert index (.thinking (thinking ++ delta) signature
            encryptedContent id provenance redacted complete) })
  | .thinking thinking signature encryptedContent id provenance redacted complete,
      .thinkingSignature delta =>
      .ok ([],
        { turn with
          blocks := turn.blocks.insert index (.thinking thinking
            (some (signature.getD "" ++ delta)) encryptedContent id provenance redacted
            complete) })
  | .thinking thinking signature _ id provenance redacted complete,
      .thinkingEncryptedContent value =>
      .ok ([],
        { turn with
          blocks := turn.blocks.insert index (.thinking thinking signature (some value) id
            provenance redacted complete) })
  | .toolUse id name inputJson complete, .toolUseInputJson delta =>
    let inputJson := inputJson ++ delta
    .ok ([.toolUseUpdated index id name inputJson],
      { turn with blocks := turn.blocks.insert index (.toolUse id name inputJson complete) })
  | .toolResult toolUseId content isError complete, .toolResultContent delta =>
    let content :=
      match content, delta with
      | .text content, .text delta => .text (content ++ delta)
      | _, delta => delta
    .ok ([],
      { turn with
        blocks := turn.blocks.insert index (.toolResult toolUseId content isError complete) })
  | block, delta =>
    match block.applyHostedDelta delta with
    | some block => .ok ([], { turn with blocks := turn.blocks.insert index block })
    | none =>
      .error (.malformedProviderEvent
        ("delta " ++ debug delta ++ " is not valid for block " ++ block.kindName))

section Parsing

variable [SerdeJson V]

variable (turn : PendingAssistantTurn V)

/-- The stop arm of `apply` for the block at `index`. -/
def applyStop (index : Nat) (block : PendingContentBlock V) :
    List (DerivedEvent V) × PendingAssistantTurn V :=
  let turn := { turn with blocks := turn.blocks.insert index block.markComplete }
  match block with
  | .toolUse id name inputJson _ =>
    match (SerdeJson.fromStr inputJson : Except String V) with
    | .ok input => ([.toolUseReady index ⟨id, name, input⟩], turn)
    | .error error =>
      ([], { turn with
        invalidToolUses := turn.invalidToolUses ++ [⟨index, id, name, inputJson, error⟩] })
  | _ => ([], turn)

def apply (debug : ContentBlockDelta V → String) (turn : PendingAssistantTurn V) :
    ProviderEvent V → Except RuntimeError (List (DerivedEvent V) × PendingAssistantTurn V)
  | .responseHeaders _ | .responseCreated | .reasoningSummaryDelta _ _
  | .reasoningContentDelta _ _ | .reasoningSummaryPartAdded _ => .ok ([], turn)
  | .messageStarted id model role =>
    .ok ([], { turn with id := some id, model := some model, role := some role })
  | .contentBlockStarted index kind =>
    .ok ([], { turn with blocks := turn.blocks.insert index (.ofStart kind) })
  | .contentBlockDelta index delta =>
    match turn.blocks.get? index with
    | none =>
      .error (.malformedProviderEvent
        ("content block delta received before start for index " ++ toString index))
    | some block => turn.applyDelta debug index block delta
  | .contentBlockStopped index =>
    match turn.blocks.get? index with
    | none =>
      .error (.malformedProviderEvent
        ("content block stop received before start for index " ++ toString index))
    | some block => .ok (turn.applyStop index block)
  | .messageDelta stopReason usage => .ok ([], { turn with stopReason, usage })
  | .messageStopped => .ok ([], { turn with stopped := true })

/-- The loop of `to_message`.  A tool use whose input is not JSON is left out. -/
def messageContent : List (Nat × PendingContentBlock V) →
    Except RuntimeError (List (ContentBlock V))
  | [] => .ok []
  | (index, block) :: rest =>
    if !block.isComplete then
      .error (.malformedProviderEvent ("content block " ++ toString index ++ " did not complete"))
    else
      match block with
      | .toolUse id name inputJson _ =>
        match (SerdeJson.fromStr inputJson : Except String V) with
        | .ok input => (messageContent rest).map (.toolUse id name input :: ·)
        | .error _ => messageContent rest
      | block => do
          let content ← block.toContentBlock
          (messageContent rest).map (content :: ·)

def toMessage : Except RuntimeError (Message V) :=
  if !turn.stopped then
    .error (.malformedProviderEvent "assistant turn ended before MessageStopped")
  else
    match turn.role with
    | none => .error (.malformedProviderEvent "assistant turn missing role")
    | some role => (messageContent turn.blocks.entries).map fun content => { role, content }

/-- The call a block asks for, once it is complete and its input is JSON. -/
def readyToolCall : PendingContentBlock V → Option (ToolCall V)
  | .toolUse id name inputJson complete =>
    if complete then
      match (SerdeJson.fromStr inputJson : Except String V) with
      | .ok input => some ⟨id, name, input⟩
      | .error _ => none
    else none
  | _ => none

def readyToolCalls : List (ToolCall V) :=
  turn.blocks.values.filterMap readyToolCall

/-- The call of a tool use. -/
def toolCall? : ContentBlock V → Option (ToolCall V)
  | .toolUse id name input => some ⟨id, name, input⟩
  | _ => none

omit [SerdeJson V] in
theorem map_id_toolCalls (content : List (ContentBlock V)) :
    (content.filterMap toolCall?).map ToolCall.id = content.filterMap ContentBlock.toolUseId? := by
  rw [List.map_filterMap]
  congr 1
  funext block
  cases block <;> rfl

/-- The tool uses of the message are the ready calls. -/
theorem toolCalls_messageContent {entries : List (Nat × PendingContentBlock V)}
    {content : List (ContentBlock V)} (built : messageContent entries = .ok content) :
    content.filterMap toolCall? = (entries.map Prod.snd).filterMap readyToolCall := by
  induction entries generalizing content with
  | nil =>
    cases built
    rfl
  | cons entry rest ih =>
    obtain ⟨index, block⟩ := entry
    unfold messageContent at built
    split at built
    · cases built
    · rename_i complete
      rw [List.map_cons, List.filterMap_cons]
      cases block with
      | toolUse id name inputJson done =>
        simp only [PendingContentBlock.isComplete, Bool.not_eq_true, Bool.not_eq_false'] at complete
        simp only [readyToolCall, complete, if_true]
        cases parsed : (SerdeJson.fromStr inputJson : Except String V) with
        | error error =>
          simp only [parsed] at built
          exact ih built
        | ok input =>
          simp only [parsed] at built
          obtain ⟨others, read, rfl⟩ := Outcome.map_eq_ok_iff.mp built
          rw [← ih read]
          rfl
      | _ =>
        obtain ⟨others, read, rfl⟩ := Outcome.map_eq_ok_iff.mp built
        have tail := ih read
        exact tail

theorem toolCalls_toMessage {turn : PendingAssistantTurn V} {message : Message V}
    (built : turn.toMessage = .ok message) :
    message.content.filterMap toolCall? = turn.readyToolCalls ∧ turn.role = some message.role := by
  unfold toMessage at built
  split at built
  · cases built
  · split at built
    · cases built
    · rename_i role named
      obtain ⟨content, read, rfl⟩ := Outcome.map_eq_ok_iff.mp built
      exact ⟨toolCalls_messageContent read, named⟩

theorem toolUseIds_toMessage {turn : PendingAssistantTurn V} {message : Message V}
    (built : turn.toMessage = .ok message) :
    message.toolUseIds = turn.readyToolCalls.map ToolCall.id ∧ turn.role = some message.role := by
  obtain ⟨calls, role⟩ := toolCalls_toMessage built
  rw [← calls, map_id_toolCalls]
  exact ⟨rfl, role⟩

end Parsing

def pendingToolUseSummaries (turn : PendingAssistantTurn V) : List PendingToolUseSummary :=
  turn.blocks.values.filterMap PendingContentBlock.toolUseSummary

def pendingState (turn : PendingAssistantTurn V) : PendingTurnState :=
  ⟨turn.currentText, turn.pendingToolUseSummaries⟩

end PendingAssistantTurn

end Mentra

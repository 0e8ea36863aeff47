import Mentra.Foundation.OrderedMap
import Mentra.Provider.Sse

/-!
# The chat-completions decoder

`chat_completions/sse.rs`: the wire sends slices of reasoning, of text and of tool calls'
arguments.  The decoder opens a block at the first slice for it, numbers the blocks in the
order they are opened and closes them together when the response ends.  Reading a chunk from
JSON text is a parameter.
-/

namespace Mentra.ChatCompletions

open Foundation
open Foundation.Emission
open Foundation.Frames

/-! ## Chunks -/

structure FunctionDelta where
  name : Option String := none
  arguments : Option String := none
  deriving DecidableEq

structure ToolCallDelta where
  index : Nat := 0
  id : Option String := none
  function : Option FunctionDelta := none
  deriving DecidableEq

structure Delta where
  content : Option String := none
  reasoningContent : Option String := none
  reasoning : Option String := none
  toolCalls : List ToolCallDelta := []
  deriving DecidableEq

structure Choice where
  delta : Delta := {}
  finishReason : Option String := none
  deriving DecidableEq

structure Usage where
  promptTokens : Option Nat
  completionTokens : Option Nat
  totalTokens : Option Nat
  /-- `prompt_tokens_details`, of which only `cached_tokens` is read. -/
  promptTokensDetails : Option (Option Nat)
  /-- `completion_tokens_details`, of which only `reasoning_tokens` is read. -/
  completionTokensDetails : Option (Option Nat)
  deriving DecidableEq

structure Chunk where
  id : Option String := none
  model : Option String := none
  choices : List Choice := []
  usage : Option Usage := none
  deriving DecidableEq

def tokenUsage (usage : Usage) : TokenUsage :=
  { inputTokens := usage.promptTokens
    outputTokens := usage.completionTokens
    totalTokens := usage.totalTokens
    cacheReadInputTokens := usage.promptTokensDetails.join
    reasoningTokens := usage.completionTokensDetails.join }

/-- A text that is not empty. -/
def nonempty (text : Option String) : Option String :=
  text.filter (· ≠ "")

theorem nonempty_eq_some_iff {text : Option String} {slice : String} :
    nonempty text = some slice ↔ text = some slice ∧ slice ≠ "" := by
  simp [nonempty, Option.filter_eq_some_iff]

theorem getD_nonempty (text : Option String) : (nonempty text).getD "" = text.getD "" := by
  cases text with
  | none => rfl
  | some text =>
    by_cases empty : text = ""
    · subst empty
      rfl
    · rw [nonempty_eq_some_iff.mpr ⟨rfl, empty⟩]

def Delta.reasoningText (delta : Delta) : Option String :=
  nonempty (delta.reasoningContent <|> delta.reasoning)

/-! ## Slices -/

/-- What the decoder keeps one block for: the reasoning, the text, and each tool
call by its number on the wire. -/
inductive BlockKey
  | reasoning
  | text
  | tool (wire : Nat)
  deriving DecidableEq

/-- What a choice adds to one block. -/
inductive Slice
  | reasoning (text : String)
  | text (text : String)
  | call (delta : ToolCallDelta)

namespace Slice

def key : Slice → BlockKey
  | reasoning _ => .reasoning
  | text _ => .text
  | call delta => .tool delta.index

/-- How the block of a first slice starts.  A tool call without an id is called after its
block's position. -/
def start {V : Type} (provenance : ReasoningProvenance) (index : Nat) :
    Slice → ContentBlockStart V
  | reasoning _ => .thinking none none (some provenance) false
  | text _ => .text
  | call delta =>
    .toolUse (delta.id.getD ("call_" ++ toString index))
      ((delta.function.bind FunctionDelta.name).getD "")

def delta? {V : Type} : Slice → Option (ContentBlockDelta V)
  | reasoning slice => some (.thinkingText slice)
  | text slice => some (.text slice)
  | call delta =>
    (nonempty (delta.function.bind FunctionDelta.arguments)).map .toolUseInputJson

end Slice

/-- The slices of a choice, in the order `apply_chunk` takes them. -/
def Choice.slices (choice : Choice) : List Slice :=
  (choice.delta.reasoningText.map Slice.reasoning).toList ++
    ((nonempty choice.delta.content).map Slice.text).toList ++
    choice.delta.toolCalls.map Slice.call

/-! ## State -/

structure StreamState where
  started : Bool := false
  finished : Bool := false
  requestedModel : String
  provenance : ReasoningProvenance
  nextIndex : Nat := 0
  textIndex : Option Nat := none
  reasoningIndex : Option Nat := none
  toolIndices : OrderedMap Nat Nat := .empty
  openBlocks : List Nat := []
  stopReason : Option String := none
  usage : Option TokenUsage := none

namespace StreamState

variable {V : Type}

def new (provider requestedModel : String) : StreamState :=
  { requestedModel
    provenance := { provider, model := requestedModel, format := .openAiEncrypted } }

variable (state : StreamState)

def allocate : Nat × StreamState :=
  (state.nextIndex,
    { state with
      nextIndex := state.nextIndex + 1
      openBlocks := state.openBlocks ++ [state.nextIndex] })

/-- The block a key has, if it has one. -/
def indexOf : BlockKey → Option Nat
  | .reasoning => state.reasoningIndex
  | .text => state.textIndex
  | .tool wire => state.toolIndices.get? wire

def remember (index : Nat) : BlockKey → StreamState
  | .reasoning => { state with reasoningIndex := some index }
  | .text => { state with textIndex := some index }
  | .tool wire => { state with toolIndices := state.toolIndices.insert wire index }

/-- Add a slice to its block, which is opened if it is not open. -/
def takeSlice (slice : Slice) : List (ProviderEvent V) × StreamState :=
  match state.indexOf slice.key with
  | some index => ((slice.delta?.map (.contentBlockDelta index)).toList, state)
  | none =>
    let (index, state) := state.allocate
    (.contentBlockStarted index (slice.start state.provenance index) ::
        (slice.delta?.map (.contentBlockDelta index)).toList,
      state.remember index slice.key)

def takeChoice (choice : Choice) : List (ProviderEvent V) × StreamState :=
  let (events, state) := emit takeSlice state choice.slices
  (events, { state with stopReason := choice.finishReason <|> state.stopReason })

/-- Announce the message, once. -/
def announce (id model : Option String) : List (ProviderEvent V) × StreamState :=
  if state.started then ([], state)
  else
    ([.messageStarted (id.getD "") (model.getD state.requestedModel) .assistant],
      { state with started := true })

def recordUsage (usage : Option Usage) : StreamState :=
  { state with usage := usage.map tokenUsage <|> state.usage }

def applyChunk (chunk : Chunk) : List (ProviderEvent V) × StreamState :=
  if state.finished then ([], state)
  else
    let (announced, state) := state.announce chunk.id chunk.model
    let (events, state) := emit takeChoice (state.recordUsage chunk.usage) chunk.choices
    (announced ++ events, state)

/-- The events that close out a response, once. -/
def finish : List (ProviderEvent V) × StreamState :=
  if state.finished then ([], state)
  else
    let (announced, state) := { state with finished := true }.announce none none
    (announced ++ (state.openBlocks.map fun index => .contentBlockStopped index) ++
        [.messageDelta state.stopReason state.usage, .messageStopped],
      { state with openBlocks := [], stopReason := none, usage := none })

end StreamState

/-! ## The decoder -/

/-- What a payload is read as. -/
inductive Payload
  | done
  | chunk (chunk : Chunk)
  deriving DecidableEq

def readPayload (read : String → Except String Chunk) (data : String) :
    Except ProviderError Payload :=
  if data = "[DONE]" then .ok .done
  else
    match read data with
    | .error error => .error (.deserialize error)
    | .ok chunk => .ok (.chunk chunk)

def StreamState.takePayload {V : Type} (state : StreamState) :
    Payload → List (ProviderEvent V) × StreamState
  | .done => state.finish
  | .chunk chunk => state.applyChunk chunk

/-- `forward_events`: the response is closed out when the stream ends. -/
def decoder {V : Type} (fromUtf8 : List UInt8 → Except String String)
    (read : String → Except String Chunk) (provider requestedModel : String) :
    Decoder UInt8 StreamState ProviderError (ProviderEvent V) where
  initial := .new provider requestedModel
  parse := Sse.parseFrame fromUtf8 Sse.skipsComments fun data state =>
    (readPayload read data).map state.takePayload
  finish state := (state.finish.1, none)

end Mentra.ChatCompletions

import Mentra.Foundation.OrderedMap
import Mentra.Provider.Sse

/-!
# The Gemini decoder

`gemini/sse.rs`: every frame is one chunk of a response, whose first candidate holds parts.  A
part's position in its chunk is taken as the index of its block; what is open and what was
received is kept for each index from chunk to chunk.  Reading a chunk from JSON text is a
parameter.
-/

namespace Mentra

def TokenUsage.isEmpty (usage : TokenUsage) : Bool :=
  usage.inputTokens.isNone && usage.outputTokens.isNone && usage.totalTokens.isNone &&
    usage.cacheReadInputTokens.isNone && usage.cacheCreationInputTokens.isNone &&
    usage.reasoningTokens.isNone && usage.thoughtsTokens.isNone && usage.toolInputTokens.isNone

namespace Gemini

open Foundation
open Foundation.Frames

/-! ## Chunks -/

structure FunctionCall (V : Type) where
  name : String
  args : V
  deriving DecidableEq

structure Part (V : Type) where
  text : Option String := none
  functionCall : Option (FunctionCall V) := none
  deriving DecidableEq

structure Content (V : Type) where
  parts : List (Part V)
  deriving DecidableEq

structure Candidate (V : Type) where
  content : Option (Content V) := none
  finishReason : Option String := none
  deriving DecidableEq

structure PromptFeedback where
  blockReason : Option String
  deriving DecidableEq

def PromptFeedback.stopReason (feedback : PromptFeedback) : String :=
  feedback.blockReason.getD "BLOCKED"

structure UsageMetadata where
  promptTokenCount : Option Nat
  candidatesTokenCount : Option Nat
  totalTokenCount : Option Nat
  cachedContentTokenCount : Option Nat
  thoughtsTokenCount : Option Nat
  toolUsePromptTokenCount : Option Nat
  deriving DecidableEq

def UsageMetadata.toTokenUsage (metadata : UsageMetadata) : Option TokenUsage :=
  let usage : TokenUsage :=
    { inputTokens := metadata.promptTokenCount
      outputTokens := metadata.candidatesTokenCount
      totalTokens := metadata.totalTokenCount
      cacheReadInputTokens := metadata.cachedContentTokenCount
      thoughtsTokens := metadata.thoughtsTokenCount
      toolInputTokens := metadata.toolUsePromptTokenCount }
  if usage.isEmpty then none else some usage

structure ErrorBody where
  message : Option String
  deriving DecidableEq

structure StreamChunk (V : Type) where
  candidates : List (Candidate V) := []
  promptFeedback : Option PromptFeedback := none
  usageMetadata : Option UsageMetadata := none
  responseId : Option String := none
  modelVersion : Option String := none
  error : Option ErrorBody := none
  deriving DecidableEq

/-! ## State -/

structure StreamState where
  requestModel : String
  responseId : Option String := none
  modelVersion : Option String := none
  started : Bool := false
  stopped : Bool := false
  latestUsage : Option TokenUsage := none
  openBlocks : OrderedMap Nat Unit := .empty
  textSnapshots : OrderedMap Nat String := .empty
  toolSnapshots : OrderedMap Nat String := .empty

/-- `merge_chunk`: what is new in `current`, and what has been received with it.  A text that
starts with all of that repeats it. -/
def mergeChunk (previous current : String) : Option String × String :=
  if current.isEmpty then (none, previous)
  else if previous.isEmpty then (some current, current)
  else if current = previous then (none, previous)
  else
    match Text.stripPrefix? previous current with
    | some delta => (if delta.isEmpty then none else some delta, current)
    | none => (some current, previous ++ current)

namespace StreamState

variable {V : Type}

variable (state : StreamState)

def ensureMessageStarted (chunk : StreamChunk V) : Option (ProviderEvent V) × StreamState :=
  if state.started then (none, state)
  else
    let responseId := chunk.responseId <|> some ("gemini-" ++ state.requestModel)
    (some (.messageStarted (responseId.getD "gemini")
        (chunk.modelVersion.getD state.requestModel) .assistant),
      { state with started := true, responseId, modelVersion := chunk.modelVersion })

def ensureTextBlockStarted (index : Nat) : Option (ProviderEvent V) × StreamState :=
  match state.openBlocks.get? index with
  | some () => (none, state)
  | none =>
    (some (.contentBlockStarted index .text),
      { state with openBlocks := state.openBlocks.insert index () })

def ensureToolBlockStarted (index : Nat) (call : FunctionCall V) :
    Option (ProviderEvent V) × StreamState :=
  match state.openBlocks.get? index with
  | some () => (none, state)
  | none =>
    let responseId := state.responseId.getD ("gemini-" ++ state.requestModel)
    let id := responseId ++ "-" ++ toString index ++ "-" ++ call.name
    (some (.contentBlockStarted index (.toolUse id call.name)),
      { state with openBlocks := state.openBlocks.insert index () })

def closeAllBlocks : List (ProviderEvent V) × StreamState :=
  (state.openBlocks.entries.map fun entry => .contentBlockStopped entry.1,
    { state with openBlocks := .empty, textSnapshots := .empty, toolSnapshots := .empty })

def updateUsage : Option TokenUsage → Option TokenUsage × StreamState
  | some usage =>
    (if state.latestUsage = some usage then none else some usage,
      { state with latestUsage := some usage })
  | none => (none, state)

/-- One part, at its position in the chunk. -/
def takePart [SerdeJson V] (index : Nat) (part : Part V) : List (ProviderEvent V) × StreamState :=
  match part.text with
  | some text =>
    let (started, state) := state.ensureTextBlockStarted index
    let (delta, snapshot) := mergeChunk ((state.textSnapshots.get? index).getD "") text
    (started.toList ++ (delta.map fun delta => .contentBlockDelta index (.text delta)).toList,
      { state with textSnapshots := state.textSnapshots.insert index snapshot })
  | none =>
    match part.functionCall with
    | some call =>
      let (started, state) := state.ensureToolBlockStarted index call
      let (delta, snapshot) :=
        mergeChunk ((state.toolSnapshots.get? index).getD "") (SerdeJson.print call.args)
      (started.toList ++
        (delta.map fun delta => .contentBlockDelta index (.toolUseInputJson delta)).toList,
        { state with toolSnapshots := state.toolSnapshots.insert index snapshot })
    | none => ([], state)

/-- The loop over a chunk's parts. -/
def takeParts [SerdeJson V] : StreamState → Nat → List (Part V) →
    List (ProviderEvent V) × StreamState
  | state, _, [] => ([], state)
  | state, index, part :: parts =>
    let (events, next) := state.takePart index part
    let (others, final) := takeParts next (index + 1) parts
    (events ++ others, final)

def takeContent [SerdeJson V] :
    Option (Content V) → List (ProviderEvent V) × StreamState
  | some content => state.takeParts 0 content.parts
  | none => ([], state)

/-- The end of a message: everything is closed and the message stops. -/
def stop (reason : String) (usage : Option TokenUsage) : List (ProviderEvent V) × StreamState :=
  let (closed, state) := state.closeAllBlocks
  (closed ++ [.messageDelta (some reason) (usage <|> state.latestUsage), .messageStopped],
    { state with stopped := true })

/-- The first candidate of a chunk. -/
def takeCandidate [SerdeJson V] (candidate : Candidate V)
    (usage changed : Option TokenUsage) : List (ProviderEvent V) × StreamState :=
  let (events, state) := state.takeContent candidate.content
  match candidate.finishReason with
  | some reason =>
    let (stopped, state) := state.stop reason usage
    (events ++ stopped, state)
  | none =>
    match changed with
    | some usage => (events ++ [.messageDelta none (some usage)], state)
    | none => (events, state)

/-- `parse_frame` from the chunk on. -/
def takeChunk [SerdeJson V] (chunk : StreamChunk V) :
    Except ProviderError (List (ProviderEvent V) × StreamState) :=
  match chunk.error with
  | some error => .error (.malformedStream (error.message.getD "gemini stream error"))
  | none =>
    let usage := chunk.usageMetadata.bind UsageMetadata.toTokenUsage
    let (changed, state) := state.updateUsage usage
    match chunk.candidates with
    | candidate :: _ =>
      let (started, state) := state.ensureMessageStarted chunk
      let (events, state) := state.takeCandidate candidate usage changed
      .ok (started.toList ++ events, state)
    | [] =>
      match chunk.promptFeedback with
      | some feedback =>
        let (started, state) := state.ensureMessageStarted chunk
        let (_, state) := state.updateUsage usage
        let (events, state) := state.stop feedback.stopReason usage
        .ok (started.toList ++ events, state)
      | none => .ok ([], state)

end StreamState

/-! ## The decoder -/

/-- `serde_json::from_str` of a chunk. -/
def readChunk {V : Type} (read : String → Except String (StreamChunk V)) (data : String) :
    Except ProviderError (StreamChunk V) :=
  match read data with
  | .error error => .error (.deserialize error)
  | .ok chunk => .ok chunk

/-- `parse_frame` from the payload on. -/
def handle {V : Type} [SerdeJson V] (read : String → Except String (StreamChunk V))
    (data : String) (state : StreamState) :
    Except ProviderError (List (ProviderEvent V) × StreamState) := do
  let chunk ← readChunk read data
  state.takeChunk chunk

/-- `forward_events`: frames are parsed one by one, and a message that started
has to have stopped. -/
def decoder {V : Type} [SerdeJson V] (fromUtf8 : List UInt8 → Except String String)
    (read : String → Except String (StreamChunk V)) (requestModel : String) :
    Decoder UInt8 StreamState ProviderError (ProviderEvent V) where
  initial := { requestModel }
  parse := Sse.parseFrame fromUtf8 Sse.skipsCommentsAndEvents (handle read)
  finish state :=
    ([], if state.started && !state.stopped then
        some (.malformedStream "Gemini stream ended before MessageStopped")
      else none)

end Gemini

end Mentra

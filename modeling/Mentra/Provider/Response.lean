import Mentra.Foundation.Outcome
import Mentra.Foundation.Slots
import Mentra.Provider.Stream
import Mentra.Runtime.Error

/-!
# Collecting a response

`collect_response_from_stream` of `mentra-provider/src/response.rs`: a builder puts the
content blocks of one response together from a provider's events.  Reading JSON text out of a
value, making a value of a text and how a delta prints in an error are parameters.
-/

namespace Mentra

open Foundation

/-- The string values among the JSON values. -/
class JsonText (V : Type) where
  /-- The text of a value that is a string. -/
  text? : V → Option String
  ofText : String → V

/-- JSON values none of which is a string. -/
instance : JsonText Unit where
  text? _ := none
  ofText _ := ()

/-- A complete response collected from a provider stream. -/
structure Response (V : Type) where
  id : String
  model : String
  role : Role
  content : List (ContentBlock V)
  stopReason : Option String
  usage : Option TokenUsage

/-- `merge_structured_text`: only a string takes in text. -/
def mergeStructuredText {V : Type} [JsonText V] (value : V) (delta : String) : V :=
  match JsonText.text? value with
  | some existing => JsonText.ofText (existing ++ delta)
  | none => value

/-! ## Blocks -/

inductive StreamingContentBlock (V : Type)
  | text (text : String) (complete : Bool)
  | thinking (thinking : String) (signature encryptedContent id : Option String)
      (provenance : Option ReasoningProvenance) (redacted complete : Bool)
  | image (source : ImageSource) (complete : Bool)
  | toolUse (id name inputJson : String) (complete : Bool)
  | toolResult (toolUseId : String) (content : Option (ToolResultContent V))
      (isError complete : Bool)
  | hostedToolSearch (call : HostedToolSearchCall) (complete : Bool)
  | hostedWebSearch (call : HostedWebSearchCall) (complete : Bool)
  | imageGeneration (call : ImageGenerationCall) (complete : Bool)

namespace StreamingContentBlock

variable {V : Type}

def kindName : StreamingContentBlock V → String
  | text .. => "text"
  | thinking .. => "thinking"
  | image .. => "image"
  | toolUse .. => "tool_use"
  | toolResult .. => "tool_result"
  | hostedToolSearch .. => "hosted_tool_search"
  | hostedWebSearch .. => "hosted_web_search"
  | imageGeneration .. => "image_generation"

/-- What a tool result's content becomes when more arrives. -/
def mergeToolResult [JsonText V] :
    Option (ToolResultContent V) → ToolResultContent V → ToolResultContent V
  | _, .structured value => .structured value
  | some (.structured value), .text delta => .structured (mergeStructuredText value delta)
  | some (.text existing), .text delta => .text (existing ++ delta)
  | none, delta => delta

def applyDelta [JsonText V] (debug : ContentBlockDelta V → String) :
    StreamingContentBlock V → ContentBlockDelta V → Except ProviderError (StreamingContentBlock V)
  | text value complete, .text delta => .ok (text (value ++ delta) complete)
  | thinking value signature encryptedContent id provenance redacted complete,
      .thinkingText delta =>
      .ok (thinking (value ++ delta) signature encryptedContent id provenance redacted complete)
  | thinking value signature encryptedContent id provenance redacted complete,
      .thinkingSignature delta =>
      .ok (thinking value (some (signature.getD "" ++ delta)) encryptedContent id provenance
        redacted complete)
  | thinking value signature _ id provenance redacted complete,
      .thinkingEncryptedContent encryptedContent =>
      .ok (thinking value signature (some encryptedContent) id provenance redacted complete)
  | toolUse id name inputJson complete, .toolUseInputJson delta =>
    .ok (toolUse id name (inputJson ++ delta) complete)
  | toolResult toolUseId content isError complete, .toolResultContent delta =>
    .ok (toolResult toolUseId (some (mergeToolResult content delta)) isError complete)
  | hostedToolSearch call complete, .hostedToolSearchQuery delta =>
    .ok (hostedToolSearch { call with query := some (call.query.getD "" ++ delta) } complete)
  | hostedToolSearch call complete, .hostedToolSearchStatus status =>
    .ok (hostedToolSearch { call with status := some status } complete)
  | hostedWebSearch call complete, .hostedWebSearchAction action =>
    .ok (hostedWebSearch { call with action := some action } complete)
  | hostedWebSearch call complete, .hostedWebSearchStatus status =>
    .ok (hostedWebSearch { call with status := some status } complete)
  | imageGeneration call complete, .imageGenerationStatus status =>
    .ok (imageGeneration { call with status } complete)
  | imageGeneration call complete, .imageGenerationRevisedPrompt delta =>
    .ok (imageGeneration { call with revisedPrompt := some (call.revisedPrompt.getD "" ++ delta) }
      complete)
  | imageGeneration call complete, .imageGenerationResult result =>
    .ok (imageGeneration { call with result := some result } complete)
  | block, delta =>
    .error (.malformedStream
      ("delta " ++ debug delta ++ " is not valid for block " ++ block.kindName))

def markComplete : StreamingContentBlock V → StreamingContentBlock V
  | text value _ => text value true
  | thinking value signature encryptedContent id provenance redacted _ =>
    thinking value signature encryptedContent id provenance redacted true
  | image source _ => image source true
  | toolUse id name inputJson _ => toolUse id name inputJson true
  | toolResult toolUseId content isError _ => toolResult toolUseId content isError true
  | hostedToolSearch call _ => hostedToolSearch call true
  | hostedWebSearch call _ => hostedWebSearch call true
  | imageGeneration call _ => imageGeneration call true

def isComplete : StreamingContentBlock V → Bool
  | text _ complete | thinking _ _ _ _ _ _ complete | image _ complete
  | toolUse _ _ _ complete | toolResult _ _ _ complete | hostedToolSearch _ complete
  | hostedWebSearch _ complete | imageGeneration _ complete => complete

def tryIntoContentBlock [SerdeJson V] :
    StreamingContentBlock V → Except ProviderError (ContentBlock V)
  | text value _ => .ok (.text value)
  | thinking value signature encryptedContent id provenance redacted _ =>
    .ok (.thinking value signature encryptedContent id provenance redacted)
  | image source _ => .ok (.image source)
  | toolUse id name inputJson _ =>
    match (SerdeJson.fromStr inputJson : Except String V) with
    | .ok input => .ok (.toolUse id name input)
    | .error error => .error (.deserialize error)
  | toolResult toolUseId content isError _ =>
    .ok (.toolResult toolUseId (content.getD (.text "")) isError)
  | hostedToolSearch call _ => .ok (.hostedToolSearch call)
  | hostedWebSearch call _ => .ok (.hostedWebSearch call)
  | imageGeneration call _ => .ok (.imageGeneration call)

/-- `From<ContentBlockStart>`. -/
def ofStart : ContentBlockStart V → StreamingContentBlock V
  | .text => text "" false
  | .thinking encryptedContent id provenance redacted =>
    thinking "" none encryptedContent id provenance redacted false
  | .image source => image source false
  | .toolUse id name => toolUse id name "" false
  | .toolResult toolUseId isError content => toolResult toolUseId content isError false
  | .hostedToolSearch call => hostedToolSearch call false
  | .hostedWebSearch call => hostedWebSearch call false
  | .imageGeneration call => imageGeneration call false

end StreamingContentBlock

/-! ## The builder -/

structure StreamingResponseBuilder (V : Type) where
  id : Option String := none
  model : Option String := none
  role : Option Role := none
  blocks : OrderedMap Nat (StreamingContentBlock V) := .empty
  stopReason : Option String := none
  usage : Option TokenUsage := none
  stopped : Bool := false

namespace StreamingResponseBuilder

variable {V : Type} [JsonText V] [SerdeJson V]

def apply (debug : ContentBlockDelta V → String) (builder : StreamingResponseBuilder V) :
    ProviderEvent V → Except ProviderError (StreamingResponseBuilder V)
  | .responseHeaders _ | .responseCreated | .reasoningSummaryDelta _ _
  | .reasoningContentDelta _ _ | .reasoningSummaryPartAdded _ => .ok builder
  | .messageStarted id model role =>
    .ok { builder with id := some id, model := some model, role := some role }
  | .contentBlockStarted index kind =>
    .ok { builder with blocks := builder.blocks.insert index (.ofStart kind) }
  | .contentBlockDelta index delta =>
    match builder.blocks.get? index with
    | none =>
      .error (.malformedStream
        ("content block delta received before start for index " ++ toString index))
    | some block => do
        let block ← block.applyDelta debug delta
        pure { builder with blocks := builder.blocks.insert index block }
  | .contentBlockStopped index =>
    match builder.blocks.get? index with
    | none =>
      .error (.malformedStream
        ("content block stop received before start for index " ++ toString index))
    | some block =>
      .ok { builder with blocks := builder.blocks.insert index block.markComplete }
  | .messageDelta stopReason usage => .ok { builder with stopReason, usage }
  | .messageStopped => .ok { builder with stopped := true }

/-- The receiving loop of `collect_response_from_stream`. -/
def applyAll (debug : ContentBlockDelta V → String) : StreamingResponseBuilder V →
    List (Except ProviderError (ProviderEvent V)) →
    Except ProviderError (StreamingResponseBuilder V)
  | builder, [] => .ok builder
  | builder, received :: rest => do
      let event ← received
      let next ← builder.apply debug event
      applyAll debug next rest

/-- The loop of `build`. -/
def buildContent : List (Nat × StreamingContentBlock V) →
    Except ProviderError (List (ContentBlock V))
  | [] => .ok []
  | (index, block) :: rest =>
    if !block.isComplete then
      .error (.malformedStream ("content block " ++ toString index ++ " did not complete"))
    else do
      let content ← block.tryIntoContentBlock
      (buildContent rest).map (content :: ·)

def build (builder : StreamingResponseBuilder V) : Except ProviderError (Response V) :=
  if !builder.stopped then
    .error (.malformedStream "message stream ended before MessageStopped")
  else
    match builder.id with
    | none => .error (.malformedStream "missing message id")
    | some id =>
      match builder.model with
      | none => .error (.malformedStream "missing model id")
      | some model =>
        match builder.role with
        | none => .error (.malformedStream "missing message role")
        | some role => do
            let content ← buildContent builder.blocks.entries
            pure
              { id, model, role, content
                stopReason := builder.stopReason
                usage := builder.usage }

end StreamingResponseBuilder

/-- `collect_response_from_stream`: the first error, in an event's place or from applying one,
ends the collection. -/
def collectResponseFromStream {V : Type} [JsonText V] [SerdeJson V]
    (debug : ContentBlockDelta V → String)
    (stream : List (Except ProviderError (ProviderEvent V))) :
    Except ProviderError (Response V) := do
  let builder ← StreamingResponseBuilder.applyAll debug {} stream
  builder.build

end Mentra
